import TapeNet.Word
import TapeNet.Plane.Grid

/-! # Windows

    The window of a sparse map is the smallest grid that holds all its
    points and the origin of the plane, with a filling for the other cells.
    There is room for a grid of any size here; a window that does not fit in
    the memory of its host is outside of this model.

    - `Box.of` is the bounding box; it always includes the origin.
    - `Window.layOut` stores the entries of a map one by one, each at its
      index in the box. No index is out of bounds (`exists_layOut`), and the
      last value that is stored at a place is there in the end
      (`exists_storeAll`).
    - `Window.of` is the window of a map; `corner` is where the origin went.
    - `Window.ofWords?` is for a grid of words, and refuses a value or a
      filling that is none.
-/

namespace TapeNet

/-- A rectangle of the plane, all bounds included. -/
structure Box where
  west : Int
  east : Int
  north : Int
  south : Int
deriving DecidableEq, Repr

namespace Box

/-- The box of the origin alone. -/
def unit : Box := ⟨0, 0, 0, 0⟩

/-- The smallest box that also holds a point. -/
def cover (b : Box) (p : Point) : Box :=
  ⟨min b.west p.x, max b.east p.x, min b.north p.y, max b.south p.y⟩

/-- The smallest box that holds the points and the origin. -/
def of (points : List Point) : Box := points.foldl cover unit

def width (b : Box) : Nat := (b.east - b.west + 1).toNat

def height (b : Box) : Nat := (b.south - b.north + 1).toNat

/-- The indices of a point in a grid that is laid over a box. -/
def index (b : Box) (p : Point) : Point := ⟨p.x - b.west, p.y - b.north⟩

/-- Whether a point is in a box. -/
def Holds (b : Box) (p : Point) : Prop :=
  (b.west ≤ p.x ∧ p.x ≤ b.east) ∧ b.north ≤ p.y ∧ p.y ≤ b.south

variable {b : Box} {p q : Point} {points : List Point}

theorem index_eq_iff : b.index p = b.index q ↔ p = q := by
  obtain ⟨px, py⟩ := p
  obtain ⟨qx, qy⟩ := q
  simp only [index, Point.mk.injEq]
  omega

theorem holds_cover : (b.cover p).Holds p := by
  simp only [cover, Holds]
  omega

theorem Holds.cover (h : b.Holds q) : (b.cover p).Holds q := by
  simp only [Box.cover, Holds] at *
  omega

theorem Holds.foldl (h : b.Holds q) : (points.foldl Box.cover b).Holds q := by
  induction points generalizing b with
  | nil => exact h
  | cons p points ih => exact ih h.cover

theorem holds_of_mem (h : p ∈ points) : (Box.of points).Holds p := by
  obtain ⟨before, after, rfl⟩ := List.append_of_mem h
  rw [Box.of, List.foldl_append, List.foldl_cons]
  exact holds_cover.foldl

theorem holds_origin : (Box.of points).Holds .origin := by
  apply Holds.foldl
  exact ⟨⟨Int.le_refl 0, Int.le_refl 0⟩, Int.le_refl 0, Int.le_refl 0⟩

/-- The points in a box are those whose indices are positions of its grid. -/
theorem holds_iff {α : Type} {g : Grid α} (hwidth : g.width = b.width)
    (hheight : g.height = b.height) : b.Holds p ↔ b.index p ∈ g.positions := by
  simp only [Grid.mem_positions, hwidth, hheight, width, height, index, Holds]
  omega

end Box

/-- A grid, with the position in it of the plane's origin. -/
structure Window (α : Type) where
  grid : Grid α
  corner : Point

namespace Window

variable {α : Type}

/-- Stores an entry of a map at its indices in a box. -/
def storeIn (b : Box) (g : Grid α) (entry : Point × α) : Except Grid.OutOfBounds (Grid α) :=
  g.store (b.index entry.1) entry.2

/-- Lays the entries of a map out, in the order given. -/
def layOut (entries : List (Point × α)) (fill : α) : Except Grid.OutOfBounds (Window α) := do
  let box := Box.of (entries.map Prod.fst)
  let grid ← entries.foldlM (storeIn box) (.full box.width box.height fill)
  pure ⟨grid, ⟨-box.west, -box.north⟩⟩

/-! ### Stored entries -/

/-- The value that is stored last at a point. -/
def lastAt (entries : List (Point × α)) (p : Point) : Option α :=
  (entries.reverse.find? (·.1 = p)).map Prod.snd

theorem lastAt_cons (entry : Point × α) (entries : List (Point × α)) (p : Point) :
    lastAt (entry :: entries) p =
      (lastAt entries p).or (if p = entry.1 then some entry.2 else none) := by
  rw [lastAt, lastAt, List.reverse_cons, List.find?_append, Option.map_or]
  by_cases hp : p = entry.1 <;> simp [hp, eq_comm]

/-- Entries in a box can be stored in a grid of its size, all of them. In the end the value that was
    stored last is at its indices, and nothing else has changed. -/
theorem exists_storeAll {b : Box} (entries : List (Point × α)) {g : Grid α}
    (hwidth : g.width = b.width) (hheight : g.height = b.height)
    (hholds : ∀ entry ∈ entries, b.Holds entry.1) :
    ∃ g', entries.foldlM (storeIn b) g = .ok g' ∧ g'.width = b.width ∧ g'.height = b.height ∧
      ∀ p, g'.get? (b.index p) = (lastAt entries p).or (g.get? (b.index p)) := by
  induction entries generalizing g with
  | nil => exact ⟨g, rfl, hwidth, hheight, fun p => rfl⟩
  | cons entry entries ih =>
    obtain ⟨hentry, hrest⟩ := List.forall_mem_cons.mp hholds
    obtain ⟨g₁, hstore, hw, hh, hget⟩ :=
      Grid.exists_store ((Box.holds_iff hwidth hheight).mp hentry) entry.2
    obtain ⟨g', hfold, hwidth', hheight', hget'⟩ := ih (hw.trans hwidth) (hh.trans hheight) hrest
    refine ⟨g', ?_, hwidth', hheight', ?_⟩
    · rw [List.foldlM_cons, storeIn, hstore]
      exact hfold
    · intro p
      simp only [hget', hget, lastAt_cons, Box.index_eq_iff, Option.or_assoc]
      split <;> rfl

theorem exists_layOut (entries : List (Point × α)) (fill : α) :
    ∃ w, layOut entries fill = .ok w := by
  have hholds : ∀ entry ∈ entries, (Box.of (entries.map Prod.fst)).Holds entry.1 :=
    fun entry hentry => Box.holds_of_mem (List.mem_map_of_mem hentry)
  obtain ⟨g, hfold, -⟩ := exists_storeAll entries (Grid.width_full _ _ fill)
    (Grid.height_full ..) hholds
  rw [layOut]
  simp only [hfold]
  exact ⟨_, rfl⟩

/-! ### Windows of maps -/

/-- The window of a sparse map. -/
def of (points : Sparse α) (fill : α) : Window α :=
  match h : layOut points.toList fill with
  | .ok w => w
  | .error _ => absurd (exists_layOut points.toList fill) (by simp [h])

theorem layOut_toList (points : Sparse α) (fill : α) :
    layOut points.toList fill = .ok (of points fill) := by
  rw [of]
  split
  · assumption
  · next h =>
    obtain ⟨w, hw⟩ := exists_layOut points.toList fill
    cases h.symm.trans hw

/-- The window of a sparse map of words; `none` if a value or the filling is no word. -/
def ofWords? (points : Sparse Int) (fill : Int) : Option (Window Int) :=
  if IsWord fill ∧ ∀ v ∈ points.values, IsWord v then some (of points fill) else none

end Window

end TapeNet
