import Mathlib.Data.List.Nodup
import Mathlib.Data.List.Perm.Basic
import TapeNet.Plane.Window

/-! # What a window shows

    A window shows the plane, moved so that no position is negative. Beside
    the values of its map there is only filling.

    - `Box.Tight`: on each side of the box of some points there is one of
      them, or the origin.
    - `Window.gather` looks each cell up in the map. Entries that are laid out
      give the same window, in whatever order they come
      (`layOut_eq_gather`).
    - `Window.get?_of_eq_some_iff`: what is seen at a point of the plane, and
      that nothing is outside of the box.
    - `Window.get?_of_eq_some_iff_of_ne`: what is seen and is no filling is in
      the map.
    - `Window.Frames`: a window that shows some points, and has one of them in
      each of its outer rows and columns. No window that shows these points is
      smaller (`Frames.le`), and the window of a map frames the map's points
      and the origin (`faithful_least_window`).
-/

namespace TapeNet

theorem Point.eq_of_add_eq {p q r : Point} (h : p + r = q + r) : p = q := by
  obtain ⟨px, py⟩ := p
  obtain ⟨qx, qy⟩ := q
  obtain ⟨hx, hy⟩ : px + r.x = qx + r.x ∧ py + r.y = qy + r.y := Point.mk.inj h
  rw [(Int.add_left_inj r.x).mp hx, (Int.add_left_inj r.y).mp hy]

namespace Box

variable {b : Box} {p q : Point} {points seen : List Point}

/-- The order of the points does not matter. -/
theorem of_perm {others : List Point} (h : points.Perm others) : of points = of others := by
  have hcomm : RightCommutative cover := by
    constructor
    intro b p q
    simp only [cover, mk.injEq]
    omega
  exact h.foldl_eq unit

/-- Each of the four sides of a box has one of the points on it. -/
structure Tight (b : Box) (points : List Point) : Prop where
  west : ∃ p ∈ points, p.x = b.west
  east : ∃ p ∈ points, p.x = b.east
  north : ∃ p ∈ points, p.y = b.north
  south : ∃ p ∈ points, p.y = b.south

/-- A coordinate that some point has is pushed down by one more point only as far as that point. -/
theorem exists_eq_min {f : Point → Int} {m : Int} (h : ∃ q ∈ seen, f q = m) (p : Point) :
    ∃ q ∈ seen ++ [p], f q = min m (f p) := by
  obtain ⟨q, hq, rfl⟩ := h
  by_cases hle : f q ≤ f p
  · exact ⟨q, List.mem_append_left _ hq, (Int.min_eq_left hle).symm⟩
  · exact ⟨p, List.mem_append_right _ (List.mem_singleton_self p),
      (Int.min_eq_right (Int.le_of_not_le hle)).symm⟩

theorem exists_eq_max {f : Point → Int} {m : Int} (h : ∃ q ∈ seen, f q = m) (p : Point) :
    ∃ q ∈ seen ++ [p], f q = max m (f p) := by
  obtain ⟨q, hq, rfl⟩ := h
  by_cases hle : f q ≤ f p
  · exact ⟨p, List.mem_append_right _ (List.mem_singleton_self p), (Int.max_eq_right hle).symm⟩
  · exact ⟨q, List.mem_append_left _ hq, (Int.max_eq_left (Int.le_of_not_le hle)).symm⟩

theorem Tight.cover (h : b.Tight seen) (p : Point) : (b.cover p).Tight (seen ++ [p]) where
  west := exists_eq_min h.west p
  east := exists_eq_max h.east p
  north := exists_eq_min h.north p
  south := exists_eq_max h.south p

theorem Tight.foldl (h : b.Tight seen) : (points.foldl Box.cover b).Tight (seen ++ points) := by
  induction points generalizing b seen with
  | nil =>
    rw [List.append_nil]
    exact h
  | cons p points ih =>
    rw [List.append_cons]
    exact ih (h.cover p)

theorem tight_of : (Box.of points).Tight (.origin :: points) := by
  have hunit : unit.Tight [.origin] := by
    constructor <;> exact ⟨.origin, List.mem_singleton_self _, rfl⟩
  exact hunit.foldl

end Box

namespace Window

variable {α : Type} {points : Sparse α} {fill v : α} {p : Point} {w : Window α}

/-! ### Laid out and looked up -/

/-- The window whose cells are looked up in the map. -/
def gather (points : Sparse α) (fill : α) : Window α :=
  let box := Box.of points.keys
  { grid := .ofFn box.width box.height fun x y =>
      points.getD ⟨x + box.west, y + box.north⟩ fill
    corner := ⟨-box.west, -box.north⟩ }

variable {entries : List (Point × α)}

theorem lastAt_eq_some_iff (h : (entries.map Prod.fst).Nodup) :
    lastAt entries p = some v ↔ (p, v) ∈ entries := by
  rw [lastAt, Option.map_eq_some_iff]
  constructor
  · intro h'
    obtain ⟨entry, hfind, hv⟩ := h'
    have hkey := List.find?_some hfind
    have hmem := List.mem_reverse.mp (List.mem_of_find?_eq_some hfind)
    simp only [decide_eq_true_eq] at hkey
    rwa [← hkey, ← hv]
  · intro hmem
    have hsome : (entries.reverse.find? (·.1 = p)).isSome := by
      rw [List.find?_isSome]
      exact ⟨(p, v), List.mem_reverse.mpr hmem, by simp⟩
    obtain ⟨entry, hfind⟩ := Option.isSome_iff_exists.mp hsome
    have hkey := List.find?_some hfind
    have hentry := List.mem_reverse.mp (List.mem_of_find?_eq_some hfind)
    simp only [decide_eq_true_eq] at hkey
    -- there is only one entry for the point
    have hsame : entry = (p, v) := List.inj_on_of_nodup_map h hentry hmem hkey
    exact ⟨entry, hfind, by rw [hsame]⟩

/-- The entries of a map, in any order. -/
theorem lastAt_of_perm (h : entries.Perm points.toList) (p : Point) :
    lastAt entries p = points[p]? := by
  have hnodup : (entries.map Prod.fst).Nodup := by
    rw [(h.map Prod.fst).nodup_iff, Std.TreeMap.map_fst_toList_eq_keys]
    exact Std.TreeMap.nodup_keys
  apply Option.ext
  intro v
  rw [lastAt_eq_some_iff hnodup, h.mem_iff, Std.TreeMap.mem_toList_iff_getElem?_eq_some]

theorem holds_of_getElem? (h : points[p]? = some v) : (Box.of points.keys).Holds p := by
  apply Box.holds_of_mem
  rw [Std.TreeMap.mem_keys, Std.TreeMap.mem_iff_isSome_getElem?, h]
  rfl

/-- A grid over the box of a map that holds the map's values and else the filling is its window. -/
theorem eq_gather_grid {g : Grid α} (hwidth : g.width = (Box.of points.keys).width)
    (hheight : g.height = (Box.of points.keys).height)
    (hget : ∀ p, g.get? ((Box.of points.keys).index p) =
      points[p]?.or ((Grid.full (Box.of points.keys).width (Box.of points.keys).height fill).get?
        ((Box.of points.keys).index p))) : g = (gather points fill).grid := by
  apply Grid.ext_get?
  · rw [hwidth, gather, Grid.width_ofFn]
  · rw [hheight, gather, Grid.height_ofFn]
  · intro x y
    rw [gather, Grid.get?_ofFn]
    have hholds (v : α)
        (hv : points[(⟨x + (Box.of points.keys).west,
          y + (Box.of points.keys).north⟩ : Point)]? = some v) :=
      holds_of_getElem? hv
    generalize Box.of points.keys = box at *
    have hindex : box.index ⟨x + box.west, y + box.north⟩ = ⟨x, y⟩ := by simp [Box.index]
    rw [← hindex, hget, hindex, Grid.full, Grid.get?_ofFn, Std.TreeMap.getD_eq_getD_getElem?]
    cases hv : points[(⟨x + box.west, y + box.north⟩ : Point)]? with
    | none => rfl
    | some v =>
      -- a point with a value has its place inside
      have hinside := hholds v hv
      simp only [Box.Holds] at hinside
      have hbounds : x < box.width ∧ y < box.height := by
        simp only [Box.width, Box.height]
        omega
      simp [hbounds]

/-- Entries are laid out as they are looked up, each at a place of its own. -/
theorem layOut_eq_gather (h : entries.Perm points.toList) (fill : α) :
    layOut entries fill = .ok (gather points fill) := by
  have hbox : Box.of (entries.map Prod.fst) = Box.of points.keys := by
    rw [← Std.TreeMap.map_fst_toList_eq_keys]
    exact Box.of_perm (h.map Prod.fst)
  have hholds : ∀ entry ∈ entries, (Box.of (entries.map Prod.fst)).Holds entry.1 :=
    fun entry hentry => Box.holds_of_mem (List.mem_map_of_mem hentry)
  obtain ⟨g, hfold, hwidth, hheight, hget⟩ := exists_storeAll entries
    (Grid.width_full _ _ fill) (Grid.height_full ..) hholds
  simp only [hbox, lastAt_of_perm h] at hfold hwidth hheight hget
  rw [layOut, hbox]
  simp only [hfold, eq_gather_grid hwidth hheight hget]
  rfl

theorem of_eq_gather (points : Sparse α) (fill : α) : of points fill = gather points fill := by
  have h := layOut_eq_gather (List.Perm.refl points.toList) fill
  rw [layOut_toList] at h
  exact Except.ok.inj h

theorem of_map {β : Type} (f : α → β) (points : Sparse α) (fill : α) :
    of (points.map fun _ v => f v) (f fill) =
      ⟨(of points fill).grid.map f, (of points fill).corner⟩ := by
  simp only [of_eq_gather, gather, Std.TreeMap.keys_map, Std.TreeMap.getD_eq_getD_getElem?,
    Std.TreeMap.getElem?_map, Option.getD_map, Grid.map_ofFn]

/-! ### What is seen -/

theorem get?_of_eq_some_iff :
    (of points fill).grid.get? (p + (of points fill).corner) = some v ↔
      (Box.of points.keys).Holds p ∧ points.getD p fill = v := by
  obtain ⟨px, py⟩ := p
  simp only [of_eq_gather, gather, Grid.get?_ofFn_eq_some_iff, Box.width, Box.height, Box.Holds]
  generalize Box.of points.keys = box
  constructor
  · rintro ⟨x, y, heq, hx, hy, hv⟩
    have hpx : px + -box.west = x := congrArg Point.x heq
    have hpy : py + -box.north = y := congrArg Point.y heq
    obtain rfl : px = x + box.west := by omega
    obtain rfl : py = y + box.north := by omega
    exact ⟨⟨⟨by omega, by omega⟩, by omega, by omega⟩, hv⟩
  · rintro ⟨⟨⟨hwest, heast⟩, hnorth, hsouth⟩, hv⟩
    obtain ⟨x, rfl⟩ : ∃ x : Nat, px = x + box.west := ⟨(px - box.west).toNat, by omega⟩
    obtain ⟨y, rfl⟩ : ∃ y : Nat, py = y + box.north := ⟨(py - box.north).toNat, by omega⟩
    refine ⟨x, y, ?_, by omega, by omega, hv⟩
    show (⟨x + box.west + -box.west, y + box.north + -box.north⟩ : Point) = ⟨x, y⟩
    rw [Int.add_neg_cancel_right, Int.add_neg_cancel_right]

theorem get?_of_eq_some_iff_of_ne (hv : v ≠ fill) :
    (of points fill).grid.get? (p + (of points fill).corner) = some v ↔ points[p]? = some v := by
  rw [get?_of_eq_some_iff, Std.TreeMap.getD_eq_getD_getElem?]
  constructor
  · rintro ⟨-, hget⟩
    cases hp : points[p]? with
    | none =>
      rw [hp, Option.getD_none] at hget
      exact absurd hget.symm hv
    | some w => rw [← hget, hp, Option.getD_some]
  · intro hp
    -- a point with a value is in the box, or there would be nothing to see
    refine ⟨holds_of_getElem? hp, ?_⟩
    rw [hp, Option.getD_some]

/-! ### Least windows -/

/-- Whether a point has a place in a window: its column and its row are there. -/
def Shows (w : Window α) (p : Point) : Prop :=
  (0 ≤ (p + w.corner).x ∧ (p + w.corner).x < w.grid.width) ∧
    0 ≤ (p + w.corner).y ∧ (p + w.corner).y < w.grid.height

/-- A window shows some points, and has one of them in each of its outer rows and columns. -/
structure Frames (w : Window α) (shape : Point → Prop) : Prop where
  shows : ∀ p, shape p → w.Shows p
  west : ∃ p, shape p ∧ (p + w.corner).x = 0
  east : ∃ p, shape p ∧ (p + w.corner).x + 1 = w.grid.width
  north : ∃ p, shape p ∧ (p + w.corner).y = 0
  south : ∃ p, shape p ∧ (p + w.corner).y + 1 = w.grid.height

/-- No window that shows the same points is smaller. -/
theorem Frames.le {shape : Point → Prop} (h : w.Frames shape) {w' : Window α}
    (h' : ∀ p, shape p → w'.Shows p) :
    w.grid.width ≤ w'.grid.width ∧ w.grid.height ≤ w'.grid.height := by
  obtain ⟨pw, hpw, hwest⟩ := h.west
  obtain ⟨pe, hpe, heast⟩ := h.east
  obtain ⟨pn, hpn, hnorth⟩ := h.north
  obtain ⟨ps, hps, hsouth⟩ := h.south
  -- the points in the outer rows and columns are as far apart in the other window
  obtain ⟨⟨hwest', -⟩, -⟩ := h' pw hpw
  obtain ⟨⟨-, heast'⟩, -⟩ := h' pe hpe
  obtain ⟨-, hnorth', -⟩ := h' pn hpn
  obtain ⟨-, -, hsouth'⟩ := h' ps hps
  simp only [Point.add_x, Point.add_y] at *
  omega

theorem shows_of_iff : (of points fill).Shows p ↔ (Box.of points.keys).Holds p := by
  simp only [Shows, of_eq_gather, gather, Grid.width_ofFn, Grid.height_ofFn, Box.width, Box.height,
    Box.Holds, Point.add_x, Point.add_y]
  omega

/-- The window of a map frames the points of the map and the origin. -/
theorem frames_of : (of points fill).Frames fun p => p ∈ points ∨ p = .origin := by
  have htight : (Box.of points.keys).Tight (.origin :: points.keys) := Box.tight_of
  have hmem {p : Point} (hp : p ∈ Point.origin :: points.keys) : p ∈ points ∨ p = .origin := by
    apply (List.mem_cons.mp hp).symm.imp_left
    exact Std.TreeMap.mem_keys.mp
  have hholds : (Box.of points.keys).Holds .origin := Box.holds_origin
  obtain ⟨⟨hwest, heast⟩, hnorth, hsouth⟩ := hholds
  constructor
  case shows =>
    intro p hp
    apply shows_of_iff.mpr
    obtain hp | rfl := hp
    · exact Box.holds_of_mem (Std.TreeMap.mem_keys.mpr hp)
    · exact Box.holds_origin
  case west =>
    obtain ⟨p, hp, hx⟩ := htight.west
    refine ⟨p, hmem hp, ?_⟩
    simp only [of_eq_gather, gather, Point.add_x]
    omega
  case east =>
    obtain ⟨p, hp, hx⟩ := htight.east
    refine ⟨p, hmem hp, ?_⟩
    simp only [of_eq_gather, gather, Point.add_x, Grid.width_ofFn, Box.width]
    omega
  case north =>
    obtain ⟨p, hp, hy⟩ := htight.north
    refine ⟨p, hmem hp, ?_⟩
    simp only [of_eq_gather, gather, Point.add_y]
    omega
  case south =>
    obtain ⟨p, hp, hy⟩ := htight.south
    refine ⟨p, hmem hp, ?_⟩
    simp only [of_eq_gather, gather, Point.add_y, Grid.height_ofFn, Box.height]
    omega

/-- A map of words, with a word for a filling, has a window: the entries can be laid out in any
    order, each at indices that are its point moved by the corner. The window is a least one that
    shows all points of the map and the origin. At every point that it shows there is the map's value
    or else the filling, and no two points share a place. -/
theorem faithful_least_window {points : Sparse Int} {fill : Int} (hfill : IsWord fill)
    (hvalues : ∀ (p : Point) (v : Int), points[p]? = some v → IsWord v) :
    ∃ w, ofWords? points fill = some w ∧
      (∀ entries : List (Point × Int), entries.Perm points.toList →
        layOut entries fill = .ok w) ∧
      (∀ p, (Box.of points.keys).index p = p + w.corner) ∧
      (w.Frames fun p => p ∈ points ∨ p = .origin) ∧
      (∀ w' : Window Int, (∀ p, p ∈ points ∨ p = .origin → w'.Shows p) →
        w.grid.width ≤ w'.grid.width ∧ w.grid.height ≤ w'.grid.height) ∧
      (∀ p, w.Shows p → w.grid.get? (p + w.corner) = some (points[p]?.getD fill)) ∧
      ∀ p q, p + w.corner = q + w.corner → p = q := by
  refine ⟨of points fill, ?_, ?_, ?_, frames_of, fun w' => frames_of.le, ?_, ?_⟩
  · apply if_pos
    refine ⟨hfill, ?_⟩
    intro v hv
    obtain ⟨p, hp⟩ := Sparse.mem_values.mp hv
    exact hvalues p v hp
  · intro entries hentries
    rw [of_eq_gather]
    exact layOut_eq_gather hentries fill
  · intro p
    rw [of_eq_gather]
    rfl
  · intro p hp
    apply get?_of_eq_some_iff.mpr
    exact ⟨shows_of_iff.mp hp, Std.TreeMap.getD_eq_getD_getElem?⟩
  · intro p q heq
    exact Point.eq_of_add_eq heq

/-- One point to the south-west of the origin and one to the north-east. -/
def slanted : Sparse Int := .ofEntries [(⟨-2, 3⟩, 5), (⟨1, -1⟩, 7)]

/-- The origin is at (2, 1) in the window, and shows the filling. -/
theorem slanted_window :
    IsWord (-9) ∧ (∀ (p : Point) (v : Int), slanted[p]? = some v → IsWord v) ∧
      ∃ w, ofWords? slanted (-9) = some w ∧
        layOut [(⟨1, -1⟩, 7), (⟨-2, 3⟩, 5)] (-9) = .ok w ∧
        (w.Frames fun p => p ∈ slanted ∨ p = .origin) ∧
        w.corner = ⟨2, 1⟩ ∧ w.grid.toRows =
          [[-9, -9, -9, 7], [-9, -9, -9, -9], [-9, -9, -9, -9], [-9, -9, -9, -9],
            [5, -9, -9, -9]] := by
  have hfill : IsWord (-9) := by decide
  have hvalues (p : Point) (v : Int) (hp : slanted[p]? = some v) : IsWord v := by
    have hall : ∀ w ∈ slanted.values, IsWord w := by decide +kernel
    exact hall v (Sparse.mem_values.mpr ⟨p, hp⟩)
  have hentries : slanted.toList = [(⟨-2, 3⟩, 5), (⟨1, -1⟩, 7)] := by decide +kernel
  have hlayout : (ofWords? slanted (-9)).map (fun w => (w.corner, w.grid.toRows)) =
      some (⟨2, 1⟩, [[-9, -9, -9, 7], [-9, -9, -9, -9], [-9, -9, -9, -9], [-9, -9, -9, -9],
        [5, -9, -9, -9]]) := by decide +kernel
  obtain ⟨w, hw, hlaid, -, hframes, -⟩ := faithful_least_window hfill hvalues
  have hswapped := hlaid [(⟨1, -1⟩, 7), (⟨-2, 3⟩, 5)] (by rw [hentries]; exact .swap ..)
  rw [hw] at hlayout
  obtain ⟨hcorner, hrows⟩ := Prod.mk.inj (Option.some.inj hlayout)
  exact ⟨hfill, hvalues, w, hw, hswapped, hframes, hcorner, hrows⟩

end Window

end TapeNet
