import Std.Data.TreeMap

/-! # Points and headings

    The plane has integer coordinates; `x` grows to the east and `y` to the
    south.

    - Points are ordered by `x`, then by `y`.
    - A `Heading` is one of the four directions, with its unit `step` and
      the quarter turns `left` and `right`.
    - A `Sparse` map gives a value to finitely many points.
-/

namespace TapeNet

structure Point where
  x : Int
  y : Int
deriving DecidableEq, Repr, Inhabited

namespace Point

/-- The order by `x`, then by `y`. -/
def compare : Point → Point → Ordering :=
  compareLex (compareOn Point.x) (compareOn Point.y)

instance : Ord Point := ⟨Point.compare⟩

instance : Std.TransOrd Point :=
  inferInstanceAs (Std.TransCmp (compareLex (compareOn Point.x) (compareOn Point.y)))

instance : Std.LawfulEqOrd Point where
  eq_of_compare {p q} h := by
    have h' : (Ord.compare p.x q.x).then (Ord.compare p.y q.y) = .eq := h
    rw [Ordering.then_eq_eq, Std.compare_eq_iff_eq, Std.compare_eq_iff_eq] at h'
    cases p; cases q; simp_all

def origin : Point := ⟨0, 0⟩

instance : Add Point := ⟨fun p q => ⟨p.x + q.x, p.y + q.y⟩⟩

@[simp] theorem add_x (p q : Point) : (p + q).x = p.x + q.x := rfl

@[simp] theorem add_y (p q : Point) : (p + q).y = p.y + q.y := rfl

theorem add_assoc (p q r : Point) : p + q + r = p + (q + r) := by
  show (⟨p.x + q.x + r.x, p.y + q.y + r.y⟩ : Point) = ⟨p.x + (q.x + r.x), p.y + (q.y + r.y)⟩
  rw [Int.add_assoc, Int.add_assoc]

@[simp] theorem add_origin (p : Point) : p + origin = p := by
  show (⟨p.x + 0, p.y + 0⟩ : Point) = p
  rw [Int.add_zero, Int.add_zero]

@[simp] theorem origin_add (p : Point) : origin + p = p := by
  show (⟨0 + p.x, 0 + p.y⟩ : Point) = p
  rw [Int.zero_add, Int.zero_add]

theorem add_right_comm (p q r : Point) : p + q + r = p + r + q := by
  show (⟨p.x + q.x + r.x, p.y + q.y + r.y⟩ : Point) = ⟨p.x + r.x + q.x, p.y + r.y + q.y⟩
  rw [Int.add_right_comm, Int.add_right_comm p.y]

end Point

/-! ### Headings -/

inductive Heading
  | north
  | south
  | west
  | east
deriving DecidableEq, Repr

namespace Heading

/-- All headings, in the order in which neighbours are visited. -/
def all : List Heading := [north, south, west, east]

/-- The unit step in a direction. -/
def step : Heading → Point
  | north => ⟨0, -1⟩
  | south => ⟨0, 1⟩
  | west => ⟨-1, 0⟩
  | east => ⟨1, 0⟩

def left : Heading → Heading
  | north => west
  | west => south
  | south => east
  | east => north

def right : Heading → Heading
  | north => east
  | east => south
  | south => west
  | west => north

@[simp] theorem left_right (h : Heading) : h.left.right = h := by cases h <;> rfl

@[simp] theorem right_left (h : Heading) : h.right.left = h := by cases h <;> rfl

theorem mem_all (h : Heading) : h ∈ all := by cases h <;> decide

/-- The opposite direction. -/
def back (h : Heading) : Heading := h.left.left

theorem back_right (h : Heading) : h.right.back = h.left := congrArg left (right_left h)

theorem right_back (h : Heading) : h.back.right = h.left := left_right _

theorem right_right (h : Heading) : h.right.right = h.back := by cases h <;> rfl

/-- A step back undoes a step. -/
theorem add_step_back (p : Point) (h : Heading) : p + h.step + h.back.step = p := by
  rw [Point.add_assoc]
  have hstep : h.step + h.back.step = .origin := by cases h <;> rfl
  rw [hstep, Point.add_origin]

theorem step_ne (p : Point) (h : Heading) : p + h.step ≠ p := by
  intro heq
  have hx : p.x + h.step.x = p.x := congrArg Point.x heq
  have hy : p.y + h.step.y = p.y := congrArg Point.y heq
  cases h <;> simp only [step] at hx hy <;> omega

/-- Only the step back leads back. -/
theorem eq_back_of_step {p : Point} {g h : Heading} (heq : p + g.step + h.step = p) :
    h = g.back := by
  have hx := congrArg Point.x heq
  have hy := congrArg Point.y heq
  cases g <;> cases h <;> simp [step, back, left] at hx hy ⊢ <;> omega

end Heading

/-- The four points next to a point. -/
def Point.neighbours (p : Point) : List Point := Heading.all.map (p + ·.step)

theorem Point.mem_neighbours {p q : Point} :
    p ∈ q.neighbours ↔ ∃ h : Heading, q + h.step = p := by
  rw [neighbours, List.mem_map]
  constructor
  · rintro ⟨h, -, heq⟩
    exact ⟨h, heq⟩
  · rintro ⟨h, heq⟩
    exact ⟨h, h.mem_all, heq⟩

theorem Point.mem_neighbours_comm {p q : Point} : p ∈ q.neighbours ↔ q ∈ p.neighbours := by
  have hback {p q : Point} (hmem : p ∈ q.neighbours) : q ∈ p.neighbours := by
    obtain ⟨h, rfl⟩ := mem_neighbours.mp hmem
    exact mem_neighbours.mpr ⟨h.back, h.add_step_back q⟩
  exact ⟨hback, hback⟩

theorem Point.not_mem_neighbours (p : Point) : p ∉ p.neighbours := by
  intro hmem
  obtain ⟨h, heq⟩ := mem_neighbours.mp hmem
  exact h.step_ne p heq

/-! ### Sparse maps -/

/-- Values at finitely many points, in the order of the points. -/
abbrev Sparse (α : Type) := Std.TreeMap Point α

namespace Sparse

variable {α : Type}

/-- The sparse map of a list of entries, of which the last at a point counts. -/
def ofEntries (entries : List (Point × α)) : Sparse α :=
  .ofList entries

theorem getElem?_insert (t : Sparse α) (p q : Point) (v : α) :
    (t.insert p v)[q]? = if p = q then some v else t[q]? := by
  simp only [Std.TreeMap.getElem?_insert, Std.compare_eq_iff_eq]

theorem values_eq (t : Sparse α) : t.values = t.toList.map Prod.snd := by
  have hfoldr : t.values = t.foldr (fun _ v vs => v :: vs) [] := rfl
  rw [hfoldr, Std.TreeMap.foldr_eq_foldr_toList]
  induction t.toList with
  | nil => rfl
  | cons e es ih => rw [List.foldr_cons, ih, List.map_cons]

theorem mem_values {t : Sparse α} {v : α} : v ∈ t.values ↔ ∃ p : Point, t[p]? = some v := by
  rw [values_eq, List.mem_map]
  constructor
  · rintro ⟨⟨p, v⟩, hmem, rfl⟩
    exact ⟨p, Std.TreeMap.mem_toList_iff_getElem?_eq_some.mp hmem⟩
  · rintro ⟨p, hp⟩
    exact ⟨(p, v), Std.TreeMap.mem_toList_iff_getElem?_eq_some.mpr hp, rfl⟩

theorem length_values (t : Sparse α) : t.values.length = t.size := by
  rw [values_eq, List.length_map, Std.TreeMap.length_toList]

end Sparse

end TapeNet
