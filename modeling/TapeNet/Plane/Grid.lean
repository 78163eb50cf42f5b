import TapeNet.Plane.Point

/-! # Grids

    A grid is a rectangle of cells, row by row from the north; all its rows
    have the same width. Cells are looked up at integer positions, with
    nothing outside of the rectangle.

    - `get?_ofFn`: a grid made from a function holds the function's values.
    - `crossings`: the cells that are set along with all four neighbours.
    - `read` and `store` are for an index of a column and one of a row. An
      index below zero counts from the far end, and `OutOfBounds` is the
      refusal of one that there is no place for.
-/

namespace TapeNet

structure Grid (α : Type) where
  width : Nat
  rows : Array (Array α)
  size_row : ∀ row ∈ rows, row.size = width

namespace Grid

variable {α β : Type}

def height (g : Grid α) : Nat := g.rows.size

/-- The cell at a position; `none` outside. -/
def get? (g : Grid α) (p : Point) : Option α :=
  match p.x, p.y with
  | .ofNat x, .ofNat y => g.rows[y]?.bind (·[x]?)
  | _, _ => none

/-- The grid of a given size whose cells a function of column and row gives. -/
def ofFn (width height : Nat) (f : Nat → Nat → α) : Grid α where
  width := width
  rows := Array.ofFn fun y : Fin height => Array.ofFn fun x : Fin width => f x y
  size_row := by
    intro row h
    obtain ⟨y, rfl⟩ := Array.mem_ofFn.1 h
    simp

/-- The grid of a given size with the same value in all cells. -/
def full (width height : Nat) (v : α) : Grid α := ofFn width height fun _ _ => v

/-- The grid without rows. -/
def empty : Grid α := ⟨0, #[], by simp⟩

/-- The grid with the given rows; `none` if they differ in width. -/
def ofRows? (rows : List (List α)) : Option (Grid α) :=
  let width := (rows.head?.map List.length).getD 0
  if h : ∀ row ∈ rows, row.length = width then
    some ⟨width, (rows.map List.toArray).toArray, by
      intro row hrow
      simp only [List.mem_toArray, List.mem_map] at hrow
      obtain ⟨l, hl, rfl⟩ := hrow
      simpa using h l hl⟩
  else
    none

def toRows (g : Grid α) : List (List α) := (g.rows.map Array.toList).toList

def map (f : α → β) (g : Grid α) : Grid β where
  width := g.width
  rows := g.rows.map (·.map f)
  size_row := by
    intro row h
    obtain ⟨r, hr, rfl⟩ := Array.mem_map.1 h
    simpa using g.size_row r hr

/-- All positions, row by row. -/
def positions (g : Grid α) : List Point :=
  (List.range g.height).flatMap fun y : Nat =>
    (List.range g.width).map fun x : Nat => Point.mk x y

/-- Whether the cell at a position is set; no cell outside is. -/
def isSet (g : Grid Bool) (p : Point) : Bool := g.get? p == some true

/-- The positions of the cells that are set along with their four neighbours, row by row. -/
def crossings (g : Grid Bool) : List Point :=
  g.positions.filter fun p => g.isSet p && p.neighbours.all g.isSet

/-! ### Indices -/

/-- The refusal of an index: columns are on axis 1 and rows on axis 0. -/
structure OutOfBounds where
  index : Int
  axis : Nat
  size : Nat
deriving DecidableEq, Repr

def OutOfBounds.message (e : OutOfBounds) : String :=
  s!"index {e.index} is out of bounds for axis {e.axis} with size {e.size}"

/-- The place that an index stands for. -/
def place (axis size : Nat) (i : Int) : Except OutOfBounds (Fin size) :=
  if h : 0 ≤ i ∧ i < size then .ok ⟨i.toNat, by omega⟩
  else if h : -size ≤ i ∧ i < 0 then .ok ⟨(i + size).toNat, by omega⟩
  else .error ⟨i, axis, size⟩

/-- The cells of a row. -/
def row (g : Grid α) (y : Fin g.height) : Array α :=
  have h : (y : Nat) < g.rows.size := y.2
  g.rows[(y : Nat)]

@[simp] theorem size_row_eq (g : Grid α) (y : Fin g.height) : (g.row y).size = g.width :=
  g.size_row _ (Array.getElem_mem _)

/-- The cell in a column and a row. -/
def cell (g : Grid α) (x : Fin g.width) (y : Fin g.height) : α :=
  have h : (x : Nat) < (g.row y).size := by simp
  (g.row y)[(x : Nat)]

/-- The grid with another value in a column and a row. -/
def set (g : Grid α) (x : Fin g.width) (y : Fin g.height) (v : α) : Grid α where
  width := g.width
  rows := g.rows.modify y (·.setIfInBounds x v)
  size_row := by
    intro row h
    obtain ⟨j, hj, rfl⟩ := Array.mem_iff_getElem.mp h
    rw [Array.getElem_modify]
    split <;> simp [g.size_row _ (Array.getElem_mem _)]

/-- The value at a pair of indices. -/
def read (g : Grid α) (p : Point) : Except OutOfBounds α := do
  let y ← place 0 g.height p.y
  let x ← place 1 g.width p.x
  pure (g.cell x y)

/-- The grid with a value stored at a pair of indices. -/
def store (g : Grid α) (p : Point) (v : α) : Except OutOfBounds (Grid α) := do
  let y ← place 0 g.height p.y
  let x ← place 1 g.width p.x
  pure (g.set x y v)

/-! ### Lookup -/

@[simp] theorem width_ofFn (w h : Nat) (f : Nat → Nat → α) : (ofFn w h f).width = w := rfl

@[simp] theorem height_ofFn (w h : Nat) (f : Nat → Nat → α) : (ofFn w h f).height = h := by
  simp [ofFn, height]

theorem get?_ofFn (w h : Nat) (f : Nat → Nat → α) (x y : Nat) :
    (ofFn w h f).get? ⟨x, y⟩ = if x < w ∧ y < h then some (f x y) else none := by
  show ((ofFn w h f).rows[y]?.bind (·[x]?)) = _
  by_cases hy : y < h <;> by_cases hx : x < w <;> simp [ofFn, hx, hy]

theorem get?_map (f : α → β) (g : Grid α) (p : Point) : (g.map f).get? p = (g.get? p).map f := by
  obtain ⟨x, y⟩ := p
  cases x <;> cases y <;> simp [get?, map]
  next x y => cases g.rows[y]? <;> simp

theorem map_ofFn (w h : Nat) (f : Nat → Nat → α) (g : α → β) :
    (ofFn w h f).map g = ofFn w h fun x y => g (f x y) := by
  simp only [map, ofFn, Array.map_ofFn, Function.comp_def]

theorem toRows_map (f : α → β) (g : Grid α) : (g.map f).toRows = g.toRows.map (List.map f) := by
  simp [toRows, map]

theorem mem_positions {g : Grid α} {p : Point} :
    p ∈ g.positions ↔ 0 ≤ p.x ∧ p.x < g.width ∧ 0 ≤ p.y ∧ p.y < g.height := by
  obtain ⟨x, y⟩ := p
  simp only [positions, List.mem_flatMap, List.mem_range, List.mem_map, Point.mk.injEq]
  constructor
  · rintro ⟨j, hj, i, hi, rfl, rfl⟩
    omega
  · rintro ⟨hx0, hx, hy0, hy⟩
    exact ⟨y.toNat, by omega, x.toNat, by omega, by omega, by omega⟩

theorem get?_ofFn_eq_some_iff {w h : Nat} {f : Nat → Nat → α} {p : Point} {v : α} :
    (ofFn w h f).get? p = some v ↔ ∃ x y : Nat, p = ⟨x, y⟩ ∧ x < w ∧ y < h ∧ f x y = v := by
  constructor
  · intro hv
    obtain ⟨x | x, y | y⟩ := p
    · have hget := get?_ofFn w h f x y
      split at hget
      · next hxy => exact ⟨x, y, rfl, hxy.1, hxy.2, Option.some.inj (hget.symm.trans hv)⟩
      · cases hget.symm.trans hv
    all_goals cases hv
  · rintro ⟨x, y, rfl, hx, hy, rfl⟩
    rw [get?_ofFn, if_pos ⟨hx, hy⟩]

@[simp] theorem width_full (w h : Nat) (v : α) : (full w h v).width = w := rfl

@[simp] theorem height_full (w h : Nat) (v : α) : (full w h v).height = h := height_ofFn ..

theorem eq_of_get?_full {w h : Nat} {u v : α} {p : Point} (hp : (full w h v).get? p = some u) :
    u = v := by
  obtain ⟨x, y, -, -, -, rfl⟩ := get?_ofFn_eq_some_iff.mp hp
  rfl

theorem length_positions (g : Grid α) : g.positions.length = g.width * g.height := by
  simp [positions, List.length_flatMap, List.map_const', Nat.mul_comm]

/-- A grid has cells at its positions, and only there. -/
theorem isSome_get?_iff {g : Grid α} {p : Point} : (g.get? p).isSome ↔ p ∈ g.positions := by
  rw [mem_positions]
  obtain ⟨x | x, y | y⟩ := p
  · by_cases hy : y < g.rows.size
    · have hwidth : g.rows[y].size = g.width := g.size_row _ (Array.getElem_mem hy)
      simp [get?, height, hy, hwidth]
    · simp [get?, height, hy]
  all_goals simp [get?]

/-- The positions come row by row, and from west to east in each row. -/
theorem positions_pairwise (g : Grid α) :
    g.positions.Pairwise fun p q => p.y < q.y ∨ p.y = q.y ∧ p.x < q.x := by
  rw [positions, List.pairwise_flatMap]
  constructor
  · intro y _
    rw [List.pairwise_map]
    exact List.pairwise_lt_range.imp fun hlt => .inr ⟨rfl, Int.ofNat_lt.mpr hlt⟩
  · refine List.pairwise_lt_range.imp fun hlt p hp q hq => .inl ?_
    obtain ⟨_, -, rfl⟩ := List.mem_map.mp hp
    obtain ⟨_, -, rfl⟩ := List.mem_map.mp hq
    exact Int.ofNat_lt.mpr hlt

/-- Two grids of one size with the same cells are the same. -/
theorem ext_get? {g g' : Grid α} (hwidth : g.width = g'.width) (hheight : g.height = g'.height)
    (hget : ∀ x y : Nat, g.get? ⟨x, y⟩ = g'.get? ⟨x, y⟩) : g = g' := by
  obtain ⟨w, rows, hsize⟩ := g
  obtain ⟨w', rows', hsize'⟩ := g'
  obtain rfl : w = w' := hwidth
  have hrows : rows = rows' := by
    apply Array.ext hheight
    intro y hy hy'
    have hrow := hsize rows[y] (Array.getElem_mem hy)
    have hrow' := hsize' rows'[y] (Array.getElem_mem hy')
    apply Array.ext (hrow.trans hrow'.symm)
    intro x hx hx'
    have hcell : rows[y]?.bind (·[x]?) = rows'[y]?.bind (·[x]?) := hget x y
    simpa [hy, hy', hx, hx'] using hcell
  subst hrows
  rfl

/-- What is in some row is at some position. -/
theorem mem_flatten_rows {g : Grid α} {v : α} :
    v ∈ g.rows.flatten ↔ ∃ p, g.get? p = some v := by
  rw [Array.mem_flatten]
  simp only [Array.mem_iff_getElem?]
  constructor
  · rintro ⟨row, ⟨y, hy⟩, x, hx⟩
    refine ⟨⟨x, y⟩, ?_⟩
    show g.rows[y]?.bind (·[x]?) = some v
    rw [hy]
    exact hx
  · rintro ⟨⟨x | x, y | y⟩, hp⟩
    · have hbind : g.rows[y]?.bind (·[x]?) = some v := hp
      obtain ⟨row, hy, hx⟩ := Option.bind_eq_some_iff.mp hbind
      exact ⟨row, ⟨y, hy⟩, x, hx⟩
    all_goals cases hp

/-! ### Reading and storing -/

theorem place_natCast (axis : Nat) {size i : Nat} (h : i < size) :
    place axis size i = .ok ⟨i, h⟩ := by
  rw [place, dif_pos ⟨Int.natCast_nonneg i, Int.ofNat_lt.mpr h⟩]
  rfl

theorem getElem?_rows (g : Grid α) (y : Fin g.height) : g.rows[(y : Nat)]? = some (g.row y) :=
  Array.getElem?_eq_getElem y.2

theorem get?_cell (g : Grid α) (x : Fin g.width) (y : Fin g.height) :
    g.get? ⟨(x : Nat), (y : Nat)⟩ = some (g.cell x y) := by
  show g.rows[(y : Nat)]?.bind (·[(x : Nat)]?) = _
  rw [getElem?_rows]
  exact Array.getElem?_eq_getElem _

theorem get?_set (g : Grid α) (x : Fin g.width) (y : Fin g.height) (v : α) (p : Point) :
    (g.set x y v).get? p = if p = ⟨(x : Nat), (y : Nat)⟩ then some v else g.get? p := by
  obtain ⟨i | i, j | j⟩ := p
  · show (g.rows.modify y (·.setIfInBounds x v))[j]?.bind (·[i]?) = _
    rw [Array.getElem?_modify]
    by_cases hj : (y : Nat) = j
    · subst hj
      by_cases hi : (x : Nat) = i
      · subst hi
        simp [getElem?_rows]
      · have hne : (i : Int) ≠ (x : Nat) := by omega
        simp [getElem?_rows, get?, hi, hne]
    · have hne : (j : Int) ≠ (y : Nat) := by omega
      simp [get?, hj, hne]
  all_goals
    rw [if_neg]
    · rfl
    · intro h
      cases h

theorem exists_of_mem_positions {g : Grid α} {p : Point} (h : p ∈ g.positions) :
    ∃ (x : Fin g.width) (y : Fin g.height), p = ⟨(x : Nat), (y : Nat)⟩ := by
  obtain ⟨x, y⟩ := p
  obtain ⟨hx0, hx, hy0, hy⟩ := mem_positions.mp h
  simp only at hx0 hx hy0 hy
  refine ⟨⟨x.toNat, by omega⟩, ⟨y.toNat, by omega⟩, ?_⟩
  rw [Int.toNat_of_nonneg hx0, Int.toNat_of_nonneg hy0]

/-- At a position of a grid, reading is looking up. -/
theorem read_eq_ok {g : Grid α} {p : Point} {v : α} (h : g.get? p = some v) :
    g.read p = .ok v := by
  obtain ⟨x, y, rfl⟩ := exists_of_mem_positions (isSome_get?_iff.mp (by rw [h]; rfl))
  rw [get?_cell] at h
  rw [read, place_natCast 0 y.2, place_natCast 1 x.2, ← Option.some.inj h]
  rfl

/-- What is stored at a position of a grid is there, and all other cells are as before. -/
theorem exists_store {g : Grid α} {p : Point} (h : p ∈ g.positions) (v : α) :
    ∃ g', g.store p v = .ok g' ∧ g'.width = g.width ∧ g'.height = g.height ∧
      ∀ q, g'.get? q = if q = p then some v else g.get? q := by
  obtain ⟨x, y, rfl⟩ := exists_of_mem_positions h
  refine ⟨g.set x y v, ?_, rfl, ?_, g.get?_set x y v⟩
  · rw [store, place_natCast 0 y.2, place_natCast 1 x.2]
    rfl
  · simp [height, set]

end Grid

end TapeNet
