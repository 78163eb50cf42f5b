import TapeNet.Plane.Picture

/-! # Reading pictures

    The rows of a picture may differ in length. What is at a position of
    them is told by `entryAt`, which also knows the positions where there is
    nothing; a grid made of them shows the same entries, and its padding
    where there are none.

    - `longest_le_iff`: the width of a grid made of rows.
    - `get?_padded`: its cells; `isSet_map_padded` is for a mark that the
      padding does not have.
    - `Legend.read_of_knows`: a legend that knows all characters reads each
      as what it means.
-/

namespace TapeNet

/-! ### Entries of rows -/

section

variable {α β : Type} {rows : List (List α)} {row : List α} {p : Point} {n : Nat}

/-- What is at a position of some rows; nothing is outside of them. -/
def entryAt (rows : List (List α)) (p : Point) : Option α :=
  match p.x, p.y with
  | .ofNat x, .ofNat y => rows[y]?.bind (·[x]?)
  | _, _ => none

theorem entryAt_map (f : α → β) (rows : List (List α)) (p : Point) :
    entryAt (rows.map (List.map f)) p = (entryAt rows p).map f := by
  obtain ⟨x | x, y | y⟩ := p
  · show (rows.map (List.map f))[y]?.bind (·[x]?) = (rows[y]?.bind (·[x]?)).map f
    rw [List.getElem?_map]
    cases rows[y]? with
    | none => rfl
    | some row => exact List.getElem?_map
  all_goals rfl

theorem entryAt_eq_some_iff {v : α} :
    entryAt rows p = some v ↔ ∃ (x y : Nat) (row : List α), p = ⟨x, y⟩ ∧ rows[y]? = some row ∧
      row[x]? = some v := by
  constructor
  · intro h
    obtain ⟨x | x, y | y⟩ := p
    · obtain ⟨row, hrow, hv⟩ := Option.bind_eq_some_iff.mp h
      exact ⟨x, y, row, rfl, hrow, hv⟩
    all_goals cases h
  · intro ⟨x, y, row, hp, hrow, hv⟩
    rw [hp]
    exact Option.bind_eq_some_iff.mpr ⟨row, hrow, hv⟩

theorem exists_of_entryAt {v : α} (h : entryAt rows p = some v) : ∃ row ∈ rows, v ∈ row := by
  obtain ⟨x, y, row, -, hrow, hv⟩ := entryAt_eq_some_iff.mp h
  exact ⟨row, List.mem_of_getElem? hrow, List.mem_of_getElem? hv⟩

/-- The longest row is the least length that no row exceeds. -/
theorem longest_le_iff : longest rows ≤ n ↔ ∀ row ∈ rows, row.length ≤ n := by
  have hfrom (k : Nat) : rows.foldl (fun n row => max n row.length) k ≤ n ↔
      k ≤ n ∧ ∀ row ∈ rows, row.length ≤ n := by
    induction rows generalizing k with
    | nil => simp
    | cons row rows ih => rw [List.foldl_cons, ih, Nat.max_le, List.forall_mem_cons, and_assoc]
  rw [longest, hfrom]
  exact and_iff_right (Nat.zero_le n)

/-- A position where there is an entry is inside of a grid that is as wide as the longest row. -/
theorem bounds_of_entryAt {x y : Nat} {v : α} (h : entryAt rows ⟨x, y⟩ = some v) :
    x < longest rows ∧ y < rows.length := by
  obtain ⟨row, hrow, hv⟩ := Option.bind_eq_some_iff.mp h
  obtain ⟨hx, -⟩ := List.getElem?_eq_some_iff.mp hv
  obtain ⟨hy, -⟩ := List.getElem?_eq_some_iff.mp hrow
  have hlength := longest_le_iff.mp (Nat.le_refl _) row (List.mem_of_getElem? hrow)
  exact ⟨Nat.lt_of_lt_of_le hx hlength, hy⟩

/-! ### Padded rows -/

/-- A grid of padded rows has their entries, and its padding at the other positions inside. -/
theorem get?_padded (padding : α) (rows : List (List α)) (x y : Nat) :
    (Grid.padded padding rows).get? ⟨x, y⟩ =
      if x < longest rows ∧ y < rows.length then some ((entryAt rows ⟨x, y⟩).getD padding)
      else none := by
  have hcells : ((rows.map List.toArray).toArray[y]?.bind (·[x]?)) = entryAt rows ⟨x, y⟩ := by
    show _ = rows[y]?.bind (·[x]?)
    rw [List.getElem?_toArray, List.getElem?_map]
    cases rows[y]? with
    | none => rfl
    | some row => exact List.getElem?_toArray
  rw [Grid.padded, Grid.get?_ofFn, hcells, List.size_toArray, List.length_map]

/-- If the padding has no mark, the marked cells are the marked entries. -/
theorem isSet_map_padded {mark : α → Bool} {padding : α} (hpadding : mark padding = false) :
    ((Grid.padded padding rows).map mark).isSet p ↔ ∃ v, entryAt rows p = some v ∧ mark v := by
  rw [Grid.isSet, Grid.get?_map, beq_iff_eq, Option.map_eq_some_iff]
  constructor
  · rintro ⟨v, hget, hmark⟩
    obtain ⟨x, y, rfl, -⟩ := Grid.get?_ofFn_eq_some_iff.mp hget
    rw [get?_padded] at hget
    split at hget
    · cases hentry : entryAt rows ⟨x, y⟩ with
      | none =>
        -- the cell is padding
        rw [hentry] at hget
        cases hget
        cases hpadding.symm.trans hmark
      | some w =>
        rw [hentry] at hget
        cases hget
        exact ⟨w, rfl, hmark⟩
    · cases hget
  · rintro ⟨v, hentry, hmark⟩
    obtain ⟨x | x, y | y⟩ := p
    · have hget := (get?_padded padding rows x y).trans (if_pos (bounds_of_entryAt hentry))
      have hv : (entryAt rows ⟨x, y⟩).getD padding = v := congrArg (Option.getD · padding) hentry
      rw [hv] at hget
      exact ⟨v, hget, hmark⟩
    all_goals cases hentry

end

/-! ### Legends -/

namespace Legend

variable {l : Legend} {text row : List Nat} {rows : List (List Nat)} {padding : Int}

/-- A character that stands for a word. -/
def Knows (l : Legend) (c : Nat) : Prop := ∃ v, l.value? [c] = some v ∧ IsWord v

/-- What a character stands for. -/
def meaning (l : Legend) (c : Nat) : Int := (l.value? [c]).getD 0

theorem cell_of_knows {c : Nat} (h : l.Knows c) (x y : Nat) : l.cell c x y = .ok (l.meaning c) := by
  obtain ⟨v, hvalue, hword⟩ := h
  rw [cell, meaning, hvalue]
  exact if_pos hword

theorem cellsFrom_of_knows (h : ∀ c ∈ row, l.Knows c) (x y : Nat) :
    l.cellsFrom x y row = .ok (row.map l.meaning) := by
  induction row generalizing x with
  | nil => rfl
  | cons c row ih =>
    obtain ⟨hc, hrow⟩ := List.forall_mem_cons.mp h
    rw [cellsFrom, cell_of_knows hc, ih hrow]
    rfl

theorem rowsFrom_of_knows (h : ∀ row ∈ rows, ∀ c ∈ row, l.Knows c) (y : Nat) :
    l.rowsFrom y rows = .ok (rows.map (List.map l.meaning)) := by
  induction rows generalizing y with
  | nil => rfl
  | cons row rows ih =>
    obtain ⟨hrow, hrows⟩ := List.forall_mem_cons.mp h
    rw [rowsFrom, cellsFrom_of_knows hrow, ih hrows]
    rfl

/-- A legend that knows all characters of the rows reads a picture as what they mean. -/
theorem read_of_knows (hpadding : l.padding? = some padding) (hword : IsWord padding)
    (h : ∀ row ∈ pictureRows text, ∀ c ∈ row, l.Knows c) :
    l.read text = .ok (.padded padding ((pictureRows text).map (List.map l.meaning))) := by
  rw [read]
  split
  · next hrows =>
    rw [hrows]
    rfl
  · rw [hpadding]
    simp only
    rw [if_pos hword, rowsFrom_of_knows h]
    rfl

end Legend

end TapeNet
