import TapeNet.Proofs.Plane.ExactReading

/-! # Reading back what was drawn

    A grid that is drawn with a palette is read back with the legend that
    turns the palette around.

    - `Grid.padded_toRows`: the rows of a grid, padded or not, are the grid
      again.
    - `pictureRows_intercalate`: rows without blank characters, put under
      each other, are the rows of that picture.
    - `Palette.Legible`: the palette has a visible character for each value
      of the grid, and no text for two values.
    - `read_back`: then nothing is lost, provided that the legend can pad with
      its first value. A palette that begins with something else than a word
      makes a legend that reads nothing (`not_all_read_back`).
-/

namespace TapeNet

open Text (codes isBlank isBreak)

/-! ### Grids and their rows -/

namespace Grid

variable {α : Type} {g : Grid α} {row : List α} {v : α}

theorem length_toRows (g : Grid α) : g.toRows.length = g.height := by
  simp [toRows, height]

theorem toRows_ne_nil (h : 0 < g.height) : g.toRows ≠ [] := by
  intro hnil
  rw [← length_toRows, hnil] at h
  exact Nat.lt_irrefl 0 h

theorem length_of_mem_toRows (h : row ∈ g.toRows) : row.length = g.width := by
  simp only [toRows, Array.toList_map, List.mem_map, Array.mem_toList_iff] at h
  obtain ⟨r, hr, rfl⟩ := h
  exact g.size_row r hr

theorem entryAt_toRows (g : Grid α) (p : Point) : entryAt g.toRows p = g.get? p := by
  obtain ⟨x | x, y | y⟩ := p
  · show g.toRows[y]?.bind (·[x]?) = g.rows[y]?.bind (·[x]?)
    simp only [toRows, Array.toList_map, List.getElem?_map, Array.getElem?_toList]
    cases g.rows[y]? <;> simp
  all_goals rfl

theorem exists_get?_of_mem_toRows (hrow : row ∈ g.toRows) (hv : v ∈ row) :
    ∃ p, g.get? p = some v := by
  obtain ⟨y, hy⟩ := List.mem_iff_getElem?.mp hrow
  obtain ⟨x, hx⟩ := List.mem_iff_getElem?.mp hv
  refine ⟨⟨x, y⟩, ?_⟩
  rw [← entryAt_toRows]
  exact entryAt_eq_some_iff.mpr ⟨x, y, row, rfl, hy, hx⟩

/-- A grid that has rows is the grid of its rows; there is nothing to pad. -/
theorem padded_toRows (h : 0 < g.height) (padding : α) : Grid.padded padding g.toRows = g := by
  obtain ⟨row, hrow, hlongest⟩ := exists_length_eq_longest (toRows_ne_nil h)
  have hwidth : longest g.toRows = g.width := by
    rw [← hlongest, length_of_mem_toRows hrow]
  apply ext_get?
  · exact hwidth
  · simp [Grid.padded, length_toRows]
  · intro x y
    rw [get?_padded, entryAt_toRows, hwidth, length_toRows]
    have hiff := isSome_get?_iff (g := g) (p := ⟨x, y⟩)
    rw [mem_positions] at hiff
    split
    · next hinside =>
      have hsome : (g.get? ⟨x, y⟩).isSome := by
        rw [hiff]
        simp only
        omega
      obtain ⟨v, hv⟩ := Option.isSome_iff_exists.mp hsome
      rw [hv, Option.getD_some]
    · next houtside =>
      symm
      rw [← Option.not_isSome_iff_eq_none, hiff]
      simp only
      omega

end Grid

/-! ### Pictures of rows -/

/-- A line of visible characters is the only row of its picture. -/
theorem pictureRows_of_visible {row : List Nat} (hne : row ≠ []) (hrow : ∀ c ∈ row, ¬isBlank c) :
    pictureRows row = [row] := by
  have hunbroken : Text.Unbroken row := by
    intro c hc hbreak
    exact hrow c hc (Text.isBlank_of_isBreak hbreak)
  have hisRow : isRow row = true := by
    obtain ⟨c, hc⟩ := List.exists_mem_of_ne_nil row hne
    by_contra hnot
    rw [Bool.not_eq_true, isRow_eq_false_iff] at hnot
    exact hrow c hc (hnot c hc)
  show (Text.lines row).filter isRow = [row]
  rw [Text.lines_of_unbroken hne hunbroken, List.filter_cons_of_pos hisRow, List.filter_nil]

theorem pictureRows_intercalate {rows : List (List Nat)}
    (h : ∀ row ∈ rows, row ≠ [] ∧ ∀ c ∈ row, ¬isBlank c) :
    pictureRows ([0x0A].intercalate rows) = rows := by
  induction rows with
  | nil => rfl
  | cons row rows ih =>
    obtain ⟨⟨hne, hrow⟩, hrows⟩ := List.forall_mem_cons.mp h
    cases rows with
    | nil =>
      rw [List.intercalate_singleton]
      exact pictureRows_of_visible hne hrow
    | cons second rows =>
      have hbreak : isBreak 0x0A = true := by decide
      rw [List.intercalate_cons_cons, List.append_assoc, List.singleton_append,
        pictureRows_append _ _ hbreak, pictureRows_of_visible hne hrow, ih hrows,
        List.singleton_append]

/-! ### Palettes and the legends that turn them around -/

namespace Palette

variable {p : Palette} {g : Grid Int} {v w : Int}

/-- Whether a palette has an entry for a value. -/
def Has (p : Palette) (v : Int) : Prop := ∃ s, (v, s) ∈ p.entries

/-- The legend that gives each text of a palette back its value, in the order of the entries. -/
def inverse (p : Palette) : Legend := ⟨p.entries.map fun e => (p.symbol e.1, e.1)⟩

/-- A palette has a visible character for each value of a grid, and no text for two values. -/
structure Legible (p : Palette) (g : Grid Int) : Prop where
  has : ∀ q v, g.get? q = some v → p.Has v
  visible : ∀ q v, g.get? q = some v → ∃ c, p.symbol v = [c] ∧ ¬isBlank c
  injective : ∀ v w, p.Has v → p.Has w → p.symbol v = p.symbol w → v = w

theorem mem_inverse {e : List Nat × Int} :
    e ∈ p.inverse.entries ↔ p.Has e.2 ∧ e.1 = p.symbol e.2 := by
  obtain ⟨name, v⟩ := e
  simp only [inverse, List.mem_map, Prod.mk.injEq, Has]
  constructor
  · intro hentry
    obtain ⟨⟨w, s⟩, hmem, hname, hw⟩ := hentry
    obtain rfl : w = v := hw
    exact ⟨⟨s, hmem⟩, hname.symm⟩
  · intro hentry
    obtain ⟨⟨s, hmem⟩, hname⟩ := hentry
    exact ⟨(v, s), hmem, hname.symm, rfl⟩

/-- The inverse gives a text its value. -/
theorem value?_inverse (hinjective : ∀ v w, p.Has v → p.Has w → p.symbol v = p.symbol w → v = w)
    (hv : p.Has v) : p.inverse.value? (p.symbol v) = some v := by
  have hmem : (p.symbol v, v) ∈ p.inverse.entries := mem_inverse.mpr ⟨hv, rfl⟩
  obtain ⟨w, hw⟩ := Legend.exists_assigns hmem
  -- the entry that counts is for a value with the same text
  obtain ⟨hw', hsame⟩ := mem_inverse.mp (Legend.mem_of_assigns hw)
  obtain rfl : w = v := hinjective w v hw' hv hsame.symm
  exact Legend.value?_eq_some_iff.mpr hw

/-! ### There and back -/

/-- The character that a legible palette has for a value. -/
def code (p : Palette) (v : Int) : Nat := (p.symbol v).headD 0

namespace Legible

theorem symbol_eq (hp : p.Legible g) {q : Point} (hv : g.get? q = some v) :
    p.symbol v = [p.code v] ∧ ¬isBlank (p.code v) := by
  obtain ⟨c, hc, hvisible⟩ := hp.visible q v hv
  rw [code, hc]
  exact ⟨rfl, hvisible⟩

/-- The rows of the drawing are the grid's rows, in the palette's characters. -/
theorem pictureRows_draw (hp : p.Legible g) (hwidth : 0 < g.width) :
    pictureRows (p.draw g) = g.toRows.map (List.map p.code) := by
  have hrows : (g.toRows.map fun row => row.flatMap p.symbol) =
      g.toRows.map (List.map p.code) := by
    apply List.map_congr_left
    intro row hrow
    rw [← List.flatMap_pure_eq_map]
    apply List.flatMap_congr
    intro v hv
    obtain ⟨q, hq⟩ := Grid.exists_get?_of_mem_toRows hrow hv
    exact (hp.symbol_eq hq).1
  rw [Palette.draw, Grid.draw, hrows]
  apply pictureRows_intercalate
  intro row hrow
  obtain ⟨values, hvalues, rfl⟩ := List.mem_map.mp hrow
  constructor
  · intro hnil
    have hlength := Grid.length_of_mem_toRows hvalues
    rw [List.map_eq_nil_iff.mp hnil] at hlength
    exact absurd hlength hwidth.ne
  · intro c hc
    obtain ⟨v, hv, rfl⟩ := List.mem_map.mp hc
    obtain ⟨q, hq⟩ := Grid.exists_get?_of_mem_toRows hvalues hv
    exact (hp.symbol_eq hq).2

/-- The inverse means by a character the value that it was drawn for. -/
theorem value?_code (hp : p.Legible g) {q : Point} (hv : g.get? q = some v) :
    p.inverse.value? [p.code v] = some v := by
  rw [← (hp.symbol_eq hv).1]
  exact value?_inverse hp.injective (hp.has q v hv)

theorem knows_code (hp : p.Legible g) (hwords : ∀ q v, g.get? q = some v → IsWord v) {q : Point}
    (hv : g.get? q = some v) : p.inverse.Knows (p.code v) :=
  ⟨v, hp.value?_code hv, hwords q v hv⟩

theorem meaning_code (hp : p.Legible g) {q : Point} (hv : g.get? q = some v) :
    p.inverse.meaning (p.code v) = v := by
  rw [Legend.meaning, hp.value?_code hv, Option.getD_some]

/-- What the drawing's characters mean are the rows of the grid. -/
theorem map_meaning_code (hp : p.Legible g) :
    (g.toRows.map (List.map p.code)).map (List.map p.inverse.meaning) = g.toRows := by
  have hrow : ∀ row ∈ g.toRows, (List.map p.inverse.meaning ∘ List.map p.code) row = id row := by
    intro row hrow
    have hvalue : ∀ v ∈ row, (p.inverse.meaning ∘ p.code) v = id v := by
      intro v hv
      obtain ⟨q, hq⟩ := Grid.exists_get?_of_mem_toRows hrow hv
      exact hp.meaning_code hq
    rw [Function.comp_apply, List.map_map, List.map_congr_left hvalue, List.map_id]
    rfl
  rw [List.map_map, List.map_congr_left hrow, List.map_id]

end Legible

theorem padding?_inverse (hinjective : ∀ v w, p.Has v → p.Has w → p.symbol v = p.symbol w → v = w)
    {s : List Nat} {rest : List (Int × List Nat)} (hentries : p.entries = (v, s) :: rest) :
    p.inverse.padding? = some v := by
  have hv : p.Has v := by
    refine ⟨s, ?_⟩
    rw [hentries]
    exact List.mem_cons_self
  have hhead : p.inverse.entries.head? = some (p.symbol v, v) := by
    rw [inverse, hentries]
    rfl
  rw [Legend.padding?, hhead]
  exact value?_inverse hinjective hv

/-- A grid of words that has a cell, drawn with a legible palette, is read back by the inverse of
    the palette. For this the first value of the palette must be a word, which the legend pads with;
    if it is none, then nothing is read. -/
theorem read_back (hheight : 0 < g.height) (hwidth : 0 < g.width)
    (hwords : ∀ q v, g.get? q = some v → IsWord v) (hp : p.Legible g) :
    ∃ first s rest, p.entries = (first, s) :: rest ∧
      (IsWord first → p.inverse.read (p.draw g) = .ok g) ∧
      (¬IsWord first → p.inverse.read (p.draw g) = .error .notWord) := by
  -- the grid has a cell, so the palette has an entry
  have hcell : (g.get? ⟨(0 : Nat), (0 : Nat)⟩).isSome := by
    rw [Grid.isSome_get?_iff, Grid.mem_positions]
    simp only
    omega
  obtain ⟨v, hv⟩ := Option.isSome_iff_exists.mp hcell
  obtain ⟨t, ht⟩ := hp.has _ v hv
  obtain ⟨⟨first, s⟩, rest, hentries⟩ := List.exists_cons_of_ne_nil (List.ne_nil_of_mem ht)
  have hpadding := padding?_inverse hp.injective hentries
  have hrows := hp.pictureRows_draw hwidth
  refine ⟨first, s, rest, hentries, ?_, ?_⟩
  · intro hword
    have hknown : ∀ row ∈ pictureRows (p.draw g), ∀ c ∈ row, p.inverse.Knows c := by
      rw [hrows]
      intro row hrow c hc
      obtain ⟨values, hvalues, rfl⟩ := List.mem_map.mp hrow
      obtain ⟨w, hw, rfl⟩ := List.mem_map.mp hc
      obtain ⟨q, hq⟩ := Grid.exists_get?_of_mem_toRows hvalues hw
      exact hp.knows_code hwords hq
    rw [Legend.read_of_knows hpadding hword hknown, hrows, hp.map_meaning_code,
      Grid.padded_toRows hheight]
  · intro hword
    have hne : pictureRows (p.draw g) ≠ [] := by
      rw [hrows]
      intro hnil
      exact Grid.toRows_ne_nil hheight (List.map_eq_nil_iff.mp hnil)
    rw [Legend.read_of_rows hne hpadding, if_neg hword]

/-- Two of its values are drawn on the diagonal, and the third, a line break, is not drawn at all. -/
def stairsPalette : Palette := { entries := [(-7, codes "#"), (3, codes "."), (5, codes "\n")] }

def stairs : Grid Int := .ofFn 3 2 fun x y => if x = y then -7 else 3

theorem stairs_read_back : 0 < stairs.height ∧ 0 < stairs.width ∧
    (∀ q v, stairs.get? q = some v → IsWord v) ∧ stairsPalette.Legible stairs ∧
      stairsPalette.inverse.read (stairsPalette.draw stairs) = .ok stairs := by
  have hvalues (q : Point) (v : Int) (hv : stairs.get? q = some v) : v = -7 ∨ v = 3 := by
    obtain ⟨x, y, -, -, -, rfl⟩ := Grid.get?_ofFn_eq_some_iff.mp hv
    split
    · exact .inl rfl
    · exact .inr rfl
  have hheight : 0 < stairs.height := by decide
  have hwidth : 0 < stairs.width := by decide
  have hwords (q : Point) (v : Int) (hv : stairs.get? q = some v) : IsWord v := by
    obtain rfl | rfl := hvalues q v hv <;> decide
  have hlegible : stairsPalette.Legible stairs := by
    constructor
    case has =>
      intro q v hv
      obtain rfl | rfl := hvalues q v hv
      · exact ⟨codes "#", by decide⟩
      · exact ⟨codes ".", by decide⟩
    case visible =>
      intro q v hv
      obtain rfl | rfl := hvalues q v hv
      · exact ⟨0x23, by decide, by decide⟩
      · exact ⟨0x2E, by decide, by decide⟩
    case injective =>
      intro v w ⟨s, hv⟩ ⟨t, hw⟩
      simp only [stairsPalette, List.mem_cons, Prod.mk.injEq, List.not_mem_nil, or_false] at hv hw
      obtain ⟨rfl, -⟩ | ⟨rfl, -⟩ | ⟨rfl, -⟩ := hv <;>
        obtain ⟨rfl, -⟩ | ⟨rfl, -⟩ | ⟨rfl, -⟩ := hw <;> decide
  obtain ⟨first, s, rest, hentries, hread, -⟩ := read_back hheight hwidth hwords hlegible
  obtain ⟨⟨rfl, -⟩, -⟩ := List.cons.inj hentries
  exact ⟨hheight, hwidth, hwords, hlegible, hread (by decide)⟩

/-- Every grid of words that has a cell is read back, whatever else the palette has entries for. -/
def AllReadBack : Prop :=
  ∀ (p : Palette) (g : Grid Int), 0 < g.height → 0 < g.width →
    (∀ q v, g.get? q = some v → IsWord v) → p.Legible g →
      p.inverse.read (p.draw g) = .ok g

/-- A palette whose first entry is for more than the largest word. -/
def widePalette : Palette := { entries := [(18446744073709551616, codes "x"), (0, codes ".")] }

theorem not_all_read_back : ¬AllReadBack := by
  intro h
  have hvalues (q : Point) (v : Int)
      (hv : (Grid.ofFn 1 1 fun _ _ => (0 : Int)).get? q = some v) : v = 0 := by
    obtain ⟨x, y, -, -, -, rfl⟩ := Grid.get?_ofFn_eq_some_iff.mp hv
    rfl
  have hlegible : widePalette.Legible (.ofFn 1 1 fun _ _ => 0) := by
    constructor
    case has =>
      intro q v hv
      rw [hvalues q v hv]
      exact ⟨codes ".", by decide⟩
    case visible =>
      intro q v hv
      rw [hvalues q v hv]
      exact ⟨0x2E, by decide, by decide⟩
    case injective =>
      intro v w ⟨s, hv⟩ ⟨t, hw⟩
      simp only [widePalette, List.mem_cons, Prod.mk.injEq, List.not_mem_nil, or_false] at hv hw
      obtain ⟨rfl, -⟩ | ⟨rfl, -⟩ := hv <;> obtain ⟨rfl, -⟩ | ⟨rfl, -⟩ := hw <;> decide
  have hword (q : Point) (v : Int)
      (hv : (Grid.ofFn 1 1 fun _ _ => (0 : Int)).get? q = some v) : IsWord v := by
    rw [hvalues q v hv]
    decide
  have hread := h widePalette _ (by decide) (by decide) hword hlegible
  -- the legend refuses to pad with its first value
  have hrefused : (widePalette.inverse.read
      (widePalette.draw (.ofFn 1 1 fun _ _ => 0))).isOk = false := by decide +kernel
  rw [hread] at hrefused
  cases hrefused

end Palette

end TapeNet
