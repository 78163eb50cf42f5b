import TapeNet.Proofs.Plane.Reading
import TapeNet.Proofs.Text.Rows

/-! # What is read from a text

    Which grid a legend reads from a text, or which character it does not
    know, said without reading.

    - `Assigns`: the value of a key is that of the last entry for it.
    - `Pictures rows g`: the grid `g` has a row for each of `rows` and the
      width of the longest. A character of theirs is a cell with its value;
      the other cells have the value of the legend's first key.
    - `FirstUnknown rows c x y`: row by row, `c` is the first character
      without a value, and it is at `(x, y)`.
    - `read_exact`: the rows are the lines that are not blank. They are read
      as the grid that pictures them, or refused for the first character
      without a value.
-/

namespace TapeNet

open Text (codes Lined lined_iff)

/-! ### The width of rows -/

theorem longest_map {α β : Type} (f : α → β) (rows : List (List α)) :
    longest (rows.map (List.map f)) = longest rows := by
  simp only [longest, List.foldl_map, List.length_map]

/-- Some row is as long as the longest. -/
theorem exists_length_eq_longest {α : Type} {rows : List (List α)} (hne : rows ≠ []) :
    ∃ row ∈ rows, row.length = longest rows := by
  by_contra hnone
  have hle := longest_le_iff.mp (Nat.le_refl (longest rows))
  have hlt : ∀ row ∈ rows, row.length < longest rows := by
    intro row hrow
    apply Nat.lt_of_le_of_ne (hle row hrow)
    intro heq
    exact hnone ⟨row, hrow, heq⟩
  -- then a smaller width would do for all rows
  have hsmaller : longest rows ≤ longest rows - 1 := by
    apply longest_le_iff.mpr
    intro row hrow
    have := hlt row hrow
    omega
  obtain ⟨row, hrow⟩ := List.exists_mem_of_ne_nil rows hne
  have := hlt row hrow
  omega

/-- The first element of a list that does not have a property, and what is before and behind it. -/
theorem exists_first {α : Type} {P : α → Prop} {xs : List α} (h : ∃ a ∈ xs, ¬P a) :
    ∃ before a behind, xs = before ++ a :: behind ∧ (∀ b ∈ before, P b) ∧ ¬P a := by
  classical
  have hsome : (xs.find? fun a => ¬P a).isSome := by
    rw [List.find?_isSome]
    simpa using h
  obtain ⟨a, ha⟩ := Option.isSome_iff_exists.mp hsome
  obtain ⟨hnot, before, behind, hxs, hbefore⟩ := List.find?_eq_some_iff_append.mp ha
  refine ⟨before, a, behind, hxs, ?_, ?_⟩
  · simpa using hbefore
  · simpa using hnot

namespace Legend

variable {l : Legend} {text key : List Nat} {rows above below : List (List Nat)}
  {before after : List Nat} {c x y : Nat} {v : Int}

/-! ### Keys and their values -/

/-- The value of a key is that of the last entry for it. -/
def Assigns (l : Legend) (key : List Nat) (v : Int) : Prop :=
  ∃ before after, l.entries = before ++ (key, v) :: after ∧ ∀ e ∈ after, e.1 ≠ key

theorem value?_eq_some_iff : l.value? key = some v ↔ l.Assigns key v := by
  simp only [value?, Option.map_eq_some_iff, List.find?_eq_some_iff_append, beq_iff_eq,
    Bool.not_eq_true', beq_eq_false_iff_ne]
  constructor
  · intro ⟨(name, w), ⟨hname, after, before, hentries, hafter⟩, hw⟩
    refine ⟨before.reverse, after.reverse, ?_, ?_⟩
    · rw [List.reverse_eq_iff.mp hentries, ← hname, ← hw]
      simp
    · intro e he
      exact hafter e (List.mem_reverse.mp he)
  · intro ⟨before, after, hentries, hafter⟩
    refine ⟨(key, v), ⟨rfl, after.reverse, before.reverse, ?_, ?_⟩, rfl⟩
    · rw [hentries]
      simp
    · intro e he
      exact hafter e (List.mem_reverse.mp he)

/-- The value of the first key. -/
def Leads (l : Legend) (v : Int) : Prop :=
  ∃ key w rest, l.entries = (key, w) :: rest ∧ l.Assigns key v

theorem mem_of_assigns (h : l.Assigns key v) : (key, v) ∈ l.entries := by
  obtain ⟨before, after, hentries, -⟩ := h
  rw [hentries]
  exact List.mem_append_right _ List.mem_cons_self

/-- In a legend of words the characters with a value are those that are known. -/
theorem knows_iff (hwords : ∀ e ∈ l.entries, IsWord e.2) :
    l.Knows c ↔ ∃ v, l.Assigns [c] v := by
  constructor
  · intro ⟨v, hv, _⟩
    exact ⟨v, value?_eq_some_iff.mp hv⟩
  · intro ⟨v, hv⟩
    exact ⟨v, value?_eq_some_iff.mpr hv, hwords ([c], v) (mem_of_assigns hv)⟩

theorem value?_eq_none (hwords : ∀ e ∈ l.entries, IsWord e.2) (hc : ¬l.Knows c) :
    l.value? [c] = none := by
  apply Option.eq_none_iff_forall_ne_some.mpr
  intro v hv
  exact hc ((knows_iff hwords).mpr ⟨v, value?_eq_some_iff.mp hv⟩)

/-- A key of an entry has a value. -/
theorem exists_assigns {w : Int} (h : (key, w) ∈ l.entries) : ∃ v, l.Assigns key v := by
  have hsome : (l.value? key).isSome := by
    rw [value?, Option.isSome_map, List.find?_isSome]
    exact ⟨(key, w), List.mem_reverse.mpr h, beq_self_eq_true _⟩
  obtain ⟨v, hv⟩ := Option.isSome_iff_exists.mp hsome
  exact ⟨v, value?_eq_some_iff.mp hv⟩

/-- A legend of words that has entries pads with a word, the value of its first key. -/
theorem exists_padding (hne : l.entries ≠ []) (hwords : ∀ e ∈ l.entries, IsWord e.2) :
    ∃ v, l.padding? = some v ∧ l.Leads v ∧ IsWord v := by
  obtain ⟨⟨key, w⟩, rest, hentries⟩ := List.exists_cons_of_ne_nil hne
  have hfirst : (key, w) ∈ l.entries := by
    rw [hentries]
    exact List.mem_cons_self
  obtain ⟨v, hv⟩ := exists_assigns hfirst
  refine ⟨v, ?_, ⟨key, w, rest, hentries, hv⟩, hwords (key, v) (mem_of_assigns hv)⟩
  rw [padding?, hentries]
  exact value?_eq_some_iff.mpr hv

/-! ### Rows that are known -/

/-- A grid shows some rows as a legend reads them. -/
structure Pictures (l : Legend) (rows : List (List Nat)) (g : Grid Int) : Prop where
  height : g.height = rows.length
  width_le : ∀ row ∈ rows, row.length ≤ g.width
  width_eq : ∃ row ∈ rows, row.length = g.width
  character : ∀ p c, entryAt rows p = some c → ∃ v, l.Assigns [c] v ∧ g.get? p = some v
  padding : ∀ p ∈ g.positions, entryAt rows p = none → ∃ v, l.Leads v ∧ g.get? p = some v

/-- The padded meanings of rows picture them. -/
theorem pictures_padded (hne : rows ≠ []) (hv : l.Leads v)
    (h : ∀ row ∈ rows, ∀ c ∈ row, l.Knows c) :
    l.Pictures rows (.padded v (rows.map (List.map l.meaning))) := by
  have hwidth : (Grid.padded v (rows.map (List.map l.meaning))).width = longest rows := by
    exact longest_map l.meaning rows
  have hheight : (Grid.padded v (rows.map (List.map l.meaning))).height = rows.length := by
    simp [Grid.padded]
  have hget (x y : Nat) : (Grid.padded v (rows.map (List.map l.meaning))).get? ⟨x, y⟩ =
      if x < longest rows ∧ y < rows.length
      then some (((entryAt rows ⟨x, y⟩).map l.meaning).getD v) else none := by
    rw [get?_padded, entryAt_map, longest_map, List.length_map]
  constructor
  case height => exact hheight
  case width_le =>
    rw [hwidth]
    exact longest_le_iff.mp (Nat.le_refl _)
  case width_eq =>
    rw [hwidth]
    exact exists_length_eq_longest hne
  case character =>
    intro p c hc
    obtain ⟨row, hrow, hmem⟩ := exists_of_entryAt hc
    obtain ⟨w, hw, -⟩ := h row hrow c hmem
    refine ⟨w, value?_eq_some_iff.mp hw, ?_⟩
    obtain ⟨x, y, -, rfl, -⟩ := entryAt_eq_some_iff.mp hc
    rw [hget, if_pos (bounds_of_entryAt hc), hc, Option.map_some, Option.getD_some, meaning, hw,
      Option.getD_some]
  case padding =>
    intro p hp hnone
    refine ⟨v, hv, ?_⟩
    obtain ⟨hx0, hx, hy0, hy⟩ := Grid.mem_positions.mp hp
    obtain ⟨px, py⟩ := p
    obtain ⟨x, rfl⟩ := Int.eq_ofNat_of_zero_le hx0
    obtain ⟨y, rfl⟩ := Int.eq_ofNat_of_zero_le hy0
    have hinside : x < longest rows ∧ y < rows.length := by
      rw [hwidth] at hx
      rw [hheight] at hy
      exact ⟨Int.ofNat_lt.mp hx, Int.ofNat_lt.mp hy⟩
    rw [hget, if_pos hinside, hnone, Option.map_none, Option.getD_none]

/-! ### The first character that is not known -/

/-- Row by row, the first character without a value, and where it is. -/
structure FirstUnknown (l : Legend) (rows : List (List Nat)) (c x y : Nat) : Prop where
  here : entryAt rows ⟨x, y⟩ = some c
  unknown : ∀ v, ¬l.Assigns [c] v
  known : ∀ p d, entryAt rows p = some d → p.y < y ∨ p.y = y ∧ p.x < x → ∃ v, l.Assigns [d] v

theorem cellsFrom_of_unknown (hbefore : ∀ d ∈ before, l.Knows d) (hc : l.value? [c] = none) :
    l.cellsFrom x y (before ++ c :: after) = .error (.unexpected c (x + before.length) y) := by
  induction before generalizing x with
  | nil =>
    rw [List.nil_append, cellsFrom, cell, hc]
    rfl
  | cons d before ih =>
    obtain ⟨hd, hbefore⟩ := List.forall_mem_cons.mp hbefore
    rw [List.cons_append, cellsFrom, cell_of_knows hd, ih hbefore, List.length_cons,
      Nat.add_right_comm, Nat.add_assoc]
    rfl

theorem rowsFrom_of_unknown (habove : ∀ row ∈ above, ∀ d ∈ row, l.Knows d)
    (hbefore : ∀ d ∈ before, l.Knows d) (hc : l.value? [c] = none) :
    l.rowsFrom y (above ++ (before ++ c :: after) :: below) =
      .error (.unexpected c before.length (y + above.length)) := by
  induction above generalizing y with
  | nil =>
    rw [List.nil_append, rowsFrom, cellsFrom_of_unknown hbefore hc, Nat.zero_add]
    rfl
  | cons row above ih =>
    obtain ⟨hrow, habove⟩ := List.forall_mem_cons.mp habove
    rw [List.cons_append, rowsFrom, cellsFrom_of_knows hrow, ih habove, List.length_cons,
      Nat.add_right_comm, Nat.add_assoc]
    rfl

/-- Rows with a character that is not known: those above it, its own row before and behind it, and
    those below. -/
theorem exists_split (h : ∃ row ∈ rows, ∃ c ∈ row, ¬l.Knows c) :
    ∃ above before c after below, rows = above ++ (before ++ c :: after) :: below ∧
      (∀ row ∈ above, ∀ d ∈ row, l.Knows d) ∧ (∀ d ∈ before, l.Knows d) ∧ ¬l.Knows c := by
  have hrow : ∃ row ∈ rows, ¬∀ c ∈ row, l.Knows c := by
    simpa only [not_forall, exists_prop] using h
  obtain ⟨above, row, below, hrows, habove, hrow⟩ := exists_first hrow
  have hc : ∃ c ∈ row, ¬l.Knows c := by
    simpa only [not_forall, exists_prop] using hrow
  obtain ⟨before, c, after, hsplit, hbefore, hc⟩ := exists_first hc
  refine ⟨above, before, c, after, below, ?_, habove, hbefore, hc⟩
  rw [hrows, hsplit]

/-- The character that rows are split at is the first that has no value. -/
theorem firstUnknown_of_split (hwords : ∀ e ∈ l.entries, IsWord e.2)
    (habove : ∀ row ∈ above, ∀ d ∈ row, l.Knows d) (hbefore : ∀ d ∈ before, l.Knows d)
    (hc : ¬l.Knows c) :
    l.FirstUnknown (above ++ (before ++ c :: after) :: below) c before.length above.length := by
  constructor
  case here =>
    apply entryAt_eq_some_iff.mpr
    refine ⟨before.length, above.length, before ++ c :: after, rfl, ?_, ?_⟩
    · simp
    · simp
  case unknown =>
    intro v hv
    exact hc ((knows_iff hwords).mpr ⟨v, hv⟩)
  case known =>
    intro p d hd hfirst
    obtain ⟨x, y, row, rfl, hrow, hd'⟩ := entryAt_eq_some_iff.mp hd
    apply (knows_iff hwords).mp
    obtain hy | ⟨hy, hx⟩ := hfirst
    · have hlt : y < above.length := Int.ofNat_lt.mp hy
      rw [List.getElem?_append_left hlt] at hrow
      exact habove row (List.mem_of_getElem? hrow) d (List.mem_of_getElem? hd')
    · obtain rfl : y = above.length := Int.ofNat_inj.mp hy
      have hlt : x < before.length := Int.ofNat_lt.mp hx
      have hsame : before ++ c :: after = row := by simpa using hrow
      rw [← hsame, List.getElem?_append_left hlt] at hd'
      exact hbefore d (List.mem_of_getElem? hd')

/-! ### Texts -/

theorem read_of_blank (h : pictureRows text = []) : l.read text = .ok .empty := by
  rw [read, h]

theorem read_of_rows (hne : pictureRows text ≠ []) (hpadding : l.padding? = some v) :
    l.read text =
      if IsWord v then (l.rowsFrom 0 (pictureRows text)).map (Grid.padded v)
      else .error .notWord := by
  rw [read]
  split
  · contradiction
  · rw [hpadding]
    rfl

/-- A legend of words that is not empty, and any text. The text has one list of lines; its rows are
    those that are not blank. Without rows an empty grid is read. If all characters of the rows have
    values, what is read pictures the rows; if not, the text is refused for the first character that
    has none. Blank lines make no difference. -/
theorem read_exact (hne : l.entries ≠ []) (hwords : ∀ e ∈ l.entries, IsWord e.2)
    (text : List Nat) :
    ∃ ls rows, (∀ ls', Lined text ls' ↔ ls' = ls) ∧ rows = ls.filter isRow ∧
      (rows = [] → l.read text = .ok .empty) ∧
      (rows ≠ [] → (∀ row ∈ rows, ∀ c ∈ row, ∃ v, l.Assigns [c] v) →
        ∃ g, l.read text = .ok g ∧ l.Pictures rows g) ∧
      ((∃ row ∈ rows, ∃ c ∈ row, ∀ v, ¬l.Assigns [c] v) →
        ∃ c x y, l.FirstUnknown rows c x y ∧ l.read text = .error (.unexpected c x y) ∧
          (PictureError.unexpected c x y).message =
            s!"unexpected character {Text.quoted [c]} at ({x}, {y})") ∧
      ∀ text', BlankInserted text text' ∨ BlankInserted text' text →
        l.read text' = l.read text := by
  obtain ⟨v, hpadding, hv, hword⟩ := exists_padding hne hwords
  refine ⟨Text.lines text, pictureRows text, fun _ => lined_iff, rfl, read_of_blank, ?_, ?_, ?_⟩
  · intro hrows hknown
    have hall : ∀ row ∈ pictureRows text, ∀ c ∈ row, l.Knows c := by
      intro row hrow c hc
      exact (knows_iff hwords).mpr (hknown row hrow c hc)
    exact ⟨_, read_of_knows hpadding hword hall, pictures_padded hrows hv hall⟩
  · intro ⟨row, hrow, c, hc, hnone⟩
    have hsome : ∃ row ∈ pictureRows text, ∃ c ∈ row, ¬l.Knows c := by
      refine ⟨row, hrow, c, hc, ?_⟩
      intro hknows
      obtain ⟨w, hw⟩ := (knows_iff hwords).mp hknows
      exact hnone w hw
    obtain ⟨above, before, c, after, below, hsplit, habove, hbefore, hc⟩ := exists_split hsome
    refine ⟨c, before.length, above.length, ?_, ?_, rfl⟩
    · rw [hsplit]
      exact firstUnknown_of_split hwords habove hbefore hc
    · have hvalue := value?_eq_none hwords hc
      rw [read_of_rows (List.ne_nil_of_mem hrow) hpadding, if_pos hword, hsplit,
        rowsFrom_of_unknown habove hbefore hvalue, Nat.zero_add]
      rfl
  · intro text' h
    have hsame : pictureRows text' = pictureRows text := by
      obtain h | h := h
      · exact pictureRows_of_blankInserted h
      · exact (pictureRows_of_blankInserted h).symm
    rw [read, read, hsame]

/-- The last entry for `#` counts, so short rows are padded with 1. -/
def wallLegend : Legend := ⟨[(codes "#", 5), (codes ".", 0), (codes "#", 1)]⟩

/-- Four kinds of line breaks, with blank lines between them. The row `##x` is row 1. -/
def roughText : List Nat := codes "\r\n#.\u2028 \t\x0b##x\r?"

theorem roughText_refused : wallLegend.entries ≠ [] ∧ (∀ e ∈ wallLegend.entries, IsWord e.2) ∧
    wallLegend.read roughText = .error (.unexpected 'x'.toNat 2 1) ∧
      ∃ ls, Lined roughText ls ∧ wallLegend.FirstUnknown (ls.filter isRow) 'x'.toNat 2 1 := by
  have hne : wallLegend.entries ≠ [] := List.cons_ne_nil _ _
  have hwords : ∀ e ∈ wallLegend.entries, IsWord e.2 := by decide
  have hread : wallLegend.read roughText = .error (.unexpected 'x'.toNat 2 1) := by rfl
  obtain ⟨ls, rows, hls, rfl, -, -, hrefused, -⟩ := read_exact hne hwords roughText
  obtain rfl : Text.lines roughText = ls := (hls _).mp (Text.lined_lines roughText)
  have hrow : codes "##x" ∈ (Text.lines roughText).filter isRow := by decide
  have hunknown (v : Int) : ¬wallLegend.Assigns ['x'.toNat] v := by
    intro hv
    have hnone : wallLegend.value? ['x'.toNat] = none := by decide
    cases hnone.symm.trans (value?_eq_some_iff.mpr hv)
  obtain ⟨c, x, y, hfirst, herror, -⟩ := hrefused ⟨_, hrow, _, by decide, hunknown⟩
  cases hread.symm.trans herror
  exact ⟨hne, hwords, hread, _, (hls _).mpr rfl, hfirst⟩

end Legend

end TapeNet
