import TapeNet.Text.Blank

/-! # The lines of a text

    Which lines a text has, said without cutting it.

    - `Lined text ls`: the text is the lines `ls` with their line breaks,
      where a carriage return with a line feed behind it is one break. Only
      the last line may go without a break, and then it is not empty.
    - `lined_iff`: this is so of what `lines` gives, and of nothing else.
-/

namespace TapeNet.Text

variable {text line rest : List Nat} {ls : List (List Nat)} {c : Nat}

/-- A line has no line break in it. -/
def Unbroken (line : List Nat) : Prop := ∀ c ∈ line, ¬isBreak c

/-- A text has these lines. -/
inductive Lined : List Nat → List (List Nat) → Prop
  | nil : Lined [] []
  | last {line : List Nat} (hne : line ≠ []) (hline : Unbroken line) : Lined line [line]
  | pair {line rest : List Nat} {ls : List (List Nat)} (hline : Unbroken line)
      (hrest : Lined rest ls) : Lined (line ++ 0x0D :: 0x0A :: rest) (line :: ls)
  | single {line rest : List Nat} {c : Nat} {ls : List (List Nat)} (hline : Unbroken line)
      (hc : isBreak c) (halone : ¬(c = 0x0D ∧ rest.head? = some 0x0A)) (hrest : Lined rest ls) :
      Lined (line ++ c :: rest) (line :: ls)

theorem unbroken_nil : Unbroken [] := by
  intro c hc
  cases hc

theorem unbroken_cons : Unbroken (c :: line) ↔ ¬isBreak c ∧ Unbroken line :=
  List.forall_mem_cons

/-! ### The cut has the lines -/

theorem eq_nil_of_lined (h : Lined text []) : text = [] := by
  cases h
  rfl

/-- A character that ends no line goes to the first line. -/
theorem Lined.cons (hc : ¬isBreak c) (h : Lined text (line :: ls)) :
    Lined (c :: text) ((c :: line) :: ls) := by
  cases h with
  | last hne hline => exact .last (List.cons_ne_nil c _) (unbroken_cons.mpr ⟨hc, hline⟩)
  | pair hline hrest => exact .pair (unbroken_cons.mpr ⟨hc, hline⟩) hrest
  | single hline hd halone hrest =>
    exact .single (unbroken_cons.mpr ⟨hc, hline⟩) hd halone hrest

theorem lined_lines (text : List Nat) : Lined text (lines text) := by
  fun_induction lines text with
  | case1 => exact .nil
  | case2 cs ih => exact .pair unbroken_nil ih
  | case3 c cs hpair hc ih =>
    apply Lined.single unbroken_nil hc _ ih
    intro ⟨hreturn, hfeed⟩
    cases cs with
    | nil => cases hfeed
    | cons d cs => exact hpair cs hreturn (by rw [Option.some.inj hfeed])
  | case4 c cs _ hc hnil ih =>
    rw [hnil] at ih
    rw [eq_nil_of_lined ih]
    exact .last (List.cons_ne_nil c []) (unbroken_cons.mpr ⟨hc, unbroken_nil⟩)
  | case5 c cs _ hc line ls hlines ih =>
    rw [hlines] at ih
    exact ih.cons hc

/-! ### Nothing else has them -/

/-- A character that is not half of a break goes by itself. -/
theorem lines_cons (halone : ¬(c = 0x0D ∧ text.head? = some 0x0A)) :
    lines (c :: text) =
      if isBreak c then [] :: lines text
      else (c :: (lines text).headD []) :: (lines text).tail := by
  rw [lines]
  · cases lines text <;> rfl
  · intro cs hreturn hfeed
    rw [hfeed] at halone
    exact halone ⟨hreturn, rfl⟩

theorem lines_cons_of_not_break (hc : ¬isBreak c) (text : List Nat) :
    lines (c :: text) = (c :: (lines text).headD []) :: (lines text).tail := by
  rw [lines_cons, if_neg hc]
  intro ⟨hreturn, _⟩
  rw [hreturn] at hc
  exact hc rfl

/-- A line goes on up to the first line break. -/
theorem lines_append (hline : Unbroken line) (hrest : lines rest = [] :: ls) :
    lines (line ++ rest) = line :: ls := by
  induction line with
  | nil => exact hrest
  | cons c line ih =>
    obtain ⟨hc, hline⟩ := unbroken_cons.mp hline
    rw [List.cons_append, lines_cons_of_not_break hc, ih hline]
    rfl

theorem lines_of_unbroken (hne : line ≠ []) (hline : Unbroken line) : lines line = [line] := by
  induction line with
  | nil => exact absurd rfl hne
  | cons c line ih =>
    obtain ⟨hc, hline⟩ := unbroken_cons.mp hline
    rw [lines_cons_of_not_break hc]
    by_cases hnil : line = []
    · rw [hnil]
      rfl
    · rw [ih hnil hline]
      rfl

theorem Lined.lines_eq (h : Lined text ls) : lines text = ls := by
  induction h with
  | nil => rfl
  | last hne hline => exact lines_of_unbroken hne hline
  | @pair line rest ls hline _ ih =>
    apply lines_append hline
    rw [← ih]
    rfl
  | @single line rest c ls hline hc halone _ ih =>
    apply lines_append hline
    rw [lines_cons halone, if_pos hc, ih]

/-- Every text has exactly one list of lines. -/
theorem lined_iff : Lined text ls ↔ ls = lines text := by
  constructor
  · intro h
    exact h.lines_eq.symm
  · intro h
    rw [h]
    exact lined_lines text

end TapeNet.Text
