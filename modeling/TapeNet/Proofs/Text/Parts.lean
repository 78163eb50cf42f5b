import Mathlib.Data.List.DropRight
import TapeNet.Text.Blank

/-! # Parts of texts

    What is left of a text without the blank characters at its two ends, and
    what a text holds that was cut or joined at a separator.

    - `Trimmed p cs s` says it without an algorithm: around `s` there are
      only elements of the class `p` in `cs`, and `s` has none at its own
      ends.
    - `trimmed_iff`: this is what `trim` gives, and nothing else is.
    - `not_mem_of_mem_splitOn`, `mem_intercalate`: separators are between the
      pieces only, and there is nothing else between them.
-/

namespace TapeNet.Text

variable {α : Type}

/-! ### Trimming -/

section

variable {p : α → Bool} {cs s : List α}

structure Trimmed (p : α → Bool) (cs s : List α) : Prop where
  around : ∃ before behind, cs = before ++ s ++ behind ∧ (∀ c ∈ before, p c) ∧ ∀ c ∈ behind, p c
  first : ∀ c ∈ s.head?, ¬p c
  last : ∀ c ∈ s.getLast?, ¬p c

/-- Dropping stops where an element is outside of the class. -/
theorem dropWhile_append_exact {before rest : List α} (hbefore : ∀ c ∈ before, p c)
    (hfirst : ∀ c ∈ rest.head?, ¬p c) : (before ++ rest).dropWhile p = rest := by
  rw [List.dropWhile_append_of_pos hbefore]
  cases rest with
  | nil => rfl
  | cons c rest => exact List.dropWhile_cons_of_neg (hfirst c rfl)

theorem trim_eq_rdropWhile (p : α → Bool) (cs : List α) :
    trim p cs = (cs.dropWhile p).rdropWhile p := rfl

theorem trim_eq_nil_iff : trim p cs = [] ↔ ∀ c ∈ cs, p c := by
  rw [trim_eq_rdropWhile, List.rdropWhile_eq_nil_iff, ← List.dropWhile_eq_nil_iff,
    List.dropWhile_idempotent, List.dropWhile_eq_nil_iff]

theorem trimmed_trim (p : α → Bool) (cs : List α) : Trimmed p cs (trim p cs) where
  around := by
    refine ⟨cs.takeWhile p, (cs.dropWhile p).rtakeWhile p, ?_, fun c hc => List.mem_takeWhile_imp hc,
      fun c hc => List.mem_rtakeWhile_imp hc⟩
    rw [trim_eq_rdropWhile, List.append_assoc, List.rdropWhile_append_rtakeWhile,
      List.takeWhile_append_dropWhile]
  first c hc := by
    -- the first element that is left is the first one that was not dropped in front
    obtain ⟨rest, hrest⟩ := List.rdropWhile_prefix p (l := cs.dropWhile p)
    have hhead : (cs.dropWhile p).head? = some c := by
      rw [← hrest, List.head?_append, ← trim_eq_rdropWhile, hc]
      rfl
    have hnot := List.head?_dropWhile_not p cs
    rw [hhead] at hnot
    simpa using hnot
  last c hc := by
    have hne : trim p cs ≠ [] := by
      rintro hnil
      rw [hnil] at hc
      cases hc
    rw [List.getLast?_eq_some_getLast hne] at hc
    cases hc
    exact List.rdropWhile_last_not p _ hne

/-- There is only one way to trim a list. -/
theorem Trimmed.eq_trim (h : Trimmed p cs s) : trim p cs = s := by
  obtain ⟨before, behind, rfl, hbefore, hbehind⟩ := h.around
  by_cases hs : s = []
  · subst hs
    rw [trim_eq_nil_iff]
    intro c hc
    rw [List.append_nil, List.mem_append] at hc
    exact hc.elim (hbefore c) (hbehind c)
  · have hfirst : ∀ c ∈ (s ++ behind).head?, ¬p c := by
      rw [List.head?_append_of_ne_nil _ hs]
      exact h.first
    have hlast : ∀ c ∈ s.reverse.head?, ¬p c := by
      rw [List.head?_reverse]
      exact h.last
    have hbehind' : ∀ c ∈ behind.reverse, p c := fun c hc => hbehind c (List.mem_reverse.mp hc)
    rw [List.append_assoc, trim, dropWhile_append_exact hbefore hfirst, List.reverse_append,
      dropWhile_append_exact hbehind' hlast, List.reverse_reverse]

theorem trimmed_iff : Trimmed p cs s ↔ trim p cs = s :=
  ⟨Trimmed.eq_trim, fun h => h ▸ trimmed_trim p cs⟩

/-- A list that holds no element of the class is left alone. -/
theorem trim_eq_self (h : ∀ c ∈ cs, ¬p c) : trim p cs = cs :=
  Trimmed.eq_trim
    { around := ⟨[], [], by simp, by simp, by simp⟩
      first := fun c hc => h c (List.mem_of_head? hc)
      last := fun c hc => h c (List.mem_of_getLast? hc) }

end

/-! ### Cutting and joining -/

theorem not_mem_of_mem_splitOn [DecidableEq α] {a : α} {cs piece : List α}
    (h : piece ∈ cs.splitOn a) : a ∉ piece := by
  induction cs generalizing piece with
  | nil =>
    rw [List.splitOn_nil, List.mem_singleton] at h
    rw [h]
    exact List.not_mem_nil
  | cons c cs ih =>
    rw [List.splitOn_cons_eq_if_modifyHead] at h
    split at h
    · rcases List.mem_cons.mp h with rfl | h
      · exact List.not_mem_nil
      · exact ih h
    · next hc =>
      -- the element goes to the first piece of the rest
      obtain ⟨first, rest, hsplit⟩ := List.exists_cons_of_ne_nil (List.splitOn_ne_nil a cs)
      rw [hsplit, List.modifyHead_cons, List.mem_cons] at h
      rcases h with rfl | h
      · rw [List.mem_cons, not_or]
        exact ⟨fun heq => hc (beq_iff_eq.mpr heq.symm), ih (hsplit ▸ List.mem_cons_self)⟩
      · exact ih (hsplit ▸ List.mem_cons_of_mem _ h)

theorem mem_intercalate {a c : α} {pieces : List (List α)} (h : c ∈ [a].intercalate pieces) :
    c = a ∨ ∃ piece ∈ pieces, c ∈ piece := by
  induction pieces with
  | nil => cases h
  | cons piece pieces ih =>
    cases pieces with
    | nil =>
      rw [List.intercalate_singleton] at h
      exact .inr ⟨piece, List.mem_singleton_self piece, h⟩
    | cons second pieces =>
      rw [List.intercalate_cons_cons, List.append_assoc, List.mem_append, List.singleton_append,
        List.mem_cons] at h
      rcases h with h | h | h
      · exact .inr ⟨piece, List.mem_cons_self, h⟩
      · exact .inl h
      · exact (ih h).imp_right fun ⟨p, hp, hc⟩ => ⟨p, List.mem_cons_of_mem _ hp, hc⟩

/-! ### Blank characters -/

/-- White space. -/
abbrev IsSpace (c : Nat) : Prop := isBlank c = true

/-- A text without the blank characters at its two ends. -/
abbrev Stripped (cs s : List Nat) : Prop := Trimmed isBlank cs s

end TapeNet.Text
