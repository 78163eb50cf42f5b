import TapeNet.ProgramText
import TapeNet.Proofs.Text.Numerals

/-! # The grammar of program texts

    Which texts are programs, said without reading them.

    - `Numeral token v`: an optional sign and 1 to 4300 digits of any scripts,
      which stand for `v`, so an integer that can be read can be written as
      well (`Numeral.writable`). `Value piece v`: a numeral that fits in a
      word, with any blank characters around it.
    - `Pieces text pieces`: the stripped text is the pieces with commas
      between them. Every text has exactly one such list (`pieces_iff`).
    - `Refused pieces e`: the first piece that is no value is number
      `e.index`, and what is wrong with it.
    - `parse_exact`: a text that is not blank is read as the values of its
      pieces, or refused for the first piece that is none.
-/

namespace TapeNet.ProgramText

open Text

/-! ### Numerals -/

/-- Digits that stand for a number, at least one and at most 4300 of them. -/
structure Unsigned (cs : List Nat) (n : Nat) : Prop where
  length_pos : 1 ≤ cs.length
  length_le : cs.length ≤ 4300
  value : ∃ ds, List.Forall₂ IsDigit cs ds ∧ n = Nat.ofDigits 10 ds.reverse

/-- Digits behind an optional sign. -/
inductive Numeral : List Nat → Int → Prop
  | plain {cs : List Nat} {n : Nat} (h : Unsigned cs n) : Numeral cs n
  | plus {cs : List Nat} {n : Nat} (h : Unsigned cs n) : Numeral (0x2B :: cs) n
  | minus {cs : List Nat} {n : Nat} (h : Unsigned cs n) : Numeral (0x2D :: cs) (-n)

theorem unsigned?_eq_some_iff {cs : List Nat} {n : Nat} :
    unsigned? cs = some n ↔ Unsigned cs n := by
  unfold unsigned?
  rw [Option.ite_none_left_eq_some, natOfDigits?_eq_some_iff, Bool.or_eq_true, List.isEmpty_iff,
    decide_eq_true_eq, not_or]
  constructor
  · rintro ⟨⟨hne, hle⟩, hvalue⟩
    exact ⟨List.length_pos_iff.mpr hne, Nat.le_of_not_lt hle, hvalue⟩
  · rintro ⟨hpos, hle, hvalue⟩
    exact ⟨⟨List.length_pos_iff.mp hpos, Nat.not_lt.mpr hle⟩, hvalue⟩

/-- A sign is no digit. -/
theorem Unsigned.ne_sign {c : Nat} {cs : List Nat} {n : Nat} (h : Unsigned (c :: cs) n) :
    c ≠ 0x2B ∧ c ≠ 0x2D := by
  have hplus : digitValue? 0x2B = none := by decide
  have hminus : digitValue? 0x2D = none := by decide
  obtain ⟨ds, hds, -⟩ := h.value
  obtain ⟨d, -, hd, -, -⟩ := List.forall₂_cons_left_iff.mp hds
  rw [← digitValue?_eq_some_iff] at hd
  constructor
  · rintro rfl
    cases hplus.symm.trans hd
  · rintro rfl
    cases hminus.symm.trans hd

theorem Unsigned.not_isSpace {c : Nat} {cs : List Nat} {n : Nat} (h : Unsigned cs n)
    (hc : c ∈ cs) : ¬IsSpace c := by
  obtain ⟨ds, hds, -⟩ := h.value
  have hdigits : List.Forall₂ (fun c d => ¬IsSpace c ∧ IsDigit c d) cs ds :=
    hds.imp fun _ _ hd => ⟨not_isSpace_of_isDigit hd, hd⟩
  exact ((List.forall₂_and_left _ _).mp hdigits).1 c hc

theorem Numeral.not_isSpace {c : Nat} {token : List Nat} {v : Int} (h : Numeral token v)
    (hc : c ∈ token) : ¬IsSpace c := by
  cases h with
  | plain h => exact h.not_isSpace hc
  | plus h =>
    rcases List.mem_cons.mp hc with rfl | hc
    · decide
    · exact h.not_isSpace hc
  | minus h =>
    rcases List.mem_cons.mp hc with rfl | hc
    · decide
    · exact h.not_isSpace hc

theorem Unsigned.lt_pow {cs : List Nat} {n : Nat} (h : Unsigned cs n) : n < 10 ^ maxDigits := by
  obtain ⟨ds, hds, rfl⟩ := h.value
  have hdigits : List.Forall₂ (fun d c => d < 10 ∧ IsDigit c d) ds cs :=
    (hds.imp fun _ _ hd => ⟨hd.1, hd⟩).flip
  have hsmall : ∀ d ∈ ds.reverse, d < 10 := by
    intro d hd
    exact ((List.forall₂_and_left _ _).mp hdigits).1 d (List.mem_reverse.mp hd)
  have hlength : ds.reverse.length ≤ maxDigits := by
    rw [List.length_reverse, ← hds.length_eq]
    exact h.length_le
  calc Nat.ofDigits 10 ds.reverse < 10 ^ ds.reverse.length :=
        Nat.ofDigits_lt_base_pow_length (by decide) hsmall
    _ ≤ 10 ^ maxDigits := Nat.pow_le_pow_right (by decide) hlength

/-- An integer that can be read can be written. -/
theorem Numeral.writable {token : List Nat} {v : Int} (h : Numeral token v) :
    Writable (some maxDigits) v := by
  rw [writable_some_iff (by decide)]
  cases h with
  | plain h => exact h.lt_pow
  | plus h => exact h.lt_pow
  | minus h =>
    rw [Int.natAbs_neg]
    exact h.lt_pow

theorem integer?_eq_some_iff {token : List Nat} {v : Int} :
    integer? token = some v ↔ Numeral token v := by
  constructor
  · intro h
    unfold integer? at h
    split at h <;>
      obtain ⟨n, hn, rfl⟩ := Option.map_eq_some_iff.mp h <;>
      rw [unsigned?_eq_some_iff] at hn
    · exact .plus hn
    · exact .minus hn
    · exact .plain hn
  · intro h
    cases h with
    | plus h => exact congrArg (Option.map Int.ofNat) (unsigned?_eq_some_iff.mpr h)
    | minus h =>
      exact congrArg (Option.map fun n : Nat => -(n : Int)) (unsigned?_eq_some_iff.mpr h)
    | plain h =>
      unfold integer?
      split
      · exact absurd rfl h.ne_sign.1
      · exact absurd rfl h.ne_sign.2
      · rw [unsigned?_eq_some_iff.mpr h]
        rfl

/-! ### Values -/

/-- What is wrong with the text of a value. -/
inductive Flawed : List Nat → Flaw → Prop
  | notInteger {token : List Nat} (h : ∀ v, ¬Numeral token v) : Flawed token .notInteger
  | notWord {token : List Nat} {v : Int} (h : Numeral token v) (hv : ¬IsWord v) :
    Flawed token .notWord

theorem wordOf_eq_ok_iff {token : List Nat} {v : Int} :
    wordOf token = .ok v ↔ Numeral token v ∧ IsWord v := by
  rw [← integer?_eq_some_iff]
  unfold wordOf
  cases integer? token with
  | none => simp
  | some w =>
    by_cases hw : IsWord w
    · simp only [if_pos hw, Except.ok.injEq, Option.some.injEq]
      exact ⟨fun h => ⟨h, h ▸ hw⟩, And.left⟩
    · simp only [if_neg hw, Option.some.injEq, reduceCtorEq, false_iff]
      rintro ⟨rfl, hv⟩
      exact hw hv

theorem wordOf_eq_error_iff {token : List Nat} {flaw : Flaw} :
    wordOf token = .error flaw ↔ Flawed token flaw := by
  constructor
  · intro h
    unfold wordOf at h
    split at h
    · next hnone =>
      cases h
      refine .notInteger fun v hv => ?_
      rw [← integer?_eq_some_iff, hnone] at hv
      cases hv
    · next v hsome =>
      split at h
      · cases h
      · next hv =>
        cases h
        exact .notWord (integer?_eq_some_iff.mp hsome) hv
  · intro h
    unfold wordOf
    cases h with
    | notInteger h =>
      have hnone : integer? token = none :=
        Option.eq_none_iff_forall_ne_some.mpr fun v hv => h v (integer?_eq_some_iff.mp hv)
      rw [hnone]
    | notWord h hv =>
      rw [integer?_eq_some_iff.mpr h]
      exact if_neg hv

/-- A piece of a text is the numeral of a word, with any blank characters around it. -/
def Value (piece : List Nat) (v : Int) : Prop :=
  ∃ token, Stripped piece token ∧ Numeral token v ∧ IsWord v

theorem value_iff {piece : List Nat} {v : Int} :
    Value piece v ↔ wordOf (strip piece) = .ok v := by
  rw [wordOf_eq_ok_iff]
  constructor
  · rintro ⟨token, htoken, h⟩
    rwa [strip, trimmed_iff.mp htoken]
  · intro h
    exact ⟨strip piece, trimmed_trim _ _, h⟩

theorem Value.isWord {piece : List Nat} {v : Int} (h : Value piece v) : IsWord v := by
  obtain ⟨token, -, -, hword⟩ := h
  exact hword

/-- The refusal of a text for the first of its pieces that is no value. -/
structure Refused (pieces : List (List Nat)) (e : FormatError) : Prop where
  before : ∀ piece ∈ pieces.take e.index, ∃ v, Value piece v
  piece : ∃ piece, pieces[e.index]? = some piece ∧ Stripped piece e.token
  flawed : Flawed e.token e.flaw

theorem wordsFrom_eq_ok_iff {i : Nat} {pieces : List (List Nat)} {vs : List Int} :
    wordsFrom i pieces = .ok vs ↔ List.Forall₂ Value pieces vs := by
  induction pieces generalizing i vs with
  | nil =>
    rw [List.forall₂_nil_left_iff, wordsFrom, Except.ok.injEq]
    exact eq_comm
  | cons piece pieces ih =>
    rw [List.forall₂_cons_left_iff]
    simp only [value_iff, wordsFrom]
    cases wordOf (strip piece) with
    | error flaw => simp
    | ok v =>
      simp only [← ih (i := i + 1), Except.ok.injEq]
      cases wordsFrom (i + 1) pieces with
      | error e => simp [Except.map]
      | ok ws => simp [Except.map, eq_comm]

/-- A refusal is for the first piece that is no value. -/
theorem refused_of_wordsFrom {i : Nat} {pieces : List (List Nat)} {e : FormatError}
    (h : wordsFrom i pieces = .error e) :
    ∃ j, e.index = i + j ∧ Refused pieces ⟨j, e.token, e.flaw⟩ := by
  induction pieces generalizing i with
  | nil => cases h
  | cons piece pieces ih =>
    rw [wordsFrom] at h
    cases hword : wordOf (strip piece) with
    | error flaw =>
      rw [hword] at h
      cases h
      exact ⟨0, rfl, by simp, ⟨piece, rfl, trimmed_trim _ _⟩, wordOf_eq_error_iff.mp hword⟩
    | ok v =>
      rw [hword] at h
      cases hrest : wordsFrom (i + 1) pieces with
      | ok ws =>
        rw [hrest] at h
        cases h
      | error e' =>
        rw [hrest] at h
        cases h
        obtain ⟨j, hj, hrefused⟩ := ih hrest
        refine ⟨j + 1, by omega, ?_, hrefused.piece, hrefused.flawed⟩
        rw [List.take_succ_cons, List.forall_mem_cons]
        exact ⟨⟨v, value_iff.mpr hword⟩, hrefused.before⟩

/-- The first piece that is no value makes the text be refused. -/
theorem Refused.wordsFrom_eq {i j : Nat} {pieces : List (List Nat)} {token : List Nat}
    {flaw : Flaw} (h : Refused pieces ⟨j, token, flaw⟩) :
    wordsFrom i pieces = .error ⟨i + j, token, flaw⟩ := by
  induction pieces generalizing i j with
  | nil =>
    obtain ⟨piece, hpiece, -⟩ := h.piece
    cases hpiece
  | cons first pieces ih =>
    rw [wordsFrom]
    cases j with
    | zero =>
      obtain ⟨piece, hpiece, hstripped⟩ := h.piece
      obtain rfl : first = piece := Option.some.inj hpiece
      obtain rfl : strip first = token := trimmed_iff.mp hstripped
      rw [wordOf_eq_error_iff.mpr h.flawed]
      rfl
    | succ j =>
      have hbefore := h.before
      rw [List.take_succ_cons, List.forall_mem_cons] at hbefore
      obtain ⟨⟨v, hv⟩, hbefore⟩ := hbefore
      rw [value_iff.mp hv]
      show (wordsFrom (i + 1) pieces).map (v :: ·) = _
      rw [ih ⟨hbefore, h.piece, h.flawed⟩, Nat.add_right_comm]
      rfl

theorem wordsFrom_zero_eq_error_iff {pieces : List (List Nat)} {e : FormatError} :
    wordsFrom 0 pieces = .error e ↔ Refused pieces e := by
  constructor
  · intro h
    obtain ⟨j, hj, hrefused⟩ := refused_of_wordsFrom h
    obtain ⟨i, token, flaw⟩ := e
    obtain rfl : i = j := hj.trans (Nat.zero_add j)
    exact hrefused
  · intro h
    rw [h.wordsFrom_eq, Nat.zero_add]

/-! ### Texts -/

/-- The pieces between the commas of a text, blank characters at its ends apart. -/
structure Pieces (text : List Nat) (pieces : List (List Nat)) : Prop where
  ne_nil : pieces ≠ []
  comma_not_mem : ∀ piece ∈ pieces, 0x2C ∉ piece
  joined : Stripped text ([0x2C].intercalate pieces)

/-- Every text has exactly one list of pieces. -/
theorem pieces_iff {text : List Nat} {pieces : List (List Nat)} :
    Pieces text pieces ↔ (strip text).splitOn 0x2C = pieces := by
  constructor
  · intro h
    rw [strip, trimmed_iff.mp h.joined]
    exact List.splitOn_intercalate 0x2C h.comma_not_mem h.ne_nil
  · rintro rfl
    refine ⟨List.splitOn_ne_nil _ _, fun _ => not_mem_of_mem_splitOn, ?_⟩
    rw [List.intercalate_splitOn]
    exact trimmed_trim _ _

theorem parse_of_blank {text : List Nat} (h : ∀ c ∈ text, IsSpace c) :
    parse text = .ok [] := by
  have hnil : strip text = [] := trim_eq_nil_iff.mpr h
  rw [parse, hnil]

theorem parse_of_not_blank {text : List Nat} (h : ∃ c ∈ text, ¬IsSpace c) :
    parse text = wordsFrom 0 ((strip text).splitOn 0x2C) := by
  have hne : strip text ≠ [] := by
    intro hnil
    obtain ⟨c, hc, hspace⟩ := h
    exact hspace (trim_eq_nil_iff.mp hnil c hc)
  unfold parse
  split
  · next hnil => exact absurd hnil hne
  · rfl

/-- A blank text is the empty program. Any other text has one list of pieces: if all of them are
    values, then these are the program, and otherwise the text is refused for the first piece that is
    none, with its number and what is wrong with it. -/
theorem parse_exact (text : List Nat) :
    ((∀ c ∈ text, IsSpace c) → parse text = .ok []) ∧
    ((∃ c ∈ text, ¬IsSpace c) → ∃ pieces, (∀ ps, Pieces text ps ↔ ps = pieces) ∧
      (∀ vs, parse text = .ok vs ↔ List.Forall₂ Value pieces vs) ∧
      ∀ e, parse text = .error e ↔ Refused pieces e) ∧
    ∀ i token,
      FormatError.message ⟨i, token, .notInteger⟩ =
        s!"value {i}: {Text.quoted token} is not an integer" ∧
      FormatError.message ⟨i, token, .notWord⟩ =
        s!"value {i}: {Text.ofCodes token} does not fit in 64 bits" := by
  refine ⟨parse_of_blank, fun h => ⟨(strip text).splitOn 0x2C, fun ps => ?_, fun vs => ?_,
    fun e => ?_⟩, fun i token => ⟨rfl, rfl⟩⟩
  · rw [pieces_iff, eq_comm]
  · rw [parse_of_not_blank h, wordsFrom_eq_ok_iff]
  · rw [parse_of_not_blank h, wordsFrom_zero_eq_error_iff]

/-- Digits of two scripts and several kinds of blank characters. There is an underscore in the third
    value, and the last one is too large. -/
def mixedText : List Nat := codes "\u2003+007,-\u0663\u0664 ,\t1_0,9223372036854775808\n"

/-- The underscore is reported, as it comes first. -/
theorem mixedText_refused :
    (∃ c ∈ mixedText, ¬IsSpace c) ∧
      parse mixedText = .error ⟨2, codes "1_0", .notInteger⟩ ∧
      ∃ pieces, (∀ ps, Pieces mixedText ps ↔ ps = pieces) ∧
        Refused pieces ⟨2, codes "1_0", .notInteger⟩ := by
  have hdigit : ∃ c ∈ mixedText, ¬IsSpace c := ⟨0x31, by decide, by decide⟩
  have hparse : parse mixedText = .error ⟨2, codes "1_0", .notInteger⟩ := by decide
  obtain ⟨pieces, hpieces, -, herror⟩ := (parse_exact mixedText).2.1 hdigit
  exact ⟨hdigit, hparse, pieces, hpieces, (herror _).mp hparse⟩

end TapeNet.ProgramText
