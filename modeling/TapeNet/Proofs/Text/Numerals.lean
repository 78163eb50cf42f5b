import Mathlib.Data.List.Forall2
import Mathlib.Data.List.Pairwise
import Mathlib.Data.Nat.Digits.Defs
import TapeNet.Refusal
import TapeNet.Word
import TapeNet.Proofs.Text.Parts

/-! # Numerals

    What digits stand for, said without reading them from the left.

    - `IsDigit c d`: the character `c` is the digit `d` of some script. A
      character is at most one digit, since the runs of digits do not
      overlap (`digitValue?_eq_some_iff`).
    - `natOfDigits?_eq_some_iff`: the number of a text of digits is the sum of
      the digits, each times its power of ten.
    - `digits_eq_toDigits`: canonical numerals are those of the standard
      library, so a limit on the digits bounds the number
      (`writable_some_iff`). They hold no blank character and no comma
      (`not_isSpace_of_mem_decimal`, `comma_not_mem_decimal`).
-/

namespace TapeNet.Text

/-! ### Digits of all scripts -/

/-- A character is the digit of value `d` in one of the scripts. -/
def IsDigit (c d : Nat) : Prop := d < 10 ∧ ∃ z ∈ digitZeros, c = z + d

/-- A character is in one run of digits at most. -/
theorem eq_of_mem_digitZeros {a b : Nat} (ha : a ∈ digitZeros) (hb : b ∈ digitZeros)
    (hab : a < b + 10) (hba : b < a + 10) : a = b := by
  have : Std.Symm fun a b : Nat => a + 10 ≤ b ∨ b + 10 ≤ a := ⟨fun _ _ => Or.symm⟩
  have happart : digitZeros.Pairwise fun a b => a + 10 ≤ b ∨ b + 10 ≤ a :=
    pairwise_digitZeros.imp Or.inl
  by_contra hne
  have := happart.forall ha hb hne
  omega

theorem digitValue?_eq_some_iff {c d : Nat} : digitValue? c = some d ↔ IsDigit c d := by
  unfold digitValue?
  rw [Option.map_eq_some_iff]
  constructor
  · rintro ⟨z, hfind, rfl⟩
    have hmem := List.mem_of_find?_eq_some hfind
    have hrange := List.find?_some hfind
    simp only [Bool.and_eq_true, decide_eq_true_eq] at hrange
    exact ⟨by omega, z, hmem, by omega⟩
  · rintro ⟨hd, z, hmem, hc⟩
    have hisSome : (digitZeros.find? fun z => z ≤ c && c < z + 10).isSome := by
      rw [List.find?_isSome]
      refine ⟨z, hmem, ?_⟩
      simp only [Bool.and_eq_true, decide_eq_true_eq]
      omega
    obtain ⟨found, hfind⟩ := Option.isSome_iff_exists.mp hisSome
    have hrange := List.find?_some hfind
    simp only [Bool.and_eq_true, decide_eq_true_eq] at hrange
    -- what was found is the run of `c`
    obtain rfl : found = z :=
      eq_of_mem_digitZeros (List.mem_of_find?_eq_some hfind) hmem (by omega) (by omega)
    exact ⟨found, hfind, by omega⟩

theorem not_isSpace_of_isDigit {c d : Nat} (h : IsDigit c d) : ¬IsSpace c := by
  have hruns : ∀ z ∈ digitZeros, ∀ d < 10, ¬isBlank (z + d) := by decide +kernel
  obtain ⟨hd, z, hz, hc⟩ := h
  rw [IsSpace, hc]
  exact hruns z hz d hd

theorem natOfDigitsFrom?_eq_some_iff {acc n : Nat} {cs : List Nat} :
    natOfDigitsFrom? acc cs = some n ↔
      ∃ ds, List.Forall₂ IsDigit cs ds ∧ n = Nat.ofDigits 10 ds.reverse + 10 ^ ds.length * acc := by
  induction cs generalizing acc n with
  | nil => simp [natOfDigitsFrom?, eq_comm]
  | cons c cs ih =>
    have hstep : natOfDigitsFrom? acc (c :: cs) = some n ↔
        ∃ d, IsDigit c d ∧ natOfDigitsFrom? (10 * acc + d) cs = some n := by
      simp only [natOfDigitsFrom?, ← digitValue?_eq_some_iff]
      cases digitValue? c with
      | none => simp
      | some d => simp
    rw [hstep]
    constructor
    · rintro ⟨d, hd, hrest⟩
      obtain ⟨ds, hds, rfl⟩ := ih.mp hrest
      refine ⟨d :: ds, .cons hd hds, ?_⟩
      rw [Nat.ofDigits_reverse_cons, List.length_cons]
      ring
    · rintro ⟨_, hall, rfl⟩
      obtain ⟨d, ds, hd, hds, rfl⟩ := List.forall₂_cons_left_iff.mp hall
      refine ⟨d, hd, ih.mpr ⟨ds, hds, ?_⟩⟩
      rw [Nat.ofDigits_reverse_cons, List.length_cons]
      ring

/-- The number of a text of digits, the last of which counts ones. -/
theorem natOfDigits?_eq_some_iff {n : Nat} {cs : List Nat} :
    natOfDigits? cs = some n ↔
      ∃ ds, List.Forall₂ IsDigit cs ds ∧ n = Nat.ofDigits 10 ds.reverse := by
  rw [natOfDigits?, natOfDigitsFrom?_eq_some_iff]
  rfl

/-! ### Canonical numerals -/

theorem digitCode_eq {d : Nat} (h : d < 10) : digitCode d = d.digitChar.toNat := by
  have h' : ∀ d < 10, digitCode d = d.digitChar.toNat := by decide
  exact h' d h

theorem digits_eq_toDigits (n : Nat) : digits n = (Nat.toDigits 10 n).map Char.toNat := by
  induction n using Nat.strongRecOn with
  | ind n ih =>
    rw [digits, Nat.toDigits_eq_if (by decide)]
    split
    · next h => rw [digitCode_eq h, List.map_singleton]
    · next h =>
      rw [ih (n / 10) (by omega), digitCode_eq (Nat.mod_lt n (by decide)), List.map_append,
        List.map_singleton]

theorem length_digits_le_iff {n k : Nat} (hk : 0 < k) : (digits n).length ≤ k ↔ n < 10 ^ k := by
  rw [digits_eq_toDigits, List.length_map]
  exact Nat.length_toDigits_le_iff (by decide) hk

theorem writable_some_iff {n : Nat} (hn : 0 < n) {v : Int} :
    Writable (some n) v ↔ v.natAbs < 10 ^ n := by
  rw [← length_digits_le_iff hn]
  simp [Writable]

/-- Nineteen digits are enough for a word. -/
theorem writable_of_isWord {v : Int} (h : IsWord v) {n : Nat} (hn : 19 ≤ n) :
    Writable (some n) v := by
  have hpow : 10 ^ 19 ≤ 10 ^ n := Nat.pow_le_pow_right (by decide) hn
  simp only [IsWord, minWord, maxWord] at h
  rw [writable_some_iff (by omega)]
  omega

/-- The digits of an integer, of which its sign is none. -/
theorem decimal_cases (v : Int) :
    (decimal v = digits v.natAbs ∧ v = v.natAbs) ∨
      (decimal v = 0x2D :: digits v.natAbs ∧ v = -(v.natAbs : Int)) := by
  cases v with
  | ofNat n => exact .inl ⟨rfl, rfl⟩
  | negSucc n => exact .inr ⟨rfl, rfl⟩

theorem mem_decimal {v : Int} {c : Nat} (h : c ∈ decimal v) :
    c = 0x2D ∨ 0x30 ≤ c ∧ c ≤ 0x39 := by
  have hdigit : c ∈ digits v.natAbs → 0x30 ≤ c ∧ c ≤ 0x39 := by
    intro hc
    rw [digits_eq_toDigits] at hc
    obtain ⟨d, hd, rfl⟩ := List.mem_map.mp hc
    exact Char.isDigit_iff_toNat.mp (Nat.isDigit_of_mem_toDigits (by decide) (by decide) hd)
  rcases decimal_cases v with ⟨hv, -⟩ | ⟨hv, -⟩ <;> rw [hv] at h
  · exact .inr (hdigit h)
  · rcases List.mem_cons.mp h with hsign | hrest
    · exact .inl hsign
    · exact .inr (hdigit hrest)

theorem not_isSpace_of_mem_decimal {v : Int} {c : Nat} (h : c ∈ decimal v) : ¬IsSpace c := by
  rcases mem_decimal h with rfl | hdigit
  · decide
  · simp only [IsSpace, isBlank, Bool.or_eq_true, Bool.and_eq_true, decide_eq_true_eq, beq_iff_eq]
    omega

theorem comma_not_mem_decimal (v : Int) : 0x2C ∉ decimal v := by
  intro h
  rcases mem_decimal h with hc | hc <;> omega

theorem decimal_ne_nil (v : Int) : decimal v ≠ [] := by
  rcases decimal_cases v with ⟨hv, -⟩ | ⟨hv, -⟩ <;> rw [hv]
  · exact digits_ne_nil _
  · exact List.cons_ne_nil _ _

end TapeNet.Text
