/-! # Words

    A tape holds words: integers that fit in 64 bits, two's complement.
    Every other number of a machine (addresses, the relative base, sums
    before they are stored, values on a port) is an unbounded integer.

    - `wrap v` is the word that agrees with `v` modulo `2 ^ 64`.
    - `wrap_eq_self`: a word is left alone; `isWord_wrap`: the result is one.
-/

namespace TapeNet

/-- The number of words, which is `2 ^ 64`. -/
def wordCount : Nat := 18446744073709551616

/-- The largest word, which is `2 ^ 63 - 1`. -/
def maxWord : Int := 9223372036854775807

/-- The smallest word, which is `-2 ^ 63`. -/
def minWord : Int := -9223372036854775808

/-- Whether an integer fits in 64 bits, two's complement. -/
def IsWord (v : Int) : Prop := minWord ≤ v ∧ v ≤ maxWord

instance (v : Int) : Decidable (IsWord v) :=
  inferInstanceAs (Decidable (_ ∧ _))

/-- The word that agrees with `v` modulo `2 ^ 64`. -/
def wrap (v : Int) : Int := v.bmod wordCount

/-- The remainder of `v`, moved down by `2 ^ 64` if it is more than the largest word. -/
theorem wrap_eq (v : Int) :
    wrap v =
      if v % 18446744073709551616 < 9223372036854775808 then v % 18446744073709551616
      else v % 18446744073709551616 - 18446744073709551616 := rfl

theorem isWord_wrap (v : Int) : IsWord (wrap v) := by
  rw [wrap_eq]
  simp only [IsWord, minWord, maxWord]
  omega

theorem wrap_eq_self {v : Int} (h : IsWord v) : wrap v = v := by
  simp only [IsWord, minWord, maxWord] at h
  rw [wrap_eq]
  omega

@[simp] theorem wrap_wrap (v : Int) : wrap (wrap v) = wrap v :=
  wrap_eq_self (isWord_wrap v)

@[simp] theorem wrap_zero : wrap 0 = 0 := by decide

theorem wrap_add_wrap (v w : Int) : wrap (wrap v + w) = wrap (v + w) := Int.bmod_add_bmod

theorem wrap_add_wrap_right (v w : Int) : wrap (v + wrap w) = wrap (v + w) := Int.add_bmod_bmod

theorem wrap_mul_wrap (v w : Int) : wrap (wrap v * w) = wrap (v * w) := Int.bmod_mul_bmod

/-- Two integers wrap to the same word if and only if they agree modulo `2 ^ 64`. -/
theorem wrap_eq_wrap_iff {v w : Int} : wrap v = wrap w ↔ v % wordCount = w % wordCount := by
  rw [wrap_eq, wrap_eq, wordCount]
  omega

end TapeNet
