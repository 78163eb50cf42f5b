import TapeNet.Text.Digit

/-! # Decimal numerals

    The canonical numeral of an integer: ASCII digits without leading zeros,
    behind a minus sign if the integer is negative.

    - `natOfDigits?_digits`: the digits of a number stand for it.
    - `digits_ne_nil`: every number has a digit.
-/

namespace TapeNet.Text

/-- The code of the ASCII digit of a number below ten. -/
def digitCode (d : Nat) : Nat := 0x30 + d

/-- The digits of a number, the most significant first. -/
def digits (n : Nat) : List Nat :=
  if n < 10 then [digitCode n] else digits (n / 10) ++ [digitCode (n % 10)]

/-- The canonical numeral of an integer. -/
def decimal : Int → List Nat
  | .ofNat n => digits n
  | .negSucc n => 0x2D :: digits (n + 1)

theorem digitValue?_digitCode {d : Nat} (h : d < 10) : digitValue? (digitCode d) = some d := by
  have h' : ∀ d < 10, digitValue? (digitCode d) = some d := by decide
  exact h' d h

theorem natOfDigitsFrom?_append (acc : Nat) (cs ds : List Nat) :
    natOfDigitsFrom? acc (cs ++ ds) =
      (natOfDigitsFrom? acc cs).bind (natOfDigitsFrom? · ds) := by
  induction cs generalizing acc with
  | nil => rfl
  | cons c cs ih =>
    simp only [List.cons_append, natOfDigitsFrom?]
    cases digitValue? c with
    | none => rfl
    | some d => exact ih _

/-- The digits of a number stand for it. -/
theorem natOfDigits?_digits (n : Nat) : natOfDigits? (digits n) = some n := by
  induction n using Nat.strongRecOn with
  | ind n ih =>
    unfold digits
    split
    · next h => simp [natOfDigits?, natOfDigitsFrom?, digitValue?_digitCode h]
    · next h =>
      have h1 : natOfDigitsFrom? 0 (digits (n / 10)) = some (n / 10) := ih _ (by omega)
      have h2 : digitValue? (digitCode (n % 10)) = some (n % 10) :=
        digitValue?_digitCode (by omega)
      rw [natOfDigits?, natOfDigitsFrom?_append, h1]
      simp only [Option.bind_some, natOfDigitsFrom?, h2]
      congr 1
      omega

theorem digits_ne_nil (n : Nat) : digits n ≠ [] := by
  unfold digits
  split <;> simp

end TapeNet.Text
