/-! # Decimal digits

    The decimal digits of all scripts (Unicode general category `Nd`). They
    come in runs of ten consecutive code points that stand for 0 to 9, so
    the table holds the zero of each run.

    `natOfDigits?` reads a number from digits of any scripts, mixed freely.
-/

namespace TapeNet.Text

/-- The zero of each script's run of decimal digits. -/
def digitZeros : List Nat :=
  [
    0x0030, 0x0660, 0x06F0, 0x07C0, 0x0966, 0x09E6, 0x0A66, 0x0AE6,
    0x0B66, 0x0BE6, 0x0C66, 0x0CE6, 0x0D66, 0x0DE6, 0x0E50, 0x0ED0,
    0x0F20, 0x1040, 0x1090, 0x17E0, 0x1810, 0x1946, 0x19D0, 0x1A80,
    0x1A90, 0x1B50, 0x1BB0, 0x1C40, 0x1C50, 0xA620, 0xA8D0, 0xA900,
    0xA9D0, 0xA9F0, 0xAA50, 0xABF0, 0xFF10, 0x104A0, 0x10D30, 0x11066,
    0x110F0, 0x11136, 0x111D0, 0x112F0, 0x11450, 0x114D0, 0x11650, 0x116C0,
    0x11730, 0x118E0, 0x11950, 0x11C50, 0x11D50, 0x11DA0, 0x16A60, 0x16AC0,
    0x16B50, 0x1D7CE, 0x1D7D8, 0x1D7E2, 0x1D7EC, 0x1D7F6, 0x1E140, 0x1E2F0,
    0x1E950, 0x1FBF0
  ]

/-- The value of a decimal digit of any script. -/
def digitValue? (c : Nat) : Option Nat :=
  (digitZeros.find? fun z => z ≤ c && c < z + 10).map (c - ·)

/-- The number whose digits, after those that stand for `acc`, are `cs`. -/
def natOfDigitsFrom? (acc : Nat) : List Nat → Option Nat
  | [] => some acc
  | c :: cs =>
    match digitValue? c with
    | some d => natOfDigitsFrom? (10 * acc + d) cs
    | none => none

/-- The number that a text of digits stands for; `none` where another character occurs. -/
def natOfDigits? (cs : List Nat) : Option Nat := natOfDigitsFrom? 0 cs

/-- The runs do not overlap. -/
theorem pairwise_digitZeros : digitZeros.Pairwise (· + 10 ≤ ·) := by decide

example : digitZeros.length = 66 := rfl
example : natOfDigits? [0x34, 0x0660, 0x37] = some 407 := by decide

end TapeNet.Text
