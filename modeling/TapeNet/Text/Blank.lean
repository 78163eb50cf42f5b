/-! # Blank characters and line breaks

    A text is the list of its characters' codes. So it can also be what a
    machine printed, and hold surrogates that have lost their partners.

    - `isBlank`: white space in the sense of Unicode (bidirectional class
      `WS`, `B` or `S`, or category `Zs`), which takes in the four
      information separators U+001C to U+001F.
    - `isBreak`: the characters that end a line; all of them are blank.
    - `lines` cuts a text at its line breaks, where a carriage return with
      a line feed behind it is one break.
-/

namespace TapeNet.Text

/-- The codes of the characters of a text. -/
def codes (s : String) : List Nat := s.toList.map Char.toNat

/-- The string of some characters. -/
def ofCodes (cs : List Nat) : String := .ofList (cs.map Char.ofNat)

/-- The code that a number is; codes go up to U+10FFFF. -/
def code? : Int → Option Nat
  | .ofNat n => if n ≤ 0x10FFFF then some n else none
  | .negSucc _ => none

/-- White space. -/
def isBlank (c : Nat) : Bool :=
  (0x09 ≤ c && c ≤ 0x0D) || (0x1C ≤ c && c ≤ 0x20) || c == 0x85 || c == 0xA0 || c == 0x1680
    || (0x2000 ≤ c && c ≤ 0x200A) || c == 0x2028 || c == 0x2029 || c == 0x202F || c == 0x205F
    || c == 0x3000

/-- A character that ends a line. -/
def isBreak (c : Nat) : Bool :=
  (0x0A ≤ c && c ≤ 0x0D) || (0x1C ≤ c && c ≤ 0x1E) || c == 0x85 || c == 0x2028 || c == 0x2029

theorem isBlank_of_isBreak {c : Nat} (h : isBreak c = true) : isBlank c = true := by
  simp only [isBreak, isBlank, Bool.or_eq_true, Bool.and_eq_true, decide_eq_true_eq,
    beq_iff_eq] at h ⊢
  omega

/-- A list without the elements of a class at its two ends. -/
def trim {α : Type} (p : α → Bool) (cs : List α) : List α :=
  ((cs.dropWhile p).reverse.dropWhile p).reverse

/-- A text without blank characters at its two ends. -/
def strip (cs : List Nat) : List Nat := trim isBlank cs

/-- The lines of a text; a break at its very end starts no further line. -/
def lines : List Nat → List (List Nat)
  | [] => []
  | 0x0D :: 0x0A :: cs => [] :: lines cs
  | c :: cs =>
    if isBreak c then
      [] :: lines cs
    else
      match lines cs with
      | [] => [[c]]
      | l :: ls => (c :: l) :: ls

/-- A text with every carriage return, and every carriage return with its line feed, made a
    plain line feed. -/
def unifyBreaks : List Nat → List Nat
  | [] => []
  | 0x0D :: 0x0A :: cs => 0x0A :: unifyBreaks cs
  | 0x0D :: cs => 0x0A :: unifyBreaks cs
  | c :: cs => c :: unifyBreaks cs

end TapeNet.Text
