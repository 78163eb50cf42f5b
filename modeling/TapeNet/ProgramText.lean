import TapeNet.Word
import TapeNet.Text.Blank
import TapeNet.Text.Decimal
import TapeNet.Text.Quoted

/-! # Program text

    A program is written as decimal integers with commas between them:

        1,9,10,3,2,3,11,0,99,30,40,50

    Blank characters around the text and around each value are ignored, and
    a text of nothing else is the empty program.

    - `parse` reads a text, and says which value is the first that is no
      integer or does not fit in a word.
    - `format` writes the canonical text.
    - `loadFile` reads a file's bytes: strict UTF-8, any line-break style.

    Texts are given by the codes of their characters; 0x2C is the comma, and
    0x2B and 0x2D are the signs.
-/

namespace TapeNet.ProgramText

/-- A value's text is read only up to this many digits, leading zeros included. -/
def maxDigits : Nat := 4300

/-- What is wrong with the text of a value. -/
inductive Flaw
  | notInteger
  | notWord
deriving DecidableEq, Repr

/-- The refusal of a program text, for the value with the given index and text. -/
structure FormatError where
  index : Nat
  token : List Nat
  flaw : Flaw
deriving DecidableEq, Repr

def FormatError.message (e : FormatError) : String :=
  match e.flaw with
  | .notInteger => s!"value {e.index}: {Text.quoted e.token} is not an integer"
  | .notWord => s!"value {e.index}: {Text.ofCodes e.token} does not fit in 64 bits"

/-- The number of digits alone: at least one, and not too many. -/
def unsigned? (cs : List Nat) : Option Nat :=
  if cs.isEmpty || maxDigits < cs.length then none else Text.natOfDigits? cs

/-- The number of digits behind an optional sign. -/
def integer? : List Nat → Option Int
  | 0x2B :: cs => (unsigned? cs).map Int.ofNat
  | 0x2D :: cs => (unsigned? cs).map fun n : Nat => -(n : Int)
  | cs => (unsigned? cs).map Int.ofNat

/-- The word that a value's text, free of blanks around it, stands for. -/
def wordOf (token : List Nat) : Except Flaw Int :=
  match integer? token with
  | none => .error .notInteger
  | some v => if IsWord v then .ok v else .error .notWord

/-- The words of the values from the one with the given index on. -/
def wordsFrom (index : Nat) : List (List Nat) → Except FormatError (List Int)
  | [] => .ok []
  | piece :: pieces =>
    match wordOf (Text.strip piece) with
    | .error flaw => .error ⟨index, Text.strip piece, flaw⟩
    | .ok v => (wordsFrom (index + 1) pieces).map (v :: ·)

/-- Reads a program text. -/
def parse (text : List Nat) : Except FormatError (List Int) :=
  match Text.strip text with
  | [] => .ok []
  | cs => wordsFrom 0 (cs.splitOn 0x2C)

/-- Writes a program text. -/
def format (program : List Int) : List Nat :=
  [0x2C].intercalate (program.map Text.decimal)

/-! ### Files -/

/-- Why no program can be read from a file. -/
inductive LoadError
  | missing
  | notUtf8
  | format (cause : FormatError)
deriving DecidableEq, Repr

/-- Reads the program text in a file's bytes; `none` stands for a file that does not exist. -/
def loadFile : Option ByteArray → Except LoadError (List Int)
  | none => .error .missing
  | some bytes =>
    match String.fromUTF8? bytes with
    | none => .error .notUtf8
    | some text => (parse (Text.unifyBreaks (Text.codes text))).mapError .format

end TapeNet.ProgramText
