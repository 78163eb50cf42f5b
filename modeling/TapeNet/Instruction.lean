import TapeNet.Refusal

/-! # Instruction words

    An instruction word packs an opcode into its two lowest decimal digits
    and a parameter mode per operand slot into the three digits above:

        ABCDE
         1002   DE = 02 (multiply), C = 0, B = 1, A = 0

    Leading digits that are missing are position modes, and digits above the
    mode field carry no meaning.

    - `ofWord` reads a word, naming the first defect it meets: a negative
      word, then the opcode, then the modes from the first slot on.
    - `decode` is the same where the refusal is raised with its message,
      which names the word.
    - `encode` writes an instruction, with any digits above the mode field.
    - `ofWord_encode`: what was written is read back.
-/

namespace TapeNet

/-! ### Opcodes -/

/-- The instruction set. -/
inductive Opcode
  | add
  | multiply
  | input
  | output
  | jumpIfTrue
  | jumpIfFalse
  | lessThan
  | equals
  | adjustBase
  | halt
deriving DecidableEq, Repr

namespace Opcode

/-- The two lowest digits of the instruction word. -/
def code : Opcode → Nat
  | add => 1
  | multiply => 2
  | input => 3
  | output => 4
  | jumpIfTrue => 5
  | jumpIfFalse => 6
  | lessThan => 7
  | equals => 8
  | adjustBase => 9
  | halt => 99

def ofCode? : Nat → Option Opcode
  | 1 => some add
  | 2 => some multiply
  | 3 => some input
  | 4 => some output
  | 5 => some jumpIfTrue
  | 6 => some jumpIfFalse
  | 7 => some lessThan
  | 8 => some equals
  | 9 => some adjustBase
  | 99 => some halt
  | _ => none

/-- Cells an instruction takes, its own word included. -/
def length : Opcode → Nat
  | add | multiply | lessThan | equals => 4
  | jumpIfTrue | jumpIfFalse => 3
  | input | output | adjustBase => 2
  | halt => 1

def mnemonic : Opcode → String
  | add => "ADD"
  | multiply => "MULTIPLY"
  | input => "INPUT"
  | output => "OUTPUT"
  | jumpIfTrue => "JUMP_IF_TRUE"
  | jumpIfFalse => "JUMP_IF_FALSE"
  | lessThan => "LESS_THAN"
  | equals => "EQUALS"
  | adjustBase => "ADJUST_RELATIVE_BASE"
  | halt => "HALT"

@[simp] theorem ofCode?_code (o : Opcode) : ofCode? o.code = some o := by
  cases o <;> rfl

theorem code_of_ofCode? {n : Nat} {o : Opcode} (h : ofCode? n = some o) : o.code = n := by
  unfold ofCode? at h
  split at h <;> cases h <;> rfl

theorem code_lt (o : Opcode) : o.code < 100 := by
  cases o <;> decide

end Opcode

/-! ### Parameter modes -/

/-- How an operand is found. -/
inductive Mode
  /-- the cell that the parameter names -/
  | position
  /-- the parameter itself -/
  | immediate
  /-- the cell that lies the parameter's value away from the relative base -/
  | relative
deriving DecidableEq, Repr

namespace Mode

def digit : Mode → Nat
  | position => 0
  | immediate => 1
  | relative => 2

def ofDigit? : Nat → Option Mode
  | 0 => some position
  | 1 => some immediate
  | 2 => some relative
  | _ => none

def mnemonic : Mode → String
  | position => "POSITION"
  | immediate => "IMMEDIATE"
  | relative => "RELATIVE"

@[simp] theorem ofDigit?_digit (m : Mode) : ofDigit? m.digit = some m := by
  cases m <;> rfl

theorem digit_of_ofDigit? {n : Nat} {m : Mode} (h : ofDigit? n = some m) : m.digit = n := by
  unfold ofDigit? at h
  split at h <;> cases h <;> rfl

theorem digit_lt (m : Mode) : m.digit < 3 := by
  cases m <;> decide

end Mode

/-- An operand slot of an instruction. -/
inductive Slot
  | first
  | second
  | third
deriving DecidableEq, Repr

namespace Slot

/-- The number of operand slots before this one. -/
def index : Slot → Nat
  | first => 0
  | second => 1
  | third => 2

/-- The place value of this slot's mode digit in an instruction word. -/
def weight : Slot → Nat
  | first => 100
  | second => 1000
  | third => 10000

end Slot

/-- A mode for each operand slot. -/
structure Modes where
  first : Mode
  second : Mode
  third : Mode
deriving DecidableEq, Repr

/-- The mode of a slot. -/
def Modes.at (m : Modes) : Slot → Mode
  | .first => m.first
  | .second => m.second
  | .third => m.third

def Modes.toList (m : Modes) : List Mode := [m.first, m.second, m.third]

/-! ### Decoding and encoding -/

/-- A decoded instruction word. -/
structure Instruction where
  opcode : Opcode
  modes : Modes
deriving DecidableEq, Repr

/-- What is wrong with an instruction word. -/
inductive Defect
  | negativeWord
  | unknownOpcode (code : Nat)
  | unknownMode (slot : Slot) (digit : Nat)
  /-- the instruction writes to a parameter in immediate mode -/
  | immediateTarget (slot : Slot)
deriving DecidableEq, Repr

/-- The refusal of an instruction word. -/
structure DecodeError where
  word : Int
  defect : Defect
deriving DecidableEq, Repr

def Defect.message : Defect → String
  | .negativeWord => "negative instruction word"
  | .unknownOpcode code => s!"unknown opcode {code}"
  | .unknownMode slot digit => s!"unknown mode {digit} for parameter {slot.index + 1}"
  | .immediateTarget slot => s!"parameter {slot.index + 1} is a write target in immediate mode"

def DecodeError.message (e : DecodeError) : String :=
  s!"cannot decode instruction {e.word}: {e.defect.message}"

namespace Instruction

/-- The mode that a word holds for a slot. -/
def modeOf (word : Nat) (slot : Slot) : Except Defect Mode :=
  match Mode.ofDigit? (word / slot.weight % 10) with
  | some mode => .ok mode
  | none => .error (.unknownMode slot (word / slot.weight % 10))

/-- The instruction in the digits of a word. -/
def ofDigits (word : Nat) : Except Defect Instruction :=
  match Opcode.ofCode? (word % 100) with
  | none => .error (.unknownOpcode (word % 100))
  | some opcode => do
    let first ← modeOf word .first
    let second ← modeOf word .second
    let third ← modeOf word .third
    pure ⟨opcode, ⟨first, second, third⟩⟩

/-- The instruction in a word, or the cause for which the word is refused. -/
def ofWord : Int → Except DecodeError Instruction
  | .ofNat word => (ofDigits word).mapError (⟨.ofNat word, ·⟩)
  | .negSucc n => .error ⟨.negSucc n, .negativeWord⟩

/-- Reads an instruction word, where numbers are written in as many digits as `limit` says. -/
def decode (limit : Option Nat) (word : Int) : Except (Refusal DecodeError) Instruction :=
  (ofWord word).mapError (Refusal.of limit word)

/-- The word of an instruction, with the digits of `above` over the mode field. -/
def encode (i : Instruction) (above : Nat) : Nat :=
  i.opcode.code + 100 * i.modes.first.digit + 1000 * i.modes.second.digit
    + 10000 * i.modes.third.digit + 100000 * above

theorem modeOf_encode (i : Instruction) (above : Nat) (slot : Slot) :
    modeOf (i.encode above) slot = .ok (i.modes.at slot) := by
  have h0 := i.opcode.code_lt
  have h1 := i.modes.first.digit_lt
  have h2 := i.modes.second.digit_lt
  have h3 := i.modes.third.digit_lt
  have hd : i.encode above / slot.weight % 10 = (i.modes.at slot).digit := by
    cases slot <;> simp only [encode, Slot.weight, Modes.at] <;> omega
  simp [modeOf, hd]

theorem ofDigits_encode (i : Instruction) (above : Nat) :
    ofDigits (i.encode above) = .ok i := by
  have h0 := i.opcode.code_lt
  have hc : i.encode above % 100 = i.opcode.code := by
    simp only [encode]; omega
  simp only [ofDigits, hc, Opcode.ofCode?_code, modeOf_encode]
  rfl

/-- What was written is read back. -/
theorem ofWord_encode (i : Instruction) (above : Nat) :
    ofWord (i.encode above : Nat) = .ok i := by
  show (ofDigits (i.encode above)).mapError _ = _
  rw [ofDigits_encode]
  rfl

end Instruction

end TapeNet
