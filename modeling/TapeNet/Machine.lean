import TapeNet.Tape
import TapeNet.Instruction
import TapeNet.Port

/-! # The machine

    One step of a machine fetches the word at the instruction pointer,
    resolves its operands and carries out its effect.

    - `plan` reads the machine and says what its next step is about to do;
      it changes nothing.
    - `Plan.demand` is what that step asks of the port.
    - `carryOut` applies a plan, given the port's reply.

    So a machine is a process that only needs replies: `resume` is a step
    against a given reply, and `step` asks a port for it. A step that fails
    leaves the tape, the instruction pointer and the relative base alone.

    How a refusal ends a run: a closed channel stops the machine gracefully,
    exhausted inputs do so if the configuration says so, and anything else
    is a fault, as are defects of the program. A fault is known by its cause,
    which holds the word or address at fault however long it is to write.
-/

namespace TapeNet

/-! ### State -/

/-- A machine's name, for its reports, and its policy on exhausted inputs. -/
structure Config where
  name : String := "vm"
  haltOnExhaustedInput : Bool := false
deriving DecidableEq, Repr

/-- Where a machine is in its life. -/
inductive Phase
  | ready
  | running
  | halted
deriving DecidableEq, Repr

def Phase.word : Phase → String
  | .ready => "ready"
  | .running => "running"
  | .halted => "halted"

structure Machine where
  config : Config
  tape : Tape
  /-- address of the next instruction word -/
  ip : Nat
  /-- what relative parameters are counted from -/
  base : Int
  /-- instruction words decoded so far -/
  steps : Nat
  phase : Phase
deriving DecidableEq, Repr

/-- Why a machine cannot go on. -/
inductive Fault
  | decode (cause : DecodeError)
  | address (cause : NegativeAddress)
  | port (cause : PortError)
deriving DecidableEq, Repr

def Fault.message : Fault → String
  | .decode cause => cause.message
  | .address cause => cause.message
  | .port cause => cause.message

/-- What became of a step. -/
inductive Outcome
  /-- the machine had halted before -/
  | idle
  | continued
  /-- the halt instruction -/
  | halted
  /-- a graceful halt on a refusal of the port -/
  | stopped (cause : PortError)
  | failed (fault : Fault)
deriving DecidableEq, Repr

/-- What an instruction does once its operands are known. -/
inductive Effect
  | store (address value : Int)
  | input (address : Int)
  | output (value : Int)
  | jump (target : Int)
  | adjust (offset : Int)
  | proceed
  | halt
deriving DecidableEq, Repr

/-- What the next step of a machine is about to do. -/
inductive Plan
  | idle
  /-- the word at the instruction pointer is no instruction -/
  | undecodable (cause : DecodeError)
  /-- the instruction is known, but an operand or its target cannot be resolved -/
  | unresolved (fault : Fault)
  | perform (length : Nat) (effect : Effect)
deriving DecidableEq, Repr

namespace Machine

/-- A fresh machine on a tape. -/
def onTape (config : Config) (tape : Tape) : Machine :=
  { config, tape, ip := 0, base := 0, steps := 0, phase := .ready }

/-- A fresh machine on a program. -/
def load (config : Config) (program : List Int) : Machine :=
  onTape config (.ofList program)

def isHalted (m : Machine) : Bool := m.phase == .halted

/-! ### Reading an instruction -/

/-- The word at the instruction pointer. -/
def word (m : Machine) : Int := m.tape.get m.ip

/-- The parameter in a slot, as it stands on the tape. -/
def parameter (m : Machine) (slot : Slot) : Int := m.tape.get (m.ip + 1 + slot.index)

/-- The value at an address. -/
def fetch (m : Machine) (address : Int) : Except Fault Int :=
  (m.tape.fetch address).mapError .address

/-- The value of an operand. -/
def operand (m : Machine) (modes : Modes) (slot : Slot) : Except Fault Int :=
  match modes.at slot with
  | .position => m.fetch (m.parameter slot)
  | .immediate => .ok (m.parameter slot)
  | .relative => m.fetch (m.parameter slot + m.base)

/-- The address that an instruction writes to. -/
def target (m : Machine) (modes : Modes) (slot : Slot) : Except Fault Int :=
  match modes.at slot with
  | .position => .ok (m.parameter slot)
  | .immediate => .error (.decode ⟨m.word, .immediateTarget slot⟩)
  | .relative => .ok (m.parameter slot + m.base)

/-- An instruction that stores a function of its first two operands through its third. -/
def combine (m : Machine) (modes : Modes) (f : Int → Int → Int) : Except Fault Effect := do
  let a ← m.operand modes .first
  let b ← m.operand modes .second
  let t ← m.target modes .third
  pure (.store t (f a b))

/-- A jump to the second operand if the first one passes the test. -/
def branch (m : Machine) (modes : Modes) (taken : Int → Bool) : Except Fault Effect := do
  let a ← m.operand modes .first
  if taken a then
    let t ← m.operand modes .second
    pure (.jump t)
  else
    pure .proceed

/-- The effect of an instruction on this machine. -/
def effect (m : Machine) (i : Instruction) : Except Fault Effect :=
  match i.opcode with
  | .add => m.combine i.modes (· + ·)
  | .multiply => m.combine i.modes (· * ·)
  | .lessThan => m.combine i.modes fun a b => if a < b then 1 else 0
  | .equals => m.combine i.modes fun a b => if a = b then 1 else 0
  | .input => do pure (.input (← m.target i.modes .first))
  | .output => do pure (.output (← m.operand i.modes .first))
  | .jumpIfTrue => m.branch i.modes (· != 0)
  | .jumpIfFalse => m.branch i.modes (· == 0)
  | .adjustBase => do pure (.adjust (← m.operand i.modes .first))
  | .halt => pure .halt

/-- What the next step is about to do. -/
def plan (m : Machine) : Plan :=
  match m.phase with
  | .halted => .idle
  | _ =>
    match Instruction.ofWord m.word with
    | .error cause => .undecodable cause
    | .ok i =>
      match m.effect i with
      | .error fault => .unresolved fault
      | .ok effect => .perform i.opcode.length effect

end Machine

/-- What a planned step asks of the port. -/
def Plan.demand : Plan → Demand
  | .perform _ (.input _) => .get
  | .perform _ (.output v) => .put v
  | _ => .silent

namespace Machine

/-! ### Carrying out a plan -/

/-- The machine once its word is decoded: running, with one more step counted. -/
def counted (m : Machine) : Machine :=
  { m with steps := m.steps + 1, phase := .running }

/-- Moves past the instruction. -/
def advance (m : Machine) (length : Nat) : Outcome × Machine :=
  (.continued, { m with ip := m.ip + length })

/-- Writes to a machine's tape; a refused write changes nothing. -/
def poke (m : Machine) (address value : Int) : Except NegativeAddress Unit × Machine :=
  let (r, tape) := m.tape.store address value
  (r, { m with tape := tape })

/-- Writes a value and moves past the instruction. -/
def store (m : Machine) (length : Nat) (address value : Int) : Outcome × Machine :=
  match m.poke address value with
  | (.ok (), m) => m.advance length
  | (.error e, m) => (.failed (.address e), m)

/-- Goes to an address. -/
def jump (m : Machine) : Int → Outcome × Machine
  | .ofNat a => (.continued, { m with ip := a })
  | .negSucc n => (.failed (.address ⟨.negSucc n⟩), m)

/-- Whether a refusal is a normal end of the machine's run. -/
def isGraceful (m : Machine) : PortError → Bool
  | .closed _ => true
  | .exhausted => m.config.haltOnExhaustedInput
  | _ => false

/-- Takes a refusal of the port. -/
def refused (m : Machine) (cause : PortError) : Outcome × Machine :=
  if m.isGraceful cause then
    (.stopped cause, { m with phase := .halted })
  else
    (.failed (.port cause), m)

/-- Applies an effect, given the port's reply to it. -/
def apply (m : Machine) (length : Nat) (effect : Effect) (reply : Reply) : Outcome × Machine :=
  match effect with
  | .store address value => m.store length address value
  | .input address =>
    match reply with
    | .ok value => m.store length address value
    | .error cause => m.refused cause
  | .output _ =>
    match reply with
    | .ok _ => m.advance length
    | .error cause => m.refused cause
  | .jump t => m.jump t
  | .adjust offset => { m with base := m.base + offset }.advance length
  | .proceed => m.advance length
  | .halt => (.halted, { m with phase := .halted })

/-- Applies a plan, given the port's reply to what it demands. -/
def carryOut (m : Machine) (p : Plan) (reply : Reply) : Outcome × Machine :=
  match p with
  | .idle => (.idle, m)
  | .undecodable cause => (.failed (.decode cause), { m with phase := .running })
  | .unresolved fault => (.failed fault, m.counted)
  | .perform length effect => m.counted.apply length effect reply

/-! ### Steps and runs -/

/-- What the next step asks of the port. -/
def demand (m : Machine) : Demand := m.plan.demand

/-- One step against a given reply. -/
def resume (m : Machine) (reply : Reply) : Outcome × Machine := m.carryOut m.plan reply

variable {σ : Type}

/-- One step against a port. -/
def step (P : Port σ) (m : Machine) (s : σ) : Outcome × Machine × σ :=
  let p := m.plan
  let (reply, s) := P.answer p.demand s
  let (outcome, m) := m.carryOut p reply
  (outcome, m, s)

/-- A given number of steps, or fewer if the machine halts or fails. -/
def stepTimes (P : Port σ) : Nat → Machine → σ → Outcome × Machine × σ
  | 0, m, s => (.continued, m, s)
  | n + 1, m, s =>
    match m.step P s with
    | (.continued, m, s) => m.stepTimes P n s
    | ended => ended

/-- Steps until the machine has halted or failed, and closes the port then; `none` if the
    fuel runs out before. -/
def run (P : Port σ) : Nat → Machine → σ → Option (Outcome × Machine × σ)
  | 0, _, _ => none
  | fuel + 1, m, s =>
    match m.step P s with
    | (.continued, m, s) => m.run P fuel s
    | (outcome, m, s) => some (outcome, m, P.close s)

theorem step_eq (P : Port σ) (m : Machine) (s : σ) :
    m.step P s = ((m.resume (P.answer m.demand s).1).1, (m.resume (P.answer m.demand s).1).2,
      (P.answer m.demand s).2) := rfl

/-- The end of a run: the machine and its port, or the fault that broke it off. -/
def finish (P : Port σ) (fuel : Nat) (m : Machine) (s : σ) : ExceptT Fault Option (Machine × σ) :=
  match m.run P fuel s with
  | none => none
  | some (.failed fault, _, _) => some (.error fault)
  | some (_, m, s) => some (.ok (m, s))

theorem resume_of_halted {m : Machine} (h : m.phase = .halted) (reply : Reply) :
    m.resume reply = (.idle, m) := by
  simp [resume, plan, h, carryOut]

theorem demand_of_halted {m : Machine} (h : m.phase = .halted) : m.demand = .silent := by
  simp [demand, plan, h, Plan.demand]

/-- A machine that has halted leaves itself and its port alone. -/
theorem step_of_halted (P : Port σ) {m : Machine} (h : m.phase = .halted) (s : σ) :
    m.step P s = (.idle, m, s) := by
  rw [step_eq, resume_of_halted h, demand_of_halted h]
  rfl

/-- More fuel does not change the end of a run. -/
theorem run_add (P : Port σ) {fuel : Nat} (extra : Nat) {m : Machine} {s : σ}
    {result : Outcome × Machine × σ} (h : m.run P fuel s = some result) :
    m.run P (fuel + extra) s = some result := by
  induction fuel generalizing m s with
  | zero => cases h
  | succ fuel ih =>
    rw [Nat.succ_add, run]
    rw [run] at h
    split at h
    · exact ih h
    · exact h

/-! ### Traces -/

/-- What a trace notes after a step. -/
structure Mark where
  ip : Nat
  base : Int
  size : Nat
deriving DecidableEq, Repr

def mark (m : Machine) : Mark := ⟨m.ip, m.base, m.tape.size⟩

/-- At most a number of steps, up to a halt or a failure, with a mark for each appended. -/
def trace (P : Port σ) : Nat → Array Mark → Machine → σ → Array Mark × Outcome × Machine × σ
  | 0, marks, m, s => (marks, .continued, m, s)
  | n + 1, marks, m, s =>
    match m.step P s with
    | (.continued, m, s) => trace P n (marks.push m.mark) m s
    | (outcome, m, s) => (marks.push m.mark, outcome, m, s)

/-! ### Reports -/

/-- The lines a machine reports as a step or a run ends. -/
def report (m : Machine) : Outcome → List String
  | .halted => [s!"{m.config.name} halted after {m.steps} steps"]
  | .stopped cause =>
    [s!"{m.config.name} stopping at ip={m.ip}: {cause.message}",
      s!"{m.config.name} halted after {m.steps} steps"]
  | _ => []

end Machine

/-- The outputs of a program run on preset inputs, or the fault that broke it off. -/
def runProgram (fuel : Nat) (program inputs : List Int) : ExceptT Fault Option (List Int) := do
  let (_, buffer) ← (Machine.load {} program).finish Buffer.port fuel (.ofInputs inputs)
  pure buffer.outputs.toList

end TapeNet
