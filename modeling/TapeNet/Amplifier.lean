import TapeNet.Net.Topology

/-! # Amplifier circuits

    A circuit is a line of copies of one program. Each amplifier reads its
    phase setting first, then signals, and prints amplified signals.

    - In a chain the signal passes once.
    - In a feedback loop the last amplifier also feeds the first one, and the
      last signal before all have halted counts.
    - `best` tries every ordering of the phase settings.
-/

namespace TapeNet.Amplifier

inductive CircuitError
  | noPhases
  | network (cause : NetworkError)
deriving DecidableEq, Repr

def CircuitError.message : CircuitError → String
  | .noPhases => "need at least one phase setting"
  | .network cause => cause.message

/-- The inputs of the amplifiers: their phases, and the signal for the first one. -/
def preloads (signal : Int) : List Int → List (List Int)
  | [] => []
  | phase :: phases => [phase, signal] :: phases.map ([·])

/-- The network of a circuit. -/
def circuit (loop : Bool) (program phases : List Int) (signal : Int) :
    Except NetworkError String × Network :=
  (Network.line loop (phases.map fun _ => program) (some (preloads signal phases))).run
    (.empty none)

/-- The last signal of a circuit. -/
def run (fuel : Nat) (loop : Bool) (program phases : List Int) (signal : Int) :
    ExceptT CircuitError Option Int :=
  if phases.isEmpty then
    throw .noPhases
  else
    match circuit loop program phases signal with
    | (.error e, _) => throw (.network e)
    | (.ok sink, net) =>
      match net.run fuel with
      | none => none
      | some (.error e, _) => throw (.network e)
      | some (.ok (), net) => some ((net.last sink).1.mapError .network)

/-! ### Orderings -/

/-- Each element of a list, with the others in their order. -/
def picks {α : Type} : List α → List (α × List α)
  | [] => []
  | x :: xs => (x, xs) :: (picks xs).map fun (y, ys) => (y, x :: ys)

/-- The ways to pick a number of elements, one after the other. -/
def arrangements {α : Type} : Nat → List α → List (List α)
  | 0, _ => [[]]
  | n + 1, xs => (picks xs).flatMap fun (x, rest) => (arrangements n rest).map (x :: ·)

/-- All orderings of a list, in the lexicographic order of positions. -/
def orderings {α : Type} (xs : List α) : List (List α) := arrangements xs.length xs

/-- The better of the best result so far and a new one; of equals, the earlier. -/
def better (best : Option (Int × List Int)) (signal : Int) (phases : List Int) :
    Int × List Int :=
  match best with
  | none => (signal, phases)
  | some (s, ps) => if s < signal then (signal, phases) else (s, ps)

/-- The first maximum of a function over lists of phases, after the best result so far. -/
def firstMax {ε : Type} (f : List Int → ExceptT ε Option Int) :
    Option (Int × List Int) → List (List Int) → ExceptT ε Option (Option (Int × List Int))
  | best, [] => pure best
  | best, phases :: rest => do
    let signal ← f phases
    firstMax f (some (better best signal phases)) rest

/-- The largest last signal over all orderings of the phases, and the first ordering that
    reaches it. -/
def best (fuel : Nat) (loop : Bool) (program phases : List Int) :
    ExceptT CircuitError Option (Int × List Int) := do
  match ← firstMax (run fuel loop program · 0) none (orderings phases) with
  | some result => pure result
  | none => throw .noPhases

end TapeNet.Amplifier
