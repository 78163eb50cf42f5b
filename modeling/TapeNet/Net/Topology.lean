import TapeNet.Net.Network

/-! # Topologies

    Ready-made networks:

    - `line`: machines `vm-0 → vm-1 → …`, with the sink `output` on the last
      one, and, for a loop, with the last one wired to the first one as well;
    - `broadcast`: a machine `source` wired to `consumer-0`, `consumer-1`, …,
      each with a sink of its own.
-/

namespace TapeNet.Network

/-- The program and the preloaded inputs of each machine; without preloads, none has any. -/
def pairUp (mismatch : NetworkError) (programs : List (List Int))
    (preloads : Option (List (List Int))) : NetworkM (List (List Int × List Int)) := do
  let preloads := preloads.getD (programs.map fun _ => [])
  if preloads.length ≠ programs.length then throw mismatch
  pure (programs.zip preloads)

/-- Adds machines whose names count up from the given index; the answer is their names. -/
def addMachines (stem : String) (index : Nat) :
    List (List Int × List Int) → NetworkM (List String)
  | [] => pure []
  | (program, inputs) :: rest => do
    let name := s!"{stem}-{index}"
    addMachine name program inputs
    let names ← addMachines stem (index + 1) rest
    pure (name :: names)

/-- Wires each node to the next one. -/
def connectLine : List String → NetworkM Unit
  | a :: b :: rest => do
    connect a [b]
    connectLine (b :: rest)
  | _ => pure ()

/-- Builds a line of machines, or a loop. -/
def line (loop : Bool) (programs : List (List Int)) (preloads : Option (List (List Int))) :
    NetworkM String := do
  if programs.isEmpty then throw .noPrograms
  let names ← addMachines "vm" 0 (← pairUp .unmatchedPreloads programs preloads)
  connectLine names
  let last := names.getLastD ""
  if loop then connect last [names.headD ""]
  addSink last (some "output")

/-- Builds a broadcast; the answer is the sinks' names, in the order of the consumers. -/
def broadcast (source : List Int) (inputs : List Int) (consumers : List (List Int))
    (preloads : Option (List (List Int))) : NetworkM (List String) := do
  if consumers.isEmpty then throw .noConsumers
  let pairs ← pairUp .unmatchedConsumerPreloads consumers preloads
  addMachine "source" source inputs
  let names ← addMachines "consumer" 0 pairs
  connect "source" names
  names.mapM fun name => addSink name none

end TapeNet.Network
