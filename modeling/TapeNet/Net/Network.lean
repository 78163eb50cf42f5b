import TapeNet.Text.Quoted
import TapeNet.Net.Station
import TapeNet.Net.Relay

/-! # Networks

    A network is a directed graph of machines. Every node has an inbox, which
    is fed by preloaded values and by the relays of other nodes, and an
    outbox, which its own relay empties. Results are collected in sinks.

        chain       a → b → c
        broadcast   a → b, a → c, a → sink
        feedback    a → b → … → e → a

    - A network is built step by step (`addMachine`, `feed`, `connect`,
      `addSink`); a step that fails changes nothing, but that `connect` keeps
      the targets before the unknown one.
    - `run` preloads the inboxes, runs one worker per machine and one per
      relay, and then reports a fault of a machine if there was one. A
      network runs once.
-/

namespace TapeNet

/-! ### State -/

/-- A machine and the endpoints it is wired with. -/
structure Node where
  name : String
  machine : Machine
  /-- the channel that the machine reads from -/
  inbox : Nat
  /-- the sender that the machine writes with -/
  outlet : Nat
  /-- the sender to the inbox that preloads use, and that connections clone -/
  feed : Nat
  relay : Relay
  preload : List Int
deriving DecidableEq, Repr

/-- A channel for results, and the results taken from it so far. -/
structure Sink where
  name : String
  channel : Nat
  collected : List Int
deriving DecidableEq, Repr

structure Network where
  /-- the most workers allowed to run at once; 0 sets no limit either -/
  maxWorkers : Option Int
  board : Switchboard
  /-- in the order of their creation -/
  nodes : List Node
  /-- in the order of their creation -/
  sinks : List Sink
  started : Bool
deriving DecidableEq, Repr

/-- Why a network cannot be built or run. -/
inductive NetworkError
  | alreadyRun
  | duplicateNode (name : String)
  | duplicateSink (name : String)
  | unknownNode (name : String)
  | noTargets
  | noMachines
  | tooFewWorkers (allowed : Int) (needed : Nat)
  | noPrograms
  | unmatchedPreloads
  | noConsumers
  | unmatchedConsumerPreloads
  /-- nothing has arrived in a sink -/
  | noValues (sink : String)
  /-- a machine failed -/
  | fault (cause : Fault)
deriving DecidableEq, Repr

namespace NetworkError

def quoted (name : String) : String := Text.quoted (Text.codes name)

def message : NetworkError → String
  | .alreadyRun => "network has already been run"
  | .duplicateNode name => "duplicate node name " ++ quoted name
  | .duplicateSink name => "duplicate sink name " ++ quoted name
  | .unknownNode name => "unknown node " ++ quoted name
  | .noTargets => "connect() needs at least one target"
  | .noMachines => "network has no machines"
  | .tooFewWorkers allowed needed =>
    s!"max_workers={allowed} is below the {needed} workers this network runs"
  | .noPrograms => "need at least one program"
  | .unmatchedPreloads => "preloads must match programs one to one"
  | .noConsumers => "need at least one consumer"
  | .unmatchedConsumerPreloads => "consumer_preloads must match consumer_programs one to one"
  | .noValues sink => s!"sink {sink} received no values"
  | .fault cause => cause.message

end NetworkError

/-- An operation on a network; what it did before it failed is kept. -/
abbrev NetworkM := ExceptT NetworkError (StateM Network)

namespace Network

def empty (maxWorkers : Option Int) : Network :=
  { maxWorkers, board := .empty, nodes := [], sinks := [], started := false }

def node? (net : Network) (name : String) : Option Node := net.nodes.find? (·.name = name)

def sink? (net : Network) (name : String) : Option Sink := net.sinks.find? (·.name = name)

/-- The network with one node changed. -/
def onNode (net : Network) (name : String) (f : Node → Node) : Network :=
  { net with nodes := net.nodes.map fun n => if n.name = name then f n else n }

/-- The network with another limit on its workers. -/
def setMaxWorkers (net : Network) (limit : Option Int) : Network :=
  { net with maxWorkers := limit }

/-! ### Building -/

def checkNotStarted : NetworkM Unit := do
  if (← get).started then throw .alreadyRun

def node (name : String) : NetworkM Node := do
  match (← get).node? name with
  | some n => pure n
  | none => throw (.unknownNode name)

/-- A new channel on the network's switchboard; the answer is its sender and the channel. -/
def openChannel (name : String) : NetworkM (Nat × Nat) := do
  let net ← get
  let (ends, board) := net.board.openChannel name
  set { net with board := board }
  pure ends

/-- Adds a machine with a program and preloaded inputs. -/
def addMachine (name : String) (program inputs : List Int) : NetworkM Unit := do
  checkNotStarted
  if ((← get).node? name).isSome then throw (.duplicateNode name)
  let (feed, inbox) ← openChannel (name ++ ".in")
  let (outlet, outbox) ← openChannel (name ++ ".out")
  modify fun net => { net with nodes := net.nodes ++ [{
    name, inbox, outlet, feed
    machine := .load { name } program
    relay := .create (name ++ ".relay") outbox []
    preload := inputs }] }

/-- Appends values to the preloaded inputs of a node. -/
def feed (name : String) (values : List Int) : NetworkM Unit := do
  checkNotStarted
  let n ← node name
  modify (·.onNode n.name fun n => { n with preload := n.preload ++ values })

/-- Wires the output of a node to the input of another. -/
def connectTo (source target : String) : NetworkM Unit := do
  let n ← node target
  let net ← get
  match net.board.clone n.feed with
  | (.error e, _) => throw (.fault (.port e))
  | (.ok s, board) =>
    let net : Network := { net with board := board }
    set (net.onNode source fun n => { n with relay := n.relay.addTarget s })

def connectAll (source : String) : List String → NetworkM Unit
  | [] => pure ()
  | target :: targets => do
    connectTo source target
    connectAll source targets

/-- Wires the output of a node to the inputs of others, one after the other. -/
def connect (source : String) (targets : List String) : NetworkM Unit := do
  checkNotStarted
  if targets.isEmpty then throw .noTargets
  let n ← node source
  connectAll n.name targets

/-- Adds a sink for the output of a node; the answer is the sink's name. -/
def addSink (source : String) (name : Option String) : NetworkM String := do
  checkNotStarted
  let name := name.getD (source ++ ".sink")
  if ((← get).sink? name).isSome then throw (.duplicateSink name)
  let n ← node source
  let (sender, channel) ← openChannel name
  modify fun net =>
    let net : Network := { net with sinks := net.sinks ++ [⟨name, channel, []⟩] }
    net.onNode n.name fun n => { n with relay := n.relay.addTarget sender }
  pure name

/-- Writes to the tape of a node's machine. -/
def poke (name : String) (address value : Int) :
    NetworkM (Except NegativeAddress Unit) := do
  let n ← node name
  let (r, m) := n.machine.poke address value
  modify (·.onNode n.name fun n => { n with machine := m })
  pure r

/-! ### Running -/

/-- The workers that a network runs. -/
def workersNeeded (net : Network) : Nat := 2 * net.nodes.length

/-- The most workers that may run at once. -/
def workersAllowed (net : Network) : Int :=
  match net.maxWorkers with
  | none => net.workersNeeded
  | some n => if n = 0 then net.workersNeeded else n

/-- Sends a node's preloaded inputs and closes the sender used for it. -/
def preloadNode (b : Switchboard) (n : Node) : Switchboard :=
  (b.sendAll n.feed n.preload).2.closeSender n.feed

/-- The workers of a network, two for each node, ready to start. -/
def system (net : Network) : System (Station ⊕ Relay) where
  board := net.nodes.foldl preloadNode net.board
  workers := (net.nodes.flatMap fun n =>
    [.inl (.start n.machine n.inbox n.outlet), .inr n.relay.restart]).toArray

/-- A node with what its two workers are left with. -/
def settleNode (workers : Array (Station ⊕ Relay)) (i : Nat) (n : Node) : Node :=
  match workers[2 * i]?, workers[2 * i + 1]? with
  | some (.inl w), some (.inr r) => { n with machine := w.machine, relay := r }
  | _, _ => n

/-- The network with what its workers are left with. -/
def settle (net : Network) (s : System (Station ⊕ Relay)) : Network :=
  { net with board := s.board, nodes := net.nodes.mapIdx (settleNode s.workers) }

/-- The faults of machines, in the order of the nodes. -/
def faults (s : System (Station ⊕ Relay)) : List Fault :=
  s.workers.toList.filterMap fun w =>
    match w with
    | .inl w => w.fault
    | .inr _ => none

/-- What a finished system means for the network's run. -/
def verdict (s : System (Station ⊕ Relay)) : Except NetworkError Unit :=
  match faults s with
  | [] => .ok ()
  | fault :: _ => .error (.fault fault)

/-- Why a network must not be run, if anything forbids it. -/
def obstacle (net : Network) : Option NetworkError :=
  if net.started then
    some .alreadyRun
  else if net.nodes.isEmpty then
    some .noMachines
  else if net.workersAllowed < net.workersNeeded then
    some (.tooFewWorkers net.workersAllowed net.workersNeeded)
  else
    none

/-- Runs a network to its end; `none` if the fuel runs out. -/
def run (fuel : Nat) (net : Network) : Option (Except NetworkError Unit × Network) :=
  match net.obstacle with
  | some e => some (.error e, net)
  | none => do
    let s ← net.system.run fuel
    pure (verdict s, { net with started := true }.settle s)

/-! ### Results -/

/-- Takes what has arrived in a sink; the answer is all that has arrived there so far. -/
def values (name : String) (net : Network) : List Int × Network :=
  match net.sink? name with
  | none => ([], net)
  | some sink =>
    let (vs, board) := net.board.drain sink.channel
    let all := sink.collected ++ vs
    (all, { net with
      board := board
      sinks := net.sinks.map fun k => if k.name = name then { k with collected := all } else k })

/-- The last value that has arrived in a sink. -/
def last (name : String) (net : Network) : Except NetworkError Int × Network :=
  let (all, net) := net.values name
  match all.getLast? with
  | some v => (.ok v, net)
  | none => (.error (.noValues name), net)

end Network

end TapeNet
