import TapeNet.Net.System

/-! # Relays

    A relay forwards every value of one channel to all of its targets. With
    one target it extends a pipeline, with several it broadcasts, and back to
    the first node of a chain it closes a loop.

    - When the inbound channel ends, all targets are closed.
    - A target that refuses a value is closed and dropped; the others get it
      all the same.
    - When no target is left after a value, the inbound channel is closed.

    On every exit the relay closes the inbound receiver first and the
    targets after it. It can be run again, but then finds its inbound
    channel closed.
-/

namespace TapeNet

/-- What a relay reports. -/
inductive Relay.Event
  | dropped (target : Nat)
  | noTargets
  | shutDown (relayed : Nat)
deriving DecidableEq, Repr

/-- Where a relay is. -/
inductive Relay.Stage
  | receiving
  /-- about to forward a value to the first of the senders that still have to get it -/
  | sending (value : Int) (target : Nat) (rest : List Nat)
  /-- about to close a target that refused the value -/
  | dropping (value : Int) (target : Nat) (rest : List Nat)
  | closingInbound
  /-- about to close the first of the remaining targets -/
  | closingTarget (target : Nat) (rest : List Nat)
  | finished
deriving DecidableEq, Repr

structure Relay where
  name : String
  /-- the channel that values are taken from -/
  inbound : Nat
  /-- the senders that values are forwarded to -/
  targets : List Nat
  /-- values received and forwarded -/
  relayed : Nat
  stage : Relay.Stage
  /-- the refusal, other than the end of the inbound channel, that ended the run -/
  failure : Option PortError
  /-- what happened since the start, the latest event first -/
  events : List Relay.Event
deriving DecidableEq, Repr

namespace Relay

def create (name : String) (inbound : Nat) (targets : List Nat) : Relay :=
  ⟨name, inbound, targets, 0, .receiving, none, []⟩

/-- Registers one more target. -/
def addTarget (r : Relay) (s : Nat) : Relay := { r with targets := r.targets ++ [s] }

/-- The relay at the start of a run. -/
def restart (r : Relay) : Relay :=
  { r with stage := .receiving, failure := none, events := [] }

def note (r : Relay) (e : Event) : Relay := { r with events := e :: r.events }

def goto (r : Relay) (stage : Stage) : Relay := { r with stage }

/-- Goes on with a value that the given senders still have to get. -/
def forward (r : Relay) (value : Int) : List Nat → Relay
  | s :: rest => r.goto (.sending value s rest)
  | [] =>
    let r := { r with relayed := r.relayed + 1 }
    if r.targets.isEmpty then (r.note .noTargets).goto .closingInbound else r.goto .receiving

/-- Goes on with the targets that are still to be closed. -/
def release (r : Relay) : List Nat → Relay
  | s :: rest => r.goto (.closingTarget s rest)
  | [] => (r.note (.shutDown r.relayed)).goto .finished

def request (r : Relay) : Option Request :=
  match r.stage with
  | .receiving => some (.receive r.inbound)
  | .sending v s _ => some (.send s v)
  | .dropping _ s _ => some (.closeSender s)
  | .closingInbound => some (.closeReceiver r.inbound)
  | .closingTarget s _ => some (.closeSender s)
  | .finished => none

def resume (r : Relay) (reply : Reply) : Relay :=
  match r.stage with
  | .receiving =>
    match reply with
    | .ok v => r.forward v r.targets
    | .error (.closed _) => r.goto .closingInbound
    | .error e => { r with failure := some e }.goto .closingInbound
  | .sending v s rest =>
    match reply with
    | .ok _ => r.forward v rest
    | .error _ => (r.note (.dropped s)).goto (.dropping v s rest)
  | .dropping v s rest => { r with targets := r.targets.erase s }.forward v rest
  | .closingInbound => r.release r.targets
  | .closingTarget _ rest => r.release rest
  | .finished => r

instance : Process Relay := ⟨request, resume⟩

/-- The text of a report. -/
def describe (r : Relay) (b : Switchboard) : Event → String
  | .dropped s =>
    let target := b.nameOf s
    s!"{r.name} dropping closed target {target}"
  | .noTargets => s!"{r.name} has no targets left, closing inbound"
  | .shutDown n => s!"{r.name} shut down after {n} values"

/-- All reports since the start. -/
def report (r : Relay) (b : Switchboard) : List String :=
  r.events.reverse.map (r.describe b)

/-- Runs a relay alone: the number of values relayed so far, or what ended the run. -/
def run (fuel : Nat) (r : Relay) (b : Switchboard) :
    Option (Except PortError Nat × Relay × Switchboard) := do
  let (r, b) ← Process.runAlone fuel r.restart b
  match r.failure with
  | some e => pure (.error e, r, b)
  | none => pure (.ok r.relayed, r, b)

end Relay

end TapeNet
