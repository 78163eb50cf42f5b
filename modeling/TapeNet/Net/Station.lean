import TapeNet.Machine
import TapeNet.Net.System

/-! # Stations

    A station is a machine at work between two channels: it reads from its
    inbox and writes to its outlet.

    When the machine stops, whether it halted or failed, the station closes
    the inbox and then the outlet, so that peers that wait for it are
    released.
-/

namespace TapeNet

/-- Where a station is in its life. -/
inductive Station.Stage
  | working
  | closingInbox
  | closingOutlet
  | finished
deriving DecidableEq, Repr

structure Station where
  machine : Machine
  /-- the channel that the machine reads from -/
  inbox : Nat
  /-- the sender that the machine writes with -/
  outlet : Nat
  stage : Station.Stage
  /-- what broke the machine off, if anything did -/
  fault : Option Fault
deriving DecidableEq, Repr

namespace Station

/-- A station that is about to start. -/
def start (machine : Machine) (inbox : Nat) (outlet : Nat) : Station :=
  ⟨machine, inbox, outlet, .working, none⟩

/-- The request that meets a machine's demand. -/
def requestFor (w : Station) : Demand → Request
  | .silent => .pause
  | .get => .receive w.inbox
  | .put v => .send w.outlet v

def request (w : Station) : Option Request :=
  match w.stage with
  | .working => some (w.requestFor w.machine.demand)
  | .closingInbox => some (.closeReceiver w.inbox)
  | .closingOutlet => some (.closeSender w.outlet)
  | .finished => none

/-- What a station is left with after a step of its machine. -/
def settle (inbox : Nat) (outlet : Nat) : Outcome × Machine → Station
  | (.continued, m) => ⟨m, inbox, outlet, .working, none⟩
  | (.failed fault, m) => ⟨m, inbox, outlet, .closingInbox, some fault⟩
  | (_, m) => ⟨m, inbox, outlet, .closingInbox, none⟩

def resume (w : Station) (reply : Reply) : Station :=
  match w with
  | ⟨machine, inbox, outlet, .working, _⟩ => settle inbox outlet (machine.resume reply)
  | ⟨machine, inbox, outlet, .closingInbox, fault⟩ =>
    ⟨machine, inbox, outlet, .closingOutlet, fault⟩
  | ⟨machine, inbox, outlet, _, fault⟩ => ⟨machine, inbox, outlet, .finished, fault⟩

instance : Process Station := ⟨request, resume⟩

end Station

end TapeNet
