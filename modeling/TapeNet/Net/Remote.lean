import TapeNet.Net.Station

/-! # Remote control

    A pilot outside of a machine talks to it over a pair of channels:

        pilot --(outgoing)--> machine
        pilot <--(incoming)-- machine

    A pilot only says what it wants next and hears the replies; it wants to
    stop at last. Then both of its endpoints are closed, the outgoing one
    first, so that the machine is released wherever it is.

    `Remote.talk` runs a machine and its pilot as the two workers of a
    system.
-/

namespace TapeNet

/-- What a pilot wants next. -/
inductive Intent
  | send (value : Int)
  | receive
  | stop
deriving DecidableEq, Repr

/-- One who steers a machine. -/
class Pilot (γ : Type) where
  intent : γ → Intent
  /-- the pilot once it heard the reply to what it wanted -/
  hear : γ → Reply → γ

inductive Remote.Stage
  | talking
  | closingIncoming
  | finished
deriving DecidableEq, Repr

/-- A pilot and the endpoints that it talks over. -/
structure Remote (γ : Type) where
  pilot : γ
  /-- the sender to the machine -/
  outgoing : Nat
  /-- the channel from the machine -/
  incoming : Nat
  stage : Remote.Stage
deriving Repr

namespace Remote

variable {γ : Type} [Pilot γ]

def request (r : Remote γ) : Option Request :=
  match r.stage with
  | .talking =>
    match Pilot.intent r.pilot with
    | .send v => some (.send r.outgoing v)
    | .receive => some (.receive r.incoming)
    | .stop => some (.closeSender r.outgoing)
  | .closingIncoming => some (.closeReceiver r.incoming)
  | .finished => none

def resume (r : Remote γ) (reply : Reply) : Remote γ :=
  match r.stage with
  | .talking =>
    match Pilot.intent r.pilot with
    | .stop => { r with stage := .closingIncoming }
    | _ => { r with pilot := Pilot.hear r.pilot reply }
  | _ => { r with stage := .finished }

instance : Process (Remote γ) := ⟨request, resume⟩

/-- A fresh machine and its pilot, with their two channels. -/
def system (name : String) (program : List Int) (pilot : γ) : System (Station ⊕ Remote γ) :=
  let ((outgoing, inbox), board) := Switchboard.empty.openChannel (name ++ ".in")
  let ((outlet, incoming), board) := board.openChannel (name ++ ".out")
  { board
    workers := #[
      .inl (.start (.load { name } program) inbox outlet),
      .inr ⟨pilot, outgoing, incoming, .talking⟩] }

/-- What the two workers of a system are left with. -/
def outcome? (s : System (Station ⊕ Remote γ)) : Option (Station × γ) :=
  match s.workers.toList with
  | [.inl w, .inr r] => some (w, r.pilot)
  | _ => none

/-- Lets a pilot steer a fresh machine until both have stopped; `none` if the fuel runs out. -/
def talk (fuel : Nat) (name : String) (program : List Int) (pilot : γ) :
    Option (Station × γ) :=
  ((system name program pilot).run fuel).bind outcome?

end Remote

end TapeNet
