import TapeNet.Net.Remote
import TapeNet.Oxygen

/-! # The repair droid

    The droid is a machine that reads movement commands and prints how they
    went. A surveyor steers it:

        surveyor --(command)--> droid
        surveyor <--(status)--- droid

    When the survey is over, the droid is stopped by closing its channels.
-/

namespace TapeNet

/-- What the one who steers a droid is doing. -/
inductive DroidPilot.Stage
  | commanding
  | awaiting
  /-- a channel to the droid is closed -/
  | lost
  | refusing (cause : BadStatus)
deriving DecidableEq, Repr

structure DroidPilot where
  surveyor : Surveyor
  stage : DroidPilot.Stage

namespace DroidPilot

def start : DroidPilot := ⟨.start, .commanding⟩

def intent (p : DroidPilot) : Intent :=
  match p.stage with
  | .commanding =>
    match p.surveyor.command? with
    | some command => .send command
    | none => .stop
  | .awaiting => .receive
  | .lost | .refusing _ => .stop

def hear (p : DroidPilot) : Reply → DroidPilot
  | .error _ => { p with stage := .lost }
  | .ok v =>
    match p.stage with
    | .commanding => { p with stage := .awaiting }
    | .awaiting =>
      match p.surveyor.learn v with
      | .ok s => ⟨s, .commanding⟩
      | .error cause => { p with stage := .refusing cause }
    | .lost | .refusing _ => p

instance : Pilot DroidPilot := ⟨intent, hear⟩

end DroidPilot

namespace RepairDroid

/-- Why a droid does not get its area mapped. -/
inductive ExploreError
  | status (cause : BadStatus)
  | droid (cause : Fault)
  /-- the droid stopped before the survey was over -/
  | haltedEarly
deriving DecidableEq, Repr

def ExploreError.message : ExploreError → String
  | .status cause => cause.message
  | .droid cause => cause.message
  | .haltedEarly => "repair droid halted before the area was mapped"

/-- The area that was mapped. A status that means nothing counts more than a fault of the droid,
    and that more than an early end. -/
def verdict (droid : Station) (p : DroidPilot) : Except ExploreError (Sparse Int) :=
  match p.stage, droid.fault with
  | .refusing cause, _ => .error (.status cause)
  | _, some fault => .error (.droid fault)
  | .lost, none => .error .haltedEarly
  | _, none => .ok p.surveyor.area

/-- Maps the area that a droid can reach. -/
def explore (fuel : Nat) (program : List Int) : ExceptT ExploreError Option (Sparse Int) :=
  (Remote.talk fuel "repair-droid" program DroidPilot.start).map fun (droid, p) =>
    verdict droid p

/-! ### Measuring -/

/-- Why the area of a droid cannot be measured. -/
inductive MeasureError
  | explore (cause : ExploreError)
  | area (cause : Oxygen.AreaError)
deriving DecidableEq, Repr

/-- Maps an area and measures it. -/
def measure (fuel : Nat) (program : List Int) (f : Sparse Int → Except Oxygen.AreaError Int) :
    ExceptT MeasureError Option Int := do
  let area ← (explore fuel program).adapt .explore
  ExceptT.mk (some ((f area).mapError .area))

/-- The fewest moves to the oxygen system. -/
def fewestMoves (fuel : Nat) (program : List Int) : ExceptT MeasureError Option Int :=
  measure fuel program Oxygen.steps

/-- The minutes that the oxygen takes to fill the area. -/
def fillTime (fuel : Nat) (program : List Int) : ExceptT MeasureError Option Int :=
  measure fuel program Oxygen.minutes

end RepairDroid

end TapeNet
