import TapeNet.Net.Remote
import TapeNet.Plane.Window
import TapeNet.Plane.Picture

/-! # The hull painting robot

    The robot's brain is a machine. The robot sends the colour of the panel
    it stands on and receives a colour to paint and a turn:

        robot --(colour under it)--> brain
        robot <--(colour, turn)----- brain

    Colours are 0 (black) and 1 (white), turns 0 (left) and 1 (right). After
    each exchange the robot paints its panel, makes a quarter turn and moves
    one panel ahead. It stops when a channel to its brain is closed.
-/

namespace TapeNet

/-- What a robot cannot make sense of. -/
inductive BadOrder
  | colour (value : Int)
  | turn (value : Int)
deriving DecidableEq, Repr

def BadOrder.message : BadOrder → String
  | .colour value => s!"invalid paint colour {value}"
  | .turn value => s!"invalid turn {value}"

/-- What a robot is doing. -/
inductive HullRobot.Stage
  | reporting
  | awaitingColour
  | awaitingTurn (colour : Int)
  | stopped
  | refusing (order : BadOrder)
deriving DecidableEq, Repr

structure HullRobot where
  /-- the panels painted so far -/
  panels : Sparse Int
  position : Point
  heading : Heading
  stage : HullRobot.Stage

namespace HullRobot

def black : Int := 0

def white : Int := 1

/-- A robot at the origin, facing north. A start panel that is not black counts as painted. -/
def onPanel (colour : Int) : HullRobot :=
  let panels : Sparse Int := {}
  { panels := if colour = black then panels else panels.insert .origin colour
    position := .origin
    heading := .north
    stage := .reporting }

/-- The colour of the panel the robot stands on. -/
def colour (r : HullRobot) : Int := r.panels.getD r.position black

/-- Paints the panel, turns and moves ahead. -/
def move (r : HullRobot) (colour : Int) (heading : Heading) : HullRobot :=
  { panels := r.panels.insert r.position colour
    position := r.position + heading.step
    heading
    stage := .reporting }

/-- Takes a colour and a turn. -/
def obey (r : HullRobot) (colour turn : Int) : HullRobot :=
  if colour ≠ black ∧ colour ≠ white then
    { r with stage := .refusing (.colour colour) }
  else if turn = 0 then
    r.move colour r.heading.left
  else if turn = 1 then
    r.move colour r.heading.right
  else
    { r with stage := .refusing (.turn turn) }

def intent (r : HullRobot) : Intent :=
  match r.stage with
  | .reporting => .send r.colour
  | .awaitingColour | .awaitingTurn _ => .receive
  | .stopped | .refusing _ => .stop

def hear (r : HullRobot) : Reply → HullRobot
  | .error _ => { r with stage := .stopped }
  | .ok v =>
    match r.stage with
    | .reporting => { r with stage := .awaitingColour }
    | .awaitingColour => { r with stage := .awaitingTurn v }
    | .awaitingTurn colour => r.obey colour v
    | .stopped | .refusing _ => r

instance : Pilot HullRobot := ⟨intent, hear⟩

/-- Why a robot does not get its hull painted. -/
inductive PaintError
  | order (cause : BadOrder)
  | brain (cause : Fault)
deriving DecidableEq, Repr

def PaintError.message : PaintError → String
  | .order cause => cause.message
  | .brain cause => cause.message

/-- The panels that a robot has painted. An order it refused counts more than a fault of its
    brain. -/
def verdict (brain : Station) (r : HullRobot) : Except PaintError (Sparse Int) :=
  match r.stage, brain.fault with
  | .refusing order, _ => .error (.order order)
  | _, some fault => .error (.brain fault)
  | _, none => .ok r.panels

/-- Paints a hull from a panel of the given colour: the panels, and where the robot ends. -/
def paint (fuel : Nat) (program : List Int) (start : Int) :
    Option (Except PaintError (Sparse Int) × HullRobot) := do
  let (brain, r) ← Remote.talk fuel "hull-robot" program (onPanel start)
  pure (verdict brain r, r)

/-- The panels painted from a given start. -/
def painted (fuel : Nat) (program : List Int) (start : Int) :
    ExceptT PaintError Option (Sparse Int) :=
  (paint fuel program start).map (·.1)

/-- The number of panels painted at least once, from a black start. -/
def countPainted (fuel : Nat) (program : List Int) : ExceptT PaintError Option Nat := do
  let panels ← painted fuel program black
  pure panels.size

/-- How the colours are shown. -/
def palette : Palette := { entries := [(black, Text.codes "."), (white, Text.codes "#")] }

/-- The picture painted from a white start. -/
def registration (fuel : Nat) (program : List Int) : ExceptT PaintError Option (List Nat) := do
  let panels ← painted fuel program white
  pure (palette.draw (Window.of panels black).grid)

end HullRobot

end TapeNet
