import Std.Data.TreeSet
import TapeNet.Plane.Point

/-! # Surveys

    A surveyor maps an area with a droid that only follows commands and
    tells how it went: 0, it ran into a wall and did not move; 1, it moved;
    2, it moved and found the oxygen system.

    The surveyor keeps a wall on the droid's right: after a wall it turns
    left, after a move it turns right. The survey is over when a pose, that
    is a position and a heading, is about to be tried again.

    - `Surveyor.command?` is the next command, `Surveyor.learn` takes the
      droid's status.
    - `Surveyor.run` surveys with any droid that answers commands.
-/

namespace TapeNet

/-- A position and a heading. -/
structure Pose where
  position : Point
  heading : Heading
deriving DecidableEq, Repr

/-- The command that moves a droid in a direction. -/
def Heading.command : Heading → Int
  | .north => 1
  | .south => 2
  | .west => 3
  | .east => 4

theorem Heading.command_inj {g h : Heading} : g.command = h.command ↔ g = h := by
  cases g <;> cases h <;> decide

namespace Pose

instance : Ord Pose :=
  ⟨compareLex (compareOn Pose.position) (compareOn fun p => p.heading.command)⟩

instance : Std.TransOrd Pose :=
  inferInstanceAs (Std.TransCmp
    (compareLex (compareOn Pose.position) (compareOn fun p => p.heading.command)))

instance : Std.LawfulEqOrd Pose where
  eq_of_compare {p q} h := by
    have h' : (compare p.position q.position).then
        (compare p.heading.command q.heading.command) = .eq := h
    rw [Ordering.then_eq_eq, Std.compare_eq_iff_eq, Std.compare_eq_iff_eq] at h'
    obtain ⟨hp, hh⟩ := h'
    cases p
    cases q
    simp_all [Heading.command_inj]

/-- The point that a droid looks at. -/
def ahead (p : Pose) : Point := p.position + p.heading.step

/-- After a wall: the same place, turned left. -/
def turned (p : Pose) : Pose := ⟨p.position, p.heading.left⟩

/-- After a move: the place ahead, turned right. -/
def moved (p : Pose) : Pose := ⟨p.ahead, p.heading.right⟩

end Pose

/-- What the cells of an area are known as; walls are 0, open cells 1 and the oxygen system 2. -/
def Area.wall : Int := 0

def Area.open : Int := 1

def Area.oxygen : Int := 2

structure Surveyor where
  area : Sparse Int
  pose : Pose
  /-- the poses tried so far, and how many moves were tried -/
  tried : Std.TreeSet Pose
  moves : Nat

/-- A status that means nothing. -/
structure BadStatus where
  status : Int
deriving DecidableEq, Repr

def BadStatus.message (e : BadStatus) : String := s!"invalid droid status {e.status}"

namespace Surveyor

/-- The start of a survey: at the origin, which is open, facing east. -/
def start : Surveyor :=
  { area := Std.TreeMap.empty.insert .origin Area.open
    pose := ⟨.origin, .east⟩
    tried := {}
    moves := 0 }

/-- The next command; none when the survey is over. -/
def command? (s : Surveyor) : Option Int :=
  if s.tried.contains s.pose then none else some s.pose.heading.command

/-- The surveyor once a pose was tried, with what was found ahead. -/
def found (s : Surveyor) (cell : Int) (next : Pose) : Surveyor :=
  { area := s.area.insert s.pose.ahead cell
    pose := next
    tried := s.tried.insert s.pose
    moves := s.moves + 1 }

/-- Takes the droid's status after a command. -/
def learn (s : Surveyor) (status : Int) : Except BadStatus Surveyor :=
  if status = Area.wall then
    .ok (s.found Area.wall s.pose.turned)
  else if status = Area.open ∨ status = Area.oxygen then
    .ok (s.found status s.pose.moved)
  else
    .error ⟨status⟩

/-- Surveys with a droid that answers commands; `none` if the fuel runs out. -/
def run {δ : Type} (move : Int → δ → Int × δ) :
    Nat → Surveyor → δ → Option (Except BadStatus Surveyor × δ)
  | 0, _, _ => none
  | fuel + 1, s, d =>
    match s.command? with
    | none => some (.ok s, d)
    | some command =>
      match move command d with
      | (status, d) =>
        match s.learn status with
        | .error e => some (.error e, d)
        | .ok s => run move fuel s d

/-! ### Recorded droids -/

/-- A droid whose statuses are prepared, and 0 after them; it keeps the commands it got, the
    latest first. -/
structure Recording where
  replies : List Int
  commands : List Int
deriving DecidableEq, Repr

def Recording.move (command : Int) (d : Recording) : Int × Recording :=
  (d.replies.headD 0, ⟨d.replies.tail, command :: d.commands⟩)

/-- A survey with prepared statuses: the area or the refusal, and the commands given. Once the
    statuses are used up, the droid turns on the spot, so that the survey is over after at most
    four more moves. -/
def ofReplies (replies : List Int) : Option (Except BadStatus (Sparse Int) × List Int) := do
  let (r, d) ← run Recording.move (replies.length + 5) start ⟨replies, []⟩
  pure (r.map (·.area), d.commands.reverse)

end Surveyor

end TapeNet
