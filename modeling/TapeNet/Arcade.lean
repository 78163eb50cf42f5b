import TapeNet.Machine
import TapeNet.Plane.Window
import TapeNet.Plane.Picture

/-! # The arcade cabinet

    A game draws by printing triples: a column, a row and a tile. At the
    position (-1, 0), which lies off the screen, the third number is the
    score. When the game reads its input it learns how the joystick leans:
    -1 to the left, 0 not at all, 1 to the right.

    The cabinet is a port. It plays by itself, leaning from the paddle
    towards the ball, and a drawing of an unknown tile is refused as a
    whole.
-/

namespace TapeNet

inductive Tile
  | empty
  | wall
  | block
  | paddle
  | ball
deriving DecidableEq, Repr

namespace Tile

def code : Tile → Int
  | empty => 0
  | wall => 1
  | block => 2
  | paddle => 3
  | ball => 4

def ofCode? : Int → Option Tile
  | 0 => some empty
  | 1 => some wall
  | 2 => some block
  | 3 => some paddle
  | 4 => some ball
  | _ => none

def symbol : Tile → List Nat
  | empty => Text.codes " "
  | wall => Text.codes "#"
  | block => Text.codes "="
  | paddle => Text.codes "_"
  | ball => Text.codes "o"

@[simp] theorem ofCode?_code (t : Tile) : ofCode? t.code = some t := by
  cases t <;> rfl

theorem ofCode?_eq_some_iff {v : Int} {t : Tile} : ofCode? v = some t ↔ t.code = v := by
  constructor
  · intro h
    unfold ofCode? at h
    split at h <;> cases h <;> rfl
  · rintro rfl
    exact ofCode?_code t

/-- The tiles are numbered from 0 to 4. -/
theorem ofCode?_eq_none_iff {v : Int} : ofCode? v = none ↔ ¬(0 ≤ v ∧ v ≤ 4) := by
  constructor
  · rintro h ⟨hlow, hhigh⟩
    obtain rfl | rfl | rfl | rfl | rfl : v = 0 ∨ v = 1 ∨ v = 2 ∨ v = 3 ∨ v = 4 := by omega
    all_goals cases h
  · intro h
    unfold ofCode?
    split <;> first | rfl | exact absurd (by decide) h

end Tile

/-- The numbers of a triple that have been printed so far. -/
inductive Pending
  | none
  | one (x : Int)
  | two (x y : Int)
deriving DecidableEq, Repr

structure Cabinet where
  screen : Sparse Tile
  score : Int
  /-- the column where the ball was last drawn -/
  ball : Option Int
  /-- the column where the paddle was last drawn -/
  paddle : Option Int
  pending : Pending

namespace Cabinet

def fresh : Cabinet := ⟨{}, 0, none, none, .none⟩

/-- Draws a tile on the screen. -/
def paint (c : Cabinet) (p : Point) (tile : Tile) : Cabinet :=
  { c with
    screen := c.screen.insert p tile
    ball := if tile = .ball then some p.x else c.ball
    paddle := if tile = .paddle then some p.x else c.paddle }

/-- Takes a whole triple. -/
def draw (x y t : Int) (c : Cabinet) : Reply × Cabinet :=
  if x = -1 ∧ y = 0 then
    (.ok 0, { c with score := t })
  else
    match Tile.ofCode? t with
    | some tile => (.ok 0, c.paint ⟨x, y⟩ tile)
    | none => (.error (.unknownTile t x y), c)

/-- Takes a number that the game prints. -/
def put (v : Int) (c : Cabinet) : Reply × Cabinet :=
  match c.pending with
  | .none => (.ok 0, { c with pending := .one v })
  | .one x => (.ok 0, { c with pending := .two x v })
  | .two x y => { c with pending := .none }.draw x y v

/-- How the joystick leans. -/
def joystick (c : Cabinet) : Int :=
  match c.ball, c.paddle with
  | some ball, some paddle => (ball - paddle).sign
  | _, _ => 0

def port : Port Cabinet := ⟨fun c => (.ok c.joystick, c), put, id⟩

/-- The number of places on the screen that show a tile. -/
def count (c : Cabinet) (tile : Tile) : Nat := c.screen.values.count tile

/-- The picture on the screen. -/
def render (c : Cabinet) : List Nat :=
  if c.screen.isEmpty then [] else (Window.of c.screen .empty).grid.draw Tile.symbol

end Cabinet

namespace Arcade

/-- What the machines of games are called. -/
def config : Config := { name := "arcade" }

/-- The blocks on the screen when a game has ended. -/
def countBlocks (fuel : Nat) (program : List Int) : ExceptT Fault Option Nat := do
  let (_, cabinet) ← (Machine.load config program).finish Cabinet.port fuel .fresh
  pure (cabinet.count .block)

/-- The score at the end of a game, which learns at address 0 how many quarters were inserted. -/
def play (fuel : Nat) (program : List Int) (quarters : Int) : ExceptT Fault Option Int := do
  let m := Machine.onTape config ((Tape.ofList program).set 0 quarters)
  let (_, cabinet) ← m.finish Cabinet.port fuel .fresh
  pure cabinet.score

end Arcade

end TapeNet
