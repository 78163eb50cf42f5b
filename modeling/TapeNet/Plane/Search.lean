import TapeNet.Plane.Grid

/-! # Searches

    A breadth-first search marks the cells of a grid with their distances
    from a start. Cells that it has come to, but whose neighbours it has not
    looked at, wait in a queue; -1 marks the cells it has not come to.

    - `Search.look` looks from a cell at one of its neighbours, and
      `Search.expand` at all four.
    - `Search.run` takes cells off the front of the queue, so many at most.
    - `Grid.distances` searches a grid of free cells. No cell gets into the
      queue twice, so as many turns as there are cells are enough.
-/

namespace TapeNet

/-- A search under way. -/
structure Search where
  marks : Grid Int
  queue : List Point

namespace Search

/-- The mark of a cell that the search has not come to. -/
def unmarked : Int := -1

/-- A search before its first turn. -/
def start (free : Grid Bool) (p : Point) : Except Grid.OutOfBounds Search := do
  let marks ← (Grid.full free.width free.height unmarked).store p 0
  pure ⟨marks, [p]⟩

/-- Looks from a cell at a neighbour. If that is free and was not come to before, it is one step
    further away, and goes to the end of the queue. -/
def look (free : Grid Bool) (cell : Point) (s : Search) (p : Point) :
    Except Grid.OutOfBounds Search := do
  if free.isSet p then
    let mark ← s.marks.read p
    if mark < 0 then
      let distance ← s.marks.read cell
      let marks ← s.marks.store p (distance + 1)
      pure ⟨marks, s.queue ++ [p]⟩
    else
      pure s
  else
    pure s

/-- Looks from a cell at its four neighbours. -/
def expand (free : Grid Bool) (cell : Point) (s : Search) : Except Grid.OutOfBounds Search :=
  cell.neighbours.foldlM (look free cell) s

/-- Takes so many cells off the queue, or fewer if it gets empty. -/
def run (free : Grid Bool) : Nat → Search → Except Grid.OutOfBounds Search
  | 0, s => .ok s
  | n + 1, s =>
    match s.queue with
    | [] => .ok s
    | cell :: queue => do
      let s ← expand free cell { s with queue }
      run free n s

end Search

namespace Grid

/-- Why there are no distances. -/
inductive SearchError
  | notPassable (start : Point)
  | outOfBounds (cause : OutOfBounds)
deriving DecidableEq, Repr

def SearchError.message : SearchError → String
  | .notPassable start => s!"start ({start.x}, {start.y}) is not a passable cell"
  | .outOfBounds cause => cause.message

/-- The steps that each cell is away from a start, in four directions over free cells; -1 where
    it is out of reach. The start must be free. -/
def distances (free : Grid Bool) (start : Point) : Except SearchError (Grid Int) :=
  if free.isSet start then
    Except.mapError .outOfBounds do
      let s ← Search.start free start
      let s ← Search.run free (free.width * free.height) s
      pure s.marks
  else
    .error (.notPassable start)

end Grid

end TapeNet
