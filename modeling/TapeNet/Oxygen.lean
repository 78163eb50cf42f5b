import TapeNet.Survey
import TapeNet.Plane.Window
import TapeNet.Plane.Picture
import TapeNet.Plane.Search

/-! # The oxygen system

    Distances on a surveyed area: from the droid's start to the oxygen
    system, and from there to all that oxygen can reach, at one step per
    minute. The oxygen system is the first cell marked as such, row by row
    from the north.
-/

namespace TapeNet.Oxygen

/-- What a cell that was not seen is marked with. -/
def unknown : Int := -1

/-- Why an area cannot be measured. Positions are those in the window of the area. -/
inductive AreaError
  /-- a cell holds no word -/
  | notWord
  | notFound
  | search (cause : Grid.SearchError)
  /-- the oxygen system is looked up outside of the distances -/
  | outOfBounds (cause : Grid.OutOfBounds)
  | unreachable
deriving DecidableEq, Repr

def AreaError.message : AreaError → String
  | .notWord => "a cell does not fit in 64 bits"
  | .notFound => "oxygen system not found"
  | .search cause => cause.message
  | .outOfBounds cause => cause.message
  | .unreachable => "oxygen system is not reachable from the start"

/-- The window of an area. -/
def window (area : Sparse Int) : Except AreaError (Window Int) :=
  match Window.ofWords? area unknown with
  | some w => .ok w
  | none => .error .notWord

/-- The position of the oxygen system. -/
def cell (grid : Grid Int) : Except AreaError Point :=
  match grid.positions.find? fun p => grid.get? p == some Area.oxygen with
  | some p => .ok p
  | none => .error .notFound

/-- The cells that can be entered. -/
def passable (grid : Grid Int) : Grid Bool :=
  grid.map fun v => v == Area.open || v == Area.oxygen

/-- The steps from a position to each cell. -/
def distances (grid : Grid Int) (start : Point) : Except AreaError (Grid Int) :=
  ((passable grid).distances start).mapError .search

/-- The fewest moves from the droid's start to the oxygen system. -/
def steps (area : Sparse Int) : Except AreaError Int := do
  let w ← window area
  let target ← cell w.grid
  let d ← distances w.grid w.corner
  let n ← (d.read target).mapError .outOfBounds
  if n < 0 then throw .unreachable else pure n

/-- The largest cell of a grid, or -1 if that is more. A grid of distances has no smaller cell, and
    it has the cell that they are counted from. -/
def largest (grid : Grid Int) : Int :=
  grid.rows.foldl (fun m row => row.foldl max m) (-1)

/-- The minutes until oxygen has spread to all that it can reach. -/
def minutes (area : Sparse Int) : Except AreaError Int := do
  let w ← window area
  let target ← cell w.grid
  let d ← distances w.grid target
  pure (largest d)

/-- How the cells of an area are shown. -/
def palette : Palette :=
  { entries := [(unknown, Text.codes " "), (Area.wall, Text.codes "#"),
      (Area.open, Text.codes "."), (Area.oxygen, Text.codes "O")] }

/-- The picture of an area. -/
def render (area : Sparse Int) : Except AreaError (List Nat) := do
  let w ← window area
  pure (palette.draw w.grid)

end TapeNet.Oxygen
