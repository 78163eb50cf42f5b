import TapeNet.Word
import TapeNet.Text.Blank
import TapeNet.Text.Quoted
import TapeNet.Plane.Grid

/-! # Pictures

    A picture is a text that shows a grid, a line per row. Like all texts it
    is given by the codes of its characters.

    - `Palette` gives a text to each value of a cell; `Palette.draw` writes
      a grid.
    - `Legend` gives a value to each character; `Legend.read` reads a grid.
      Blank lines do not count as rows, and short rows are padded with the
      value of the legend's first entry.
-/

namespace TapeNet

/-! ### Drawing -/

/-- A picture of a grid, given the text of each cell. -/
def Grid.draw {α : Type} (symbol : α → List Nat) (g : Grid α) : List Nat :=
  [0x0A].intercalate (g.toRows.map fun row => row.flatMap symbol)

theorem Grid.draw_map {α β : Type} (f : α → β) (symbol : β → List Nat) (g : Grid α) :
    (g.map f).draw symbol = g.draw fun v => symbol (f v) := by
  simp only [draw, toRows_map, List.map_map, Function.comp_def, List.flatMap_map]

/-- Texts for some values, of which the last given for a value counts, and a text for the rest. -/
structure Palette where
  entries : List (Int × List Nat)
  other : List Nat := Text.codes "?"
deriving DecidableEq, Repr

namespace Palette

/-- The text of a value. -/
def symbol (p : Palette) (v : Int) : List Nat :=
  match p.entries.reverse.find? (·.1 == v) with
  | some (_, s) => s
  | none => p.other

def draw (p : Palette) (g : Grid Int) : List Nat := g.draw p.symbol

end Palette

/-! ### Reading -/

/-- Values for some keys, of which the last given for a key counts. Keys that are no single
    character stand for no cell. -/
structure Legend where
  entries : List (List Nat × Int)
deriving DecidableEq, Repr

/-- Why a picture cannot be read. -/
inductive PictureError
  /-- the legend has no entry to pad rows with -/
  | emptyLegend
  /-- a value of the legend is no word -/
  | notWord
  | unexpected (c : Nat) (x y : Nat)
deriving DecidableEq, Repr

def PictureError.message : PictureError → String
  | .emptyLegend => "no value to pad rows with"
  | .notWord => "a cell does not fit in 64 bits"
  | .unexpected c x y =>
    let shown := Text.quoted [c]
    s!"unexpected character {shown} at ({x}, {y})"

namespace Legend

def value? (l : Legend) (key : List Nat) : Option Int :=
  (l.entries.reverse.find? fun (k, _) => k == key).map (·.2)

/-- The value that short rows are padded with: that of the first key. -/
def padding? (l : Legend) : Option Int :=
  l.entries.head?.bind fun (key, _) => l.value? key

/-- The value of the character at a position. -/
def cell (l : Legend) (c : Nat) (x y : Nat) : Except PictureError Int :=
  match l.value? [c] with
  | none => .error (.unexpected c x y)
  | some v => if IsWord v then .ok v else .error .notWord

/-- The values of a row's characters from the given column on. -/
def cellsFrom (l : Legend) (x y : Nat) : List Nat → Except PictureError (List Int)
  | [] => .ok []
  | c :: cs => do
    let v ← l.cell c x y
    let vs ← l.cellsFrom (x + 1) y cs
    pure (v :: vs)

/-- The values of all rows from the given one on. -/
def rowsFrom (l : Legend) (y : Nat) : List (List Nat) →
    Except PictureError (List (List Int))
  | [] => .ok []
  | row :: rows => do
    let vs ← l.cellsFrom 0 y row
    let rest ← l.rowsFrom (y + 1) rows
    pure (vs :: rest)

end Legend

/-- The rows of a picture: its lines that are not blank. -/
def pictureRows (text : List Nat) : List (List Nat) :=
  (Text.lines text).filter fun line => !line.all Text.isBlank

/-- The length of the longest row. -/
def longest {α : Type} (rows : List (List α)) : Nat :=
  rows.foldl (fun n row => max n row.length) 0

/-- The grid of the given rows, short ones padded. -/
def Grid.padded {α : Type} (padding : α) (rows : List (List α)) : Grid α :=
  let cells := (rows.map List.toArray).toArray
  .ofFn (longest rows) cells.size fun x y => (cells[y]?.bind (·[x]?)).getD padding

/-- Reads a picture. -/
def Legend.read (l : Legend) (text : List Nat) : Except PictureError (Grid Int) :=
  match pictureRows text with
  | [] => .ok .empty
  | rows =>
    match l.padding? with
    | none => .error .emptyLegend
    | some padding =>
      if IsWord padding then do
        let values ← l.rowsFrom 0 rows
        pure (.padded padding values)
      else
        .error .notWord

end TapeNet
