import TapeNet.Refusal
import TapeNet.Tape

/-! # Shelves

    Tapes side by side that are made, copied, written, read and compared, one
    request after the other, as they lie in memory.

    - The cells of the tapes are in buffers. A tape on a shelf is a `Handle`,
      which refers to a buffer and says how many of its cells are words. Two
      tapes that referred to the same buffer would change together.
    - A write changes a buffer in place, so it is felt by whoever refers to
      it. A tape that outgrows its buffer moves to a new one; the old one
      stays as it is, with nobody to refer to it.
    - Tapes are named by their numbers, in the order in which they were put
      on the shelf. A shelf never gives a tape away.
    - A new tape comes from a list of integers, from a copy of a tape, or
      from the list of a tape's words.
    - A refused address is named in a message of at most `limit` digits.
    - `serve` answers one request and `serveAll` many.
-/

namespace TapeNet

/-- One use of a shelf. -/
inductive Shelf.Request
  | create (program : List Int)
  | copy (tape : Nat)
  /-- a new tape from the list of the words of a tape -/
  | rebuild (tape : Nat)
  | write (tape : Nat) (address value : Int)
  | read (tape : Nat) (address : Int)
  | size (tape : Nat)
  | list (tape : Nat)
  | describe (tape : Nat)
  /-- whether two tapes hold the same words -/
  | same (tape other : Nat)
  /-- whether a tape holds the given integers -/
  | holds (tape : Nat) (vs : List Int)
deriving DecidableEq, Repr

inductive Shelf.Answer
  /-- the number of a new tape -/
  | tape (number : Nat)
  | done
  | word (value : Int)
  | size (size : Nat)
  | words (vs : List Int)
  | text (line : String)
  | verdict (yes : Bool)
  | refused (why : Refusal NegativeAddress)
  /-- there is no tape of that number -/
  | missing
deriving DecidableEq, Repr

/-- A tape as it lies on a shelf. -/
structure Shelf.Handle where
  /-- the number of the buffer that its cells are in -/
  buffer : Nat
  /-- the number of words -/
  size : Nat
deriving DecidableEq, Repr

structure Shelf where
  buffers : Array (Array Int)
  tapes : Array Shelf.Handle
deriving DecidableEq, Repr

namespace Shelf

def empty : Shelf := ⟨#[], #[]⟩

/-! ### Looking at a tape -/

/-- The words of a tape and its spare cells. -/
def cells (s : Shelf) (h : Handle) : Array Int := s.buffers.getD h.buffer #[]

/-- The word at an address, 0 past the end. -/
def get (s : Shelf) (h : Handle) (a : Nat) : Int := if a < h.size then (s.cells h).getD a 0 else 0

def words (s : Shelf) (h : Handle) : List Int := (s.cells h).toList.take h.size

def read (limit : Option Nat) (s : Shelf) (h : Handle) : Int → Answer
  | .ofNat a => .word (s.get h a)
  | .negSucc n => .refused (.of limit (.negSucc n) ⟨.negSucc n⟩)

/-! ### Putting tapes on the shelf and writing to them -/

/-- Puts a tape on the shelf, with a new buffer for its cells. -/
def add (s : Shelf) (cells : Array Int) (size : Nat) : Answer × Shelf :=
  (.tape s.tapes.size, ⟨s.buffers.push cells, s.tapes.push ⟨s.buffers.size, size⟩⟩)

/-- More words for the tape of a number. It takes its spare cells for them if they suffice, and
    moves to a new buffer otherwise. -/
def grow (s : Shelf) (i : Nat) (h : Handle) (size : Nat) : Handle × Shelf :=
  let cells := s.cells h
  if size ≤ cells.size then
    let h : Handle := { h with size }
    (h, { s with tapes := s.tapes.setIfInBounds i h })
  else
    let h' : Handle := ⟨s.buffers.size, size⟩
    (h', ⟨s.buffers.push (Tape.moved cells h.size (max size (2 * cells.size))),
      s.tapes.setIfInBounds i h'⟩)

/-- Stores a value, wrapped, in the buffer of a tape. -/
def store (s : Shelf) (h : Handle) (a : Nat) (v : Int) : Shelf :=
  { s with buffers := s.buffers.modify h.buffer (·.setIfInBounds a (wrap v)) }

/-- Stores a value at an address of the tape of a number; a shorter tape grows up to it. -/
def put (s : Shelf) (i : Nat) (h : Handle) (a : Nat) (v : Int) : Shelf :=
  if a < h.size then s.store h a v
  else
    let (h, s) := s.grow i h (a + 1)
    s.store h a v

def write (limit : Option Nat) (s : Shelf) (i : Nat) (h : Handle) (v : Int) : Int → Answer × Shelf
  | .ofNat a => (.done, s.put i h a v)
  | .negSucc n => (.refused (.of limit (.negSucc n) ⟨.negSucc n⟩), s)

/-! ### Requests -/

/-- Uses the tape of a number, if there is one. -/
def onTape (s : Shelf) (i : Nat) (f : Handle → Answer × Shelf) : Answer × Shelf :=
  match s.tapes[i]? with
  | none => (.missing, s)
  | some h => f h

def serve (limit : Option Nat) (s : Shelf) : Request → Answer × Shelf
  | .create program => s.add (program.map wrap).toArray program.length
  | .copy i => s.onTape i fun h => s.add ((s.cells h).extract 0 h.size) h.size
  | .rebuild i => s.onTape i fun h => s.add ((s.words h).map wrap).toArray (s.words h).length
  | .write i a v => s.onTape i fun h => s.write limit i h v a
  | .read i a => s.onTape i fun h => (s.read limit h a, s)
  | .size i => s.onTape i fun h => (.size h.size, s)
  | .list i => s.onTape i fun h => (.words (s.words h), s)
  | .describe i => s.onTape i fun h => (.text s!"Memory(size={h.size})", s)
  | .same i j => s.onTape i fun h => s.onTape j fun k => (.verdict (s.words h == s.words k), s)
  | .holds i vs => s.onTape i fun h => (.verdict (s.words h == vs), s)

/-- Serves requests in turn; the answers, in order, and the shelf after them. -/
def serveAll (limit : Option Nat) (s : Shelf) : List Request → List Answer × Shelf
  | [] => ([], s)
  | r :: rs =>
    let (answer, s) := s.serve limit r
    let (answers, s) := s.serveAll limit rs
    (answer :: answers, s)

end Shelf

end TapeNet
