import TapeNet.Word

/-! # Tapes

    The growable tape of words that a machine runs on. It is both code and
    data.

    - Reading past the end gives 0 and leaves the tape alone.
    - Writing past the end extends it, with zeros, up to the address written.
    - Addresses are integers; a negative one is refused.
    - Storage is taken as unbounded: a tape always finds the room it needs,
      up to whatever address is written.

    Behind its end a tape keeps spare cells, so that it need not be moved
    each time it grows. A tape that runs out of them moves to at least twice
    the room (`grow`), and a copy has none. Spare cells are 0, so the cells
    that growth uncovers are 0 as well, wherever they come from.

    The view of a tape is `get : Nat → Int` together with `size`;
    `get_set` and `size_set` say what a write does to it. Tapes with the same
    view may differ in their spare cells.

    A tape here is a value, which is what a machine needs: it shares its tape
    with nobody. How tapes lie in memory side by side is the matter of
    shelves. `fetch` and `store` refuse an address by the cause; what a
    refusal comes to once it is put into words is said by `Refusal.of`.
-/

namespace TapeNet

/-- The refusal of an address below zero. -/
structure NegativeAddress where
  address : Int
deriving DecidableEq, Repr

def NegativeAddress.message (e : NegativeAddress) : String :=
  s!"negative memory address {e.address}"

/-- A tape of words. -/
structure Tape where
  /-- the words of the tape and behind them its spare cells -/
  cells : Array Int
  /-- the number of words -/
  size : Nat
  size_le : size ≤ cells.size
  spare : ∀ a, size ≤ a → cells.getD a 0 = 0
deriving DecidableEq, Repr

namespace Tape

/-- The tape of the given words, without spare cells. -/
def ofCells (cells : Array Int) : Tape where
  cells
  size := cells.size
  size_le := Nat.le_refl _
  spare a h := by
    rw [Array.getD_eq_getD_getElem?, Array.getElem?_eq_none h]
    rfl

/-- The tape that holds the given integers, each wrapped to a word. -/
def ofList (vs : List Int) : Tape := ofCells (vs.map wrap).toArray

/-- The words of a tape. -/
def toList (t : Tape) : List Int := t.cells.toList.take t.size

/-- A tape with the same words and no spare cells. -/
def copy (t : Tape) : Tape := ofCells (t.cells.extract 0 t.size)

/-- The word at an address, 0 past the end. -/
def get (t : Tape) (a : Nat) : Int := if a < t.size then t.cells.getD a 0 else 0

/-! ### Growth -/

/-- The first cells of a buffer, as many as are words, followed by zeros up to the given room. -/
def moved (cells : Array Int) (size room : Nat) : Array Int :=
  cells.extract 0 size ++ Array.replicate (room - size) 0

theorem size_moved (t : Tape) {room : Nat} (h : t.size ≤ room) :
    (moved t.cells t.size room).size = room := by
  have := t.size_le
  rw [moved, Array.size_append, Array.size_extract, Array.size_replicate]
  omega

/-- Moving a tape changes none of its words, and all that is behind them is 0. -/
theorem getD_moved (t : Tape) (room a : Nat) :
    (moved t.cells t.size room).getD a 0 = if a < t.size then t.cells.getD a 0 else 0 := by
  have := t.size_le
  simp only [moved, Array.getD_eq_getD_getElem?, Array.getElem?_append, Array.size_extract,
    Array.getElem?_extract, Array.getElem?_replicate]
  by_cases h : a < t.size
  · rw [if_pos (by omega), if_pos (by omega), if_pos h, Nat.zero_add]
  · rw [if_neg (by omega), if_neg h]
    split <;> rfl

/-- The tape with more words, which are 0. It takes its spare cells for them if they suffice, and
    moves otherwise. -/
def grow (t : Tape) (size : Nat) (h : t.size ≤ size) : Tape :=
  if hroom : size ≤ t.cells.size then
    { t with
      size
      size_le := hroom
      spare := fun a ha => t.spare a (Nat.le_trans h ha) }
  else
    have hmoved : t.size ≤ max size (2 * t.cells.size) := by omega
    { cells := moved t.cells t.size (max size (2 * t.cells.size))
      size
      size_le := by
        rw [size_moved t hmoved]
        exact Nat.le_max_left _ _
      spare := fun a ha => by
        rw [getD_moved, if_neg (by omega)] }

/-- Stores a value, wrapped, at an address of the tape. -/
def put (t : Tape) (a : Nat) (v : Int) (h : a < t.size) : Tape where
  cells := t.cells.setIfInBounds a (wrap v)
  size := t.size
  size_le := by
    rw [Array.size_setIfInBounds]
    exact t.size_le
  spare b hb := by
    rw [Array.getD_eq_getD_getElem?, Array.getElem?_setIfInBounds_ne (by omega),
      ← Array.getD_eq_getD_getElem?]
    exact t.spare b hb

theorem size_grow (t : Tape) (size : Nat) (h : t.size ≤ size) : (t.grow size h).size = size := by
  unfold grow
  split <;> rfl

theorem lt_size_grow {t : Tape} {a : Nat} (h : ¬a < t.size) :
    a < (t.grow (a + 1) (by omega)).size := by
  rw [size_grow]
  exact Nat.lt_succ_self a

/-- Stores a value, wrapped, at an address; a shorter tape grows up to it. -/
def set (t : Tape) (a : Nat) (v : Int) : Tape :=
  if h : a < t.size then t.put a v h
  else (t.grow (a + 1) (by omega)).put a v (lt_size_grow h)

/-- The word at an integer address. -/
def fetch (t : Tape) : Int → Except NegativeAddress Int
  | .ofNat a => .ok (t.get a)
  | .negSucc n => .error ⟨.negSucc n⟩

/-- Stores at an integer address; a refused write leaves the tape as it was. -/
def store (t : Tape) (a v : Int) : Except NegativeAddress Unit × Tape :=
  match a with
  | .ofNat n => (.ok (), t.set n v)
  | .negSucc n => (.error ⟨.negSucc n⟩, t)

/-! ### The view of a tape -/

@[simp] theorem size_ofList (vs : List Int) : (ofList vs).size = vs.length := by
  simp [ofList, ofCells]

/-- Reading never finds out where the spare cells begin. -/
theorem get_eq_getD (t : Tape) (a : Nat) : t.get a = t.cells.getD a 0 := by
  unfold get
  split
  · rfl
  · next h => exact (t.spare a (by omega)).symm

theorem get_ofList (vs : List Int) (a : Nat) :
    (ofList vs).get a = wrap (vs[a]?.getD 0) := by
  simp only [get_eq_getD, ofList, ofCells, Array.getD_eq_getD_getElem?, List.getElem?_toArray,
    List.getElem?_map]
  cases vs[a]? <;> simp

theorem get_of_size_le {t : Tape} {a : Nat} (h : t.size ≤ a) : t.get a = 0 := by
  rw [get, if_neg (by omega)]

/-- The words of a tape are what reading gives, from the first address to the last one. -/
theorem toList_eq (t : Tape) : t.toList = (List.range t.size).map t.get := by
  have := t.size_le
  refine List.ext_getElem ?_ fun a h h' => ?_
  · simp [toList]
    omega
  · have ha : a < t.size := by simpa using h'
    simp [toList, get_eq_getD, Array.getD, show a < t.cells.size by omega]

@[simp] theorem size_copy (t : Tape) : t.copy.size = t.size := by
  have := t.size_le
  show (t.cells.extract 0 t.size).size = t.size
  rw [Array.size_extract]
  omega

@[simp] theorem get_copy (t : Tape) (a : Nat) : t.copy.get a = t.get a := by
  have := t.size_le
  rw [get_eq_getD, get]
  show (t.cells.extract 0 t.size).getD a 0 = _
  simp only [Array.getD_eq_getD_getElem?, Array.getElem?_extract, Nat.zero_add]
  by_cases h : a < t.size
  · rw [if_pos (by omega), if_pos h]
  · rw [if_neg (by omega), if_neg h]
    rfl

/-- Growth by spare cells and growth by moving look the same. -/
theorem get_grow (t : Tape) (size : Nat) (h : t.size ≤ size) (a : Nat) :
    (t.grow size h).get a = t.get a := by
  rw [get_eq_getD, get_eq_getD]
  unfold grow
  split
  · rfl
  · rw [getD_moved, ← get, get_eq_getD]

theorem get_put (t : Tape) (a b : Nat) (v : Int) (h : a < t.size) :
    (t.put a v h).get b = if b = a then wrap v else t.get b := by
  have := t.size_le
  rw [get_eq_getD, get_eq_getD]
  show (t.cells.setIfInBounds a (wrap v)).getD b 0 = _
  simp only [Array.getD_eq_getD_getElem?]
  by_cases hb : b = a
  · subst hb
    simp [show b < t.cells.size by omega]
  · rw [Array.getElem?_setIfInBounds_ne (Ne.symm hb), if_neg hb]

theorem size_set (t : Tape) (a : Nat) (v : Int) :
    (t.set a v).size = max t.size (a + 1) := by
  unfold set
  split
  · show t.size = _
    omega
  · show (t.grow (a + 1) _).size = _
    rw [size_grow]
    omega

theorem get_set (t : Tape) (a b : Nat) (v : Int) :
    (t.set a v).get b = if b = a then wrap v else t.get b := by
  unfold set
  split
  · exact t.get_put a b v _
  · rw [get_put, get_grow]

end Tape

end TapeNet
