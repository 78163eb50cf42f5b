import Mathlib.Data.List.Basic
import TapeNet.Tape

/-! # Chronicles of tapes

    What can be known of a tape without looking at it: the integers that it
    was made of, and what was written to it since then. A chronicle knows
    nothing of spare cells, of growth, or of where a copy was taken from.

    - `Chronicle.value` and `Chronicle.size` say what reading should give.
    - `Shows t c`: the tape `t` gives what its chronicle `c` says. New tapes,
      copies and writes keep this (`shows_ofList`, `Shows.renew`,
      `Shows.set`).
-/

namespace TapeNet

/-! ### One tape -/

structure Chronicle where
  /-- the integers that the tape was made of -/
  initial : List Int
  /-- the addresses and values written since then, the latest first -/
  writes : List (Nat × Int)

namespace Chronicle

/-- The last value written at an address, or else the one that was there at first, or else 0; as a
    word. -/
def value (c : Chronicle) (a : Nat) : Int :=
  wrap ((c.writes.lookup a).getD (c.initial[a]?.getD 0))

/-- The number of integers at first, or one more than the largest address written if that is
    more. -/
def size (c : Chronicle) : Nat :=
  c.writes.foldr (fun w n => max (w.1 + 1) n) c.initial.length

def contents (c : Chronicle) : List Int := (List.range c.size).map c.value

/-- The chronicle once a value was written. -/
def written (c : Chronicle) (a : Nat) (v : Int) : Chronicle :=
  { c with writes := (a, v) :: c.writes }

theorem value_written (c : Chronicle) (a b : Nat) (v : Int) :
    (c.written a v).value b = if b = a then wrap v else c.value b := by
  unfold value written
  simp only [List.lookup_cons]
  by_cases h : b = a
  · subst h
    simp
  · simp [h, beq_eq_false_iff_ne.mpr h]

theorem size_written (c : Chronicle) (a : Nat) (v : Int) :
    (c.written a v).size = max c.size (a + 1) := by
  rw [Nat.max_comm]
  rfl

theorem wrap_value (c : Chronicle) (a : Nat) : wrap (c.value a) = c.value a := wrap_wrap _

theorem getElem?_contents (c : Chronicle) (a : Nat) :
    c.contents[a]? = if a < c.size then some (c.value a) else none := by
  unfold contents
  rw [List.getElem?_map]
  split
  · next h => rw [List.getElem?_range h, Option.map_some]
  · next h => rw [List.getElem?_eq_none (by simpa using h), Option.map_none]

/-- A tape gives what its chronicle says. -/
structure Shows (t : Tape) (c : Chronicle) : Prop where
  size_eq : t.size = c.size
  get_eq : ∀ a, t.get a = c.value a

theorem shows_ofList (vs : List Int) : Shows (.ofList vs) ⟨vs, []⟩ where
  size_eq := Tape.size_ofList vs
  get_eq := Tape.get_ofList vs

variable {t u : Tape} {c d : Chronicle}

theorem Shows.toList_eq (h : Shows t c) : t.toList = c.contents := by
  rw [Tape.toList_eq, contents, h.size_eq, funext h.get_eq]

/-- A tape that looks the same can start a chronicle of its own, from the words it holds. -/
theorem Shows.renew (h : Shows t c) (hsize : u.size = t.size) (hget : ∀ a, u.get a = t.get a) :
    Shows u ⟨c.contents, []⟩ where
  size_eq := by
    have hlength : c.contents.length = c.size := by simp [contents]
    exact hsize.trans (h.size_eq.trans hlength.symm)
  get_eq a := by
    show u.get a = wrap (c.contents[a]?.getD 0)
    rw [hget, h.get_eq, getElem?_contents]
    split
    · exact (c.wrap_value a).symm
    · next ha =>
      -- the tape ends before this address, so the chronicle has no value for it either
      rw [← h.get_eq, Tape.get_of_size_le (by rw [h.size_eq]; omega)]
      rfl

theorem Shows.copy (h : Shows t c) : Shows t.copy ⟨c.contents, []⟩ :=
  h.renew t.size_copy t.get_copy

theorem Shows.rebuild (h : Shows t c) : Shows (.ofList t.toList) ⟨c.contents, []⟩ := by
  rw [h.toList_eq]
  exact shows_ofList _

theorem Shows.set (h : Shows t c) (a : Nat) (v : Int) : Shows (t.set a v) (c.written a v) where
  size_eq := by rw [Tape.size_set, size_written, h.size_eq]
  get_eq b := by rw [Tape.get_set, value_written, h.get_eq]

end Chronicle

end TapeNet
