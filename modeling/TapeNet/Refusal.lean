import TapeNet.Text.Decimal

/-! # Refusals and their messages

    A refusal is raised with its message, and the message names the number
    that is refused. Where numbers are written in no more than a given count
    of digits, a longer one has no message, so the refusal cannot be raised:
    the failure to write the number takes its place, and keeps nothing of it.
    A number that was read within the same limit can be written, so this only
    happens to numbers that were computed. The limit is set for the process as
    a whole and can be switched off, so it is a parameter here: what is
    proved of refusals holds for every limit, and for none.

    - `Writable limit v`: `v` can be written. There is a limit, or none.
    - `Refusal.of limit v e`: what the refusal `e` of `v` comes to.
-/

namespace TapeNet

/-- Whether an integer has no more digits than may be written. The sign is not counted. -/
def Writable (limit : Option Nat) (v : Int) : Prop := ∀ n ∈ limit, (Text.digits v.natAbs).length ≤ n

instance (limit : Option Nat) (v : Int) : Decidable (Writable limit v) :=
  match limit with
  | none => .isTrue fun _ h => nomatch h
  | some n => decidable_of_iff ((Text.digits v.natAbs).length ≤ n) (by simp [Writable])

/-- Without a limit everything can be written. -/
theorem writable_none (v : Int) : Writable none v := fun _ h => nomatch h

/-- How a number is refused: for the cause `e`, as long as it can be said. -/
inductive Refusal (ε : Type)
  | cause (e : ε)
  /-- the number has too many digits for the message -/
  | tooLong
deriving DecidableEq, Repr

namespace Refusal

variable {ε : Type} {limit : Option Nat} {v : Int}

/-- What becomes of the refusal of a number. -/
def of (limit : Option Nat) (v : Int) (e : ε) : Refusal ε :=
  if Writable limit v then .cause e else .tooLong

theorem of_writable (h : Writable limit v) (e : ε) : of limit v e = .cause e := if_pos h

theorem of_not_writable (h : ¬Writable limit v) (e : ε) : of limit v e = .tooLong := if_neg h

end Refusal

end TapeNet
