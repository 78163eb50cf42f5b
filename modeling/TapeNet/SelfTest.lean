import TapeNet.Machine

/-! # Self-tests

    A diagnostic program prints the results of its self-tests, 0 for each
    that passed, and then a single diagnostic code.
-/

namespace TapeNet.SelfTest

inductive Failure
  | fault (cause : Fault)
  | noOutput
  /-- the tests that failed, as positions among the outputs -/
  | tests (positions : List Nat)
deriving DecidableEq, Repr

def Failure.message : Failure → String
  | .fault cause => cause.message
  | .noOutput => "diagnostic program produced no output"
  | .tests positions =>
    "self-tests failed at output(s) [" ++ ", ".intercalate (positions.map toString) ++ "]"

/-- The positions of the results that are not 0. -/
def failedTests (results : List Int) : List Nat :=
  (List.range results.length).filter fun i => results[i]? != some 0

/-- The diagnostic code among the outputs of a diagnostic program. -/
def codeOf (outputs : List Int) : Except Failure Int :=
  match outputs.getLast? with
  | none => .error .noOutput
  | some code =>
    match failedTests outputs.dropLast with
    | [] => .ok code
    | positions => .error (.tests positions)

/-- The diagnostic code of a program for a system. -/
def code (fuel : Nat) (program : List Int) (system : Int) : ExceptT Failure Option Int := do
  let outputs ← (runProgram fuel program [system]).adapt .fault
  ExceptT.mk (some (codeOf outputs))

end TapeNet.SelfTest
