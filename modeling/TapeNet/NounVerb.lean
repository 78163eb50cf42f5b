import TapeNet.Machine

/-! # Nouns and verbs

    Some programs take a noun at address 1 and a verb at address 2, use no
    port, and leave their answer at address 0.

    - `answer` patches a fresh tape, runs it and reads the answer.
    - `find` searches a square of nouns and verbs, noun by noun, for a pair
      with a given answer.
-/

namespace TapeNet.NounVerb

/-- The tape of a program with its noun and its verb in place. -/
def patched (program : List Int) (noun verb : Int) : Tape :=
  ((Tape.ofList program).set 1 noun).set 2 verb

/-- What a program answers to a noun and a verb. -/
def answer (fuel : Nat) (program : List Int) (noun verb : Int) : ExceptT Fault Option Int := do
  let (m, _) ← (Machine.onTape {} (patched program noun verb)).finish Port.silent fuel ()
  pure (m.tape.get 0)

inductive SearchError
  | fault (cause : Fault)
  | notFound (limit target : Int)
deriving DecidableEq, Repr

def SearchError.message : SearchError → String
  | .fault cause => cause.message
  | .notFound limit target => s!"no noun/verb in 0..{limit} produces {target}"

/-- The code of the first pair, with both parts below `n`, that has the answer `target`. -/
def search (fuel : Nat) (program : List Int) (target : Int) (n : Nat) :
    ExceptT Fault Option (Option Int) :=
  (List.range n).findSomeM? fun noun : Nat =>
    (List.range n).findSomeM? fun verb : Nat => do
      let r ← answer fuel program noun verb
      pure (if r = target then some (100 * noun + verb : Int) else none)

/-- A hundred times the noun plus the verb of the first pair in `0..limit` with a given answer. -/
def find (fuel : Nat) (program : List Int) (target limit : Int) :
    ExceptT SearchError Option Int := do
  match ← (search fuel program target (limit + 1).toNat).adapt .fault with
  | some code => pure code
  | none => throw (.notFound limit target)

end TapeNet.NounVerb
