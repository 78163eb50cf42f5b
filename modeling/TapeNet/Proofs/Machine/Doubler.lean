import Mathlib.Algebra.Group.Int.Defs
import TapeNet.Proofs.Machine.Flow

/-! # A program that doubles

    A program that takes values one after the other and gives the double of
    each. It has no halt instruction: it goes round until it is refused.

    - `plan_of_at` is the listing of the program. Its working cell lies
      behind its code, so tapes are only compared by what is read from them.
    - `Doubling xs ys m`: having taken `xs` and given `ys`, the machine is at
      one of the four instructions.
    - `Doubling.step` is what one step does to this, and `doubling_of_flow`
      what any number of steps does; `never_ends` and `given_of_starved`
      follow.
-/

namespace TapeNet

namespace Doubler

open Machine

/-- Takes values and gives each one doubled. -/
def doubleProgram : List Int := [3, 100, 1002, 100, 2, 100, 4, 100, 1105, 1, 0]

/-- The double of a value, as a word. -/
def double (x : Int) : Int := wrap (2 * x)

/-- What the machine is about to do at the addresses of the program that it gets to. -/
def doublePlan (v : Int) : Nat → Plan
  | 0 => .perform 2 (.input 100)
  | 2 => .perform 4 (.store 100 (v * 2))
  | 6 => .perform 2 (.output v)
  | _ => .perform 3 (.jump 0)

variable {m m' : Machine} {ip : Nat} {v r : Int} {o : Outcome} {xs ys : List Int}

/-! ### The listing -/

/-- The machine is at an address of the program, and `v` is in the working cell. -/
structure At (m : Machine) (ip : Nat) (v : Int) : Prop where
  ip_eq : m.ip = ip
  get_eq : ∀ a, m.tape.get a = if a = 100 then v else (Tape.ofList doubleProgram).get a
  not_halted : m.phase ≠ .halted

theorem at_load (c : Config) : At (load c doubleProgram) 0 0 where
  ip_eq := rfl
  get_eq a := by
    split
    · next ha =>
      subst ha
      rfl
    · rfl
  not_halted := Phase.noConfusion

namespace At

/-- The instruction word is one of the code. -/
theorem word_eq (h : At m ip v) (hip : ip < 100) :
    m.word = (Tape.ofList doubleProgram).get ip := by
  rw [word, h.ip_eq, h.get_eq, if_neg (Nat.ne_of_lt hip)]

/-- The parameters are those of the code. -/
theorem parameter_eq (h : At m ip v) (slot : Slot) (hip : ip + 1 + slot.index < 100) :
    m.parameter slot = (Tape.ofList doubleProgram).get (ip + 1 + slot.index) := by
  rw [parameter, h.ip_eq, h.get_eq, if_neg (Nat.ne_of_lt hip)]

/-- The working cell is read. -/
theorem operand_eq (h : At m ip v) {modes : Modes} (hmode : modes.at .first = .position)
    (hparameter : m.parameter .first = 100) : m.operand modes .first = .ok v := by
  rw [operand, hmode]
  show m.fetch (m.parameter .first) = _
  rw [hparameter]
  show Except.ok (m.tape.get 100) = _
  rw [h.get_eq, if_pos rfl]

end At

theorem plan_of_at (h : At m ip v) (hip : ip ∈ [0, 2, 6, 8]) : m.plan = doublePlan v ip := by
  simp only [List.mem_cons, List.not_mem_nil, or_false] at hip
  rcases hip with rfl | rfl | rfl | rfl
  · have hword : m.word = 3 := h.word_eq (by decide)
    have hfirst : m.parameter .first = 100 := h.parameter_eq .first (by decide)
    have heffect : m.effect ⟨.input, .position, .position, .position⟩ = .ok (.input 100) := by
      rw [← hfirst]
      rfl
    exact plan_of_effect h.not_halted (by rw [hword]; rfl) heffect
  · have hword : m.word = 1002 := h.word_eq (by decide)
    have hfirst : m.operand ⟨.position, .immediate, .position⟩ .first = .ok v :=
      h.operand_eq rfl (h.parameter_eq .first (by decide))
    have hsecond : m.operand ⟨.position, .immediate, .position⟩ .second = .ok 2 :=
      congrArg Except.ok (h.parameter_eq .second (by decide))
    have hthird : m.target ⟨.position, .immediate, .position⟩ .third = .ok 100 :=
      congrArg Except.ok (h.parameter_eq .third (by decide))
    have heffect : m.effect ⟨.multiply, .position, .immediate, .position⟩ =
        .ok (.store 100 (v * 2)) := by
      show m.combine _ _ = _
      rw [combine, hfirst, hsecond, hthird]
      rfl
    exact plan_of_effect h.not_halted (by rw [hword]; rfl) heffect
  · have hword : m.word = 4 := h.word_eq (by decide)
    have hfirst : m.operand ⟨.position, .position, .position⟩ .first = .ok v :=
      h.operand_eq rfl (h.parameter_eq .first (by decide))
    have heffect : m.effect ⟨.output, .position, .position, .position⟩ = .ok (.output v) := by
      show (do pure (Effect.output (← m.operand _ .first)) : Except Fault Effect) = _
      rw [hfirst]
      rfl
    exact plan_of_effect h.not_halted (by rw [hword]; rfl) heffect
  · have hword : m.word = 1105 := h.word_eq (by decide)
    have hfirst : m.operand ⟨.immediate, .immediate, .position⟩ .first = .ok 1 :=
      congrArg Except.ok (h.parameter_eq .first (by decide))
    have hsecond : m.operand ⟨.immediate, .immediate, .position⟩ .second = .ok 0 :=
      congrArg Except.ok (h.parameter_eq .second (by decide))
    have heffect : m.effect ⟨.jumpIfTrue, .immediate, .immediate, .position⟩ =
        .ok (.jump 0) := by
      show m.branch ⟨.immediate, .immediate, .position⟩ _ = _
      rw [branch, hfirst, hsecond]
      rfl
    exact plan_of_effect h.not_halted (by rw [hword]; rfl) heffect

theorem demand_of_at (h : At m ip v) (hip : ip ∈ [0, 2, 6, 8]) :
    m.demand = (doublePlan v ip).demand := by
  rw [demand, plan_of_at h hip]

/-! ### One step -/

namespace At

theorem store (h : At m ip v) {length : Nat} {w : Int}
    (hstore : m.counted.store length 100 w = (o, m')) :
    o = .continued ∧ At m' (ip + length) (wrap w) := by
  obtain ⟨rfl, hget, -⟩ := h
  cases hstore
  refine ⟨rfl, rfl, fun a => ?_, Phase.noConfusion⟩
  show (m.tape.set 100 w).get a = _
  rw [Tape.get_set, hget]
  split
  · rfl
  · rfl

theorem advance (h : At m ip v) {length : Nat} (hadvance : m.counted.advance length = (o, m')) :
    o = .continued ∧ At m' (ip + length) v := by
  obtain ⟨rfl, hget, -⟩ := h
  cases hadvance
  exact ⟨rfl, rfl, hget, Phase.noConfusion⟩

/-- The jump goes back to the first instruction. -/
theorem back (h : At m 8 v) {reply : Reply} (hresume : m.resume reply = (o, m')) :
    o = .continued ∧ At m' 0 v := by
  have hp := plan_of_at h (by decide)
  rw [resume, hp] at hresume
  cases hresume
  exact ⟨rfl, rfl, h.get_eq, Phase.noConfusion⟩

end At

/-! ### The whole program -/

/-- Where the machine is that has taken `xs` and given `ys`, and what its working cell holds. -/
inductive Doubling : List Int → List Int → Machine → Prop
  | waiting {m : Machine} {v : Int} {xs : List Int} : At m 0 v → Doubling xs (xs.map double) m
  | taken {m : Machine} {x : Int} {xs : List Int} :
      At m 2 (wrap x) → Doubling (xs ++ [x]) (xs.map double) m
  | doubled {m : Machine} {x : Int} {xs : List Int} :
      At m 6 (double x) → Doubling (xs ++ [x]) (xs.map double) m
  | given {m : Machine} {v : Int} {xs : List Int} : At m 8 v → Doubling xs (xs.map double) m

/-- A step that asks for nothing takes and gives nothing. -/
theorem Doubling.of_silent (h : Doubling xs ys m') (hd : m.demand = .silent) (r : Int) :
    Doubling (xs ++ m.demand.taken r) (ys ++ m.demand.given) m' := by
  rw [hd]
  simpa [Demand.taken, Demand.given] using h

/-- One step of the program: it goes on, and it doubles what it takes. -/
theorem Doubling.step (h : Doubling xs ys m) (hresume : m.resume (.ok r) = (o, m')) :
    o = .continued ∧ Doubling (xs ++ m.demand.taken r) (ys ++ m.demand.given) m' := by
  cases h with
  | waiting hat =>
    rw [resume_of_input (plan_of_at hat (by decide))] at hresume
    obtain ⟨rfl, hat'⟩ := hat.store hresume
    have hd : m.demand = .get := demand_of_at hat (by decide)
    refine ⟨rfl, ?_⟩
    rw [hd]
    simpa [Demand.taken, Demand.given] using Doubling.taken hat'
  | @taken _ x _ hat =>
    rw [resume_of_store (plan_of_at hat (by decide))] at hresume
    obtain ⟨rfl, hat'⟩ := hat.store hresume
    -- the value was wrapped when it was taken, which makes no difference to its double
    rw [wrap_mul_wrap, Int.mul_comm] at hat'
    exact ⟨rfl, (Doubling.doubled hat').of_silent (demand_of_at hat (by decide)) r⟩
  | @doubled _ x xs hat =>
    rw [resume_of_output (plan_of_at hat (by decide))] at hresume
    obtain ⟨rfl, hat'⟩ := hat.advance hresume
    have hd : m.demand = .put (double x) := demand_of_at hat (by decide)
    refine ⟨rfl, ?_⟩
    rw [hd]
    simpa [Demand.taken, Demand.given] using @Doubling.given _ _ (xs ++ [x]) hat'
  | given hat =>
    obtain ⟨rfl, hat'⟩ := hat.back hresume
    exact ⟨rfl, (Doubling.waiting hat').of_silent (demand_of_at hat (by decide)) r⟩

theorem doubling_of_flow {c : Config} {n : Nat} (h : Flow (load c doubleProgram) n xs ys m) :
    Doubling xs ys m := by
  induction h with
  | start => exact @Doubling.waiting _ _ [] (at_load c)
  | step _ _ hresume ih => exact (ih.step hresume).2

/-- The program never ends of its own accord. -/
theorem never_ends (c : Config) : ¬Ends (load c doubleProgram) xs ys o := by
  intro h
  cases h with
  | step hflow _ hresume ho => exact ho ((doubling_of_flow hflow).step hresume).1

/-- When the program waits for a value, it has doubled all that it took. -/
theorem Doubling.given_of_starved (h : Doubling xs ys m) (hget : m.demand = .get) :
    ys = xs.map double := by
  cases h with
  | waiting _ => rfl
  | taken hat => cases (demand_of_at hat (by decide)).symm.trans hget
  | doubled hat => cases (demand_of_at hat (by decide)).symm.trans hget
  | given _ => rfl

/-- Doubling a number of times is a multiplication by a power of two, wrapped once. -/
theorem double_wrap_pow (k : Nat) (x : Int) :
    double (wrap (2 ^ k * x)) = wrap (2 ^ (k + 1) * x) := by
  rw [double, mul_comm, wrap_mul_wrap, pow_succ, Int.mul_right_comm]

end Doubler

end TapeNet
