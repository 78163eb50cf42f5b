import Mathlib.Data.Option.Defs
import Mathlib.Logic.Function.Iterate
import TapeNet.Machine

/-! # Machines in lockstep

    Two machines are compared by calling them side by side. A call that fails
    does not end such a session: the next one tries again, and a machine that
    has halted stays as it is.

    - `outcome P q` and `exchange P q`: what the next call comes to, and what
      it asks of the port and hears.
    - `afterSteps P n q`: the machine and its port after `n` calls.
    - `Lockstep P P' f R`: a step keeps the relation `R`, and `f` takes the
      outcome on the left to the one on the right. `Lockstep.afterSteps` and
      `Lockstep.run` carry this on to any number of calls and to whole runs.
    - `Parallel R`: a relation between machines that plan the same, and that
      is kept by all that a step can do. On the same port such machines go in
      lockstep (`Parallel.lockstep`). An invariant of one machine is a relation
      of this kind on the diagonal, as `parallel_config` is.
-/

namespace TapeNet

namespace Machine

variable {σ τ : Type}

/-! ### Sessions -/

/-- What the next call to `step` comes to. -/
def outcome (P : Port σ) (q : Machine × σ) : Outcome := (q.1.step P q.2).1

/-- What the next call to `step` asks of the port, and what it hears. -/
def exchange (P : Port σ) (q : Machine × σ) : Demand × Reply :=
  (q.1.demand, (P.answer q.1.demand q.2).1)

/-- The machine and its port after a call to `step`. -/
def afterStep (P : Port σ) (q : Machine × σ) : Machine × σ := (q.1.step P q.2).2

/-- The machine and its port after a number of calls to `step`, whatever they come to. -/
def afterSteps (P : Port σ) (n : Nat) (q : Machine × σ) : Machine × σ := (afterStep P)^[n] q

theorem afterSteps_succ (P : Port σ) (n : Nat) (q : Machine × σ) :
    afterSteps P (n + 1) q = afterStep P (afterSteps P n q) :=
  Function.iterate_succ_apply' _ n q

/-- A run goes on as long as steps do, and closes the port after the one that does not. -/
theorem run_succ (P : Port σ) (fuel : Nat) (q : Machine × σ) :
    q.1.run P (fuel + 1) q.2 =
      if outcome P q = .continued then (afterStep P q).1.run P fuel (afterStep P q).2
      else some (outcome P q, (afterStep P q).1, P.close (afterStep P q).2) := by
  obtain ⟨m, s⟩ := q
  rcases h : m.step P s with ⟨o, m', s'⟩
  have houtcome : outcome P (m, s) = o := by simp only [outcome, h]
  have hafter : afterStep P (m, s) = (m', s') := by simp only [afterStep, h]
  rw [houtcome, hafter]
  simp only [run, h]
  cases o with
  | continued => simp
  | _ => simp

/-! ### Invariants of two sessions -/

/-- What a step of both sides keeps holds after any number of steps. -/
theorem afterSteps_induction {P : Port σ} {P' : Port τ} {R : Machine × σ → Machine × τ → Prop}
    (hstep : ∀ q q', R q q' → R (afterStep P q) (afterStep P' q')) {q : Machine × σ}
    {q' : Machine × τ} (hq : R q q') (n : Nat) : R (afterSteps P n q) (afterSteps P' n q') := by
  induction n with
  | zero => exact hq
  | succ n ih =>
    rw [afterSteps_succ, afterSteps_succ]
    exact hstep _ _ ih

/-- Related sessions stay related, and `f` takes the outcomes of one to those of the other. -/
def Lockstep (P : Port σ) (P' : Port τ) (f : Outcome → Outcome)
    (R : Machine × σ → Machine × τ → Prop) : Prop :=
  ∀ q q', R q q' → outcome P' q' = f (outcome P q) ∧ R (afterStep P q) (afterStep P' q')

namespace Lockstep

variable {P : Port σ} {P' : Port τ} {f : Outcome → Outcome} {R : Machine × σ → Machine × τ → Prop}
  {q : Machine × σ} {q' : Machine × τ}

theorem afterSteps (h : Lockstep P P' f R) (hq : R q q') (n : Nat) :
    R (afterSteps P n q) (afterSteps P' n q') ∧
      Machine.outcome P' (Machine.afterSteps P' n q') =
        f (Machine.outcome P (Machine.afterSteps P n q)) := by
  have hn := afterSteps_induction (fun q q' hq => (h q q' hq).2) hq n
  exact ⟨hn, (h _ _ hn).1⟩

/-- Related sessions run equally long. Their ends are related by `D` if this is so whenever the ports
    of related sessions are closed. -/
theorem run {D : Outcome × Machine × σ → Outcome × Machine × τ → Prop} (h : Lockstep P P' f R)
    (hf : ∀ o, f o = .continued ↔ o = .continued)
    (hclose : ∀ o q q', R q q' → D (o, q.1, P.close q.2) (f o, q'.1, P'.close q'.2)) (hq : R q q')
    (fuel : Nat) : Option.Rel D (q.1.run P fuel q.2) (q'.1.run P' fuel q'.2) := by
  induction fuel generalizing q q' with
  | zero => exact .none
  | succ fuel ih =>
    obtain ⟨houtcome, hnext⟩ := h q q' hq
    rw [run_succ, run_succ, houtcome]
    by_cases ho : Machine.outcome P q = .continued
    · rw [if_pos ho, if_pos ((hf _).mpr ho)]
      exact ih hnext
    · -- the left side stops here, so the right side does
      rw [if_neg ho, if_neg (fun hc => ho ((hf _).mp hc))]
      exact .some (hclose _ _ _ hnext)

end Lockstep

/-! ### Machines that do alike -/

/-- Machines related by `R` plan the same step and have the same policy, and `R` is kept by
    everything that a step can do to a machine. -/
structure Parallel (R : Machine → Machine → Prop) : Prop where
  plan : ∀ {m m'}, R m m' → m'.plan = m.plan
  policy : ∀ {m m'}, R m m' → m'.config.haltOnExhaustedInput = m.config.haltOnExhaustedInput
  ip : ∀ {m m'}, R m m' → m'.ip = m.ip
  moved : ∀ {m m'}, R m m' → ∀ a, R { m with ip := a } { m' with ip := a }
  written : ∀ {m m'}, R m m' → ∀ a v,
    R { m with tape := m.tape.set a v } { m' with tape := m'.tape.set a v }
  adjusted : ∀ {m m'}, R m m' → ∀ d,
    R { m with base := m.base + d } { m' with base := m'.base + d }
  entered : ∀ {m m'}, R m m' → ∀ phase, R { m with phase := phase } { m' with phase := phase }
  stepped : ∀ {m m'}, R m m' → R { m with steps := m.steps + 1 } { m' with steps := m'.steps + 1 }

/-- The same outcome, and machines that are still related. -/
def Alike (R : Machine → Machine → Prop) (e e' : Outcome × Machine) : Prop :=
  e'.1 = e.1 ∧ R e.2 e'.2

namespace Parallel

variable {R : Machine → Machine → Prop} {m m' : Machine}

theorem advance (hR : Parallel R) (h : R m m') (length : Nat) :
    Alike R (m.advance length) (m'.advance length) := by
  have hmoved := hR.moved h (m.ip + length)
  refine ⟨rfl, ?_⟩
  unfold Machine.advance
  rw [hR.ip h]
  exact hmoved

theorem store (hR : Parallel R) (h : R m m') (length : Nat) (address value : Int) :
    Alike R (m.store length address value) (m'.store length address value) := by
  cases address with
  | ofNat a => exact hR.advance (hR.written h a value) length
  | negSucc n => exact ⟨rfl, h⟩

theorem refused (hR : Parallel R) (h : R m m') (cause : PortError) :
    Alike R (m.refused cause) (m'.refused cause) := by
  have hgraceful : m'.isGraceful cause = m.isGraceful cause := by
    unfold isGraceful
    rw [hR.policy h]
  unfold Machine.refused
  rw [hgraceful]
  split
  · exact ⟨rfl, hR.entered h .halted⟩
  · exact ⟨rfl, h⟩

theorem apply (hR : Parallel R) (h : R m m') (length : Nat) (e : Effect) (reply : Reply) :
    Alike R (m.apply length e reply) (m'.apply length e reply) := by
  cases e with
  | store address value => exact hR.store h length address value
  | input address =>
    cases reply with
    | ok value => exact hR.store h length address value
    | error cause => exact hR.refused h cause
  | output value =>
    cases reply with
    | ok _ => exact hR.advance h length
    | error cause => exact hR.refused h cause
  | jump t =>
    cases t with
    | ofNat a => exact ⟨rfl, hR.moved h a⟩
    | negSucc n => exact ⟨rfl, h⟩
  | adjust offset => exact hR.advance (hR.adjusted h offset) length
  | proceed => exact hR.advance h length
  | halt => exact ⟨rfl, hR.entered h .halted⟩

theorem counted (hR : Parallel R) (h : R m m') : R m.counted m'.counted :=
  hR.entered (hR.stepped h) .running

/-- Whatever the port replies, a step does the same to both machines. -/
theorem resume (hR : Parallel R) (h : R m m') (reply : Reply) :
    Alike R (m.resume reply) (m'.resume reply) := by
  unfold Machine.resume
  rw [hR.plan h]
  cases m.plan with
  | idle => exact ⟨rfl, h⟩
  | undecodable cause => exact ⟨rfl, hR.entered h .running⟩
  | unresolved fault => exact ⟨rfl, hR.counted h⟩
  | perform length e => exact hR.apply (hR.counted h) length e reply

theorem demand (hR : Parallel R) (h : R m m') : m'.demand = m.demand :=
  congrArg Plan.demand (hR.plan h)

/-- Related machines, with their ports in the same state. -/
def OnePort (R : Machine → Machine → Prop) (q q' : Machine × σ) : Prop := R q.1 q'.1 ∧ q'.2 = q.2

/-- Related machines on the same port go in lockstep. -/
theorem lockstep (hR : Parallel R) (P : Port σ) : Lockstep P P id (OnePort R) := by
  rintro q q' ⟨h, hs⟩
  -- the machines ask the same of the port and hear the same
  obtain ⟨houtcome, hmachine⟩ := hR.resume h (P.answer q.1.demand q.2).1
  unfold OnePort outcome afterStep
  rw [step_eq, step_eq, hR.demand h, hs]
  exact ⟨houtcome, hmachine, rfl⟩

end Parallel

/-- What a step can do to a machine leaves its name and policy alone. -/
theorem parallel_config (c : Config) : Parallel fun m m' => m' = m ∧ m.config = c where
  plan h := by rw [h.1]
  policy h := by rw [h.1]
  ip h := by rw [h.1]
  moved h _ := ⟨by rw [h.1], h.2⟩
  written h _ _ := ⟨by rw [h.1], h.2⟩
  adjusted h _ := ⟨by rw [h.1], h.2⟩
  entered h _ := ⟨by rw [h.1], h.2⟩
  stepped h := ⟨by rw [h.1], h.2⟩

theorem config_resume (m : Machine) (reply : Reply) : (m.resume reply).2.config = m.config :=
  ((parallel_config m.config).resume ⟨rfl, rfl⟩ reply).2.2

theorem config_afterStep (P : Port σ) (q : Machine × σ) :
    (afterStep P q).1.config = q.1.config :=
  q.1.config_resume _

end Machine

end TapeNet
