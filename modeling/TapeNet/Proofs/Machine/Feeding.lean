import TapeNet.Proofs.Machine.Flow
import TapeNet.Proofs.Machine.Lockstep

/-! # More inputs

    A machine on a buffer does not see how many inputs there are until it asks
    for one that is not there.

    - `Starving q`: the next step asks for an input and none is left.
    - `fed vs q`: the same with more inputs to come. A step that does not
      starve is the same when it is fed (`outcome_fed`, `afterStep_fed`), and
      so are sessions (`afterSteps_fed`) and runs (`run_fed`).
    - `outputs_monotone`: what this means for the outputs of a machine that
      stops when its inputs are used up.
-/

namespace TapeNet

namespace Machine

variable {q : Machine × Buffer} {vs : List Int}

/-- The next step asks for an input, and none is left. -/
def Starving (q : Machine × Buffer) : Prop := q.1.demand = .get ∧ q.2.inputs = []

instance (q : Machine × Buffer) : Decidable (Starving q) :=
  inferInstanceAs (Decidable (_ ∧ _))

/-- The same machine, with more inputs in its buffer. -/
def fed (vs : List Int) (q : Machine × Buffer) : Machine × Buffer := (q.1, q.2.feed vs)

/-! ### Steps -/

/-- A demand that the buffer can meet is met in the same way if there are more inputs behind. -/
theorem answer_feed {d : Demand} {b : Buffer} (h : ¬(d = .get ∧ b.inputs = [])) (vs : List Int) :
    Buffer.port.answer d (b.feed vs) =
      ((Buffer.port.answer d b).1, (Buffer.port.answer d b).2.feed vs) := by
  obtain ⟨inputs, outputs⟩ := b
  cases d with
  | silent => rfl
  | put v => rfl
  | get =>
    cases inputs with
    | nil => exact absurd ⟨rfl, rfl⟩ h
    | cons v rest => rfl

theorem outcome_fed (h : ¬Starving q) (vs : List Int) :
    outcome Buffer.port (fed vs q) = outcome Buffer.port q := by
  unfold outcome fed
  rw [step_eq, step_eq, answer_feed h]

theorem afterStep_fed (h : ¬Starving q) (vs : List Int) :
    afterStep Buffer.port (fed vs q) = fed vs (afterStep Buffer.port q) := by
  unfold afterStep fed
  rw [step_eq, step_eq, answer_feed h]

/-- A machine that starves is refused, and its policy says what comes of it. -/
theorem step_of_starving (h : Starving q) :
    q.1.step Buffer.port q.2 =
      if q.1.config.haltOnExhaustedInput = true then
        (.stopped .exhausted, { q.1.counted with phase := .halted }, q.2)
      else (.failed (.port .exhausted), q.1.counted, q.2) := by
  obtain ⟨m, inputs, outputs⟩ := q
  obtain ⟨hget, rfl⟩ : m.demand = .get ∧ inputs = [] := h
  have hanswer : Buffer.port.answer .get ⟨[], outputs⟩ = (.error .exhausted, ⟨[], outputs⟩) := rfl
  rw [step_eq]
  simp only [hget, hanswer, resume_exhausted hget]
  split
  · rfl
  · rfl

/-- A step on a buffer only adds to the outputs. -/
theorem outputs_afterStep (q : Machine × Buffer) :
    q.2.outputs.toList <+: (afterStep Buffer.port q).2.outputs.toList := by
  unfold afterStep
  rw [step_eq]
  rcases answer_buffer q.1.demand q.2 with ⟨r, rest, -, -, ha⟩ | ⟨-, -, ha⟩
  · simp [ha]
  · simp [ha]

/-! ### Sessions and runs -/

/-- As long as a machine does not starve, it does not matter how many inputs are left. -/
theorem afterSteps_fed {n : Nat} (h : ∀ k < n, ¬Starving (afterSteps Buffer.port k q)) :
    afterSteps Buffer.port n (fed vs q) = fed vs (afterSteps Buffer.port n q) := by
  induction n with
  | zero => rfl
  | succ n ih =>
    rw [afterSteps_succ, afterSteps_succ, ih (fun k hk => h k (Nat.lt_succ_of_lt hk))]
    exact afterStep_fed (h n (Nat.lt_succ_self n)) vs

/-- Outputs stay as they are, and others come after them. -/
theorem outputs_afterSteps {n n' : Nat} (h : n ≤ n') (q : Machine × Buffer) :
    (afterSteps Buffer.port n q).2.outputs.toList <+:
      (afterSteps Buffer.port n' q).2.outputs.toList := by
  induction h with
  | refl => exact List.prefix_rfl
  | step _ ih =>
    rw [afterSteps_succ]
    exact ih.trans (outputs_afterStep _)

/-- A run that ends with another outcome than starvation ends in the same way when it is fed, and
    leaves what it was fed. -/
theorem run_fed {fuel : Nat} {o : Outcome} {m : Machine} {b : Buffer}
    (hpolicy : q.1.config.haltOnExhaustedInput = true)
    (h : q.1.run Buffer.port fuel q.2 = some (o, m, b)) (ho : o ≠ .stopped .exhausted)
    (vs : List Int) :
    (fed vs q).1.run Buffer.port fuel (fed vs q).2 = some (o, m, b.feed vs) := by
  induction fuel generalizing q with
  | zero => cases h
  | succ fuel ih =>
    rw [run_succ] at h
    by_cases hstarving : Starving q
    · -- the policy stops the machine here, which the outcome excludes
      have hstep := step_of_starving hstarving
      rw [if_pos hpolicy] at hstep
      have houtcome : outcome Buffer.port q = .stopped .exhausted := by rw [outcome, hstep]
      rw [houtcome, if_neg Outcome.noConfusion] at h
      cases h
      exact absurd rfl ho
    · rw [run_succ, outcome_fed hstarving, afterStep_fed hstarving]
      by_cases hcontinued : outcome Buffer.port q = .continued
      · rw [if_pos hcontinued] at h ⊢
        exact ih (by rw [config_afterStep]; exact hpolicy) h
      · rw [if_neg hcontinued] at h ⊢
        cases h
        rfl

/-! ### Machines that stop when their inputs are used up -/

/-- Either the second machine does what the first one does with more inputs to come, or the first
    one has halted and the second one has given all that it gave. -/
structure Ahead (vs : List Int) (q q' : Machine × Buffer) : Prop where
  policy : q.1.config.haltOnExhaustedInput = true
  cases : q' = fed vs q ∨
    q.1.phase = .halted ∧ q.2.outputs.toList <+: q'.2.outputs.toList

theorem Ahead.outputs {q' : Machine × Buffer} (h : Ahead vs q q') :
    q.2.outputs.toList <+: q'.2.outputs.toList := by
  rcases h.cases with rfl | ⟨-, hprefix⟩
  · exact List.prefix_rfl
  · exact hprefix

theorem Ahead.afterStep {q' : Machine × Buffer} (h : Ahead vs q q') :
    Ahead vs (afterStep Buffer.port q) (afterStep Buffer.port q') := by
  have hpolicy : (Machine.afterStep Buffer.port q).1.config.haltOnExhaustedInput = true := by
    rw [config_afterStep]
    exact h.policy
  refine ⟨hpolicy, ?_⟩
  have hlonger := h.outputs.trans (outputs_afterStep q')
  rcases h.cases with rfl | ⟨hhalted, -⟩
  · by_cases hstarving : Starving q
    · -- the first machine halts here, and gives nothing any more
      right
      have hstep := step_of_starving hstarving
      rw [if_pos h.policy] at hstep
      have hafter : Machine.afterStep Buffer.port q =
          ({ q.1.counted with phase := .halted }, q.2) := by rw [Machine.afterStep, hstep]
      rw [hafter]
      exact ⟨rfl, hlonger⟩
    · exact .inl (afterStep_fed hstarving vs)
  · right
    have hafter : Machine.afterStep Buffer.port q = q := by
      rw [Machine.afterStep, step_of_halted _ hhalted]
    rw [hafter]
    exact ⟨hhalted, hlonger⟩

/-- A machine that stops when its inputs are used up, and the same machine with more inputs. They
    agree step by step, failures included, until the first one starves. At any time the second one
    has given at least what the first one had given then or before. If the first one stops without
    starving, the second one stops in the same state, and has not touched the additional inputs. -/
theorem outputs_monotone (name : String) (program xs ys : List Int) :
    let m : Machine := load ⟨name, true⟩ program
    let q : Machine × Buffer := (m, .ofInputs xs)
    let q' : Machine × Buffer := (m, .ofInputs (xs ++ ys))
    (∀ n, (∀ k < n, ¬Starving (afterSteps Buffer.port k q)) →
      (afterSteps Buffer.port n q').1 = (afterSteps Buffer.port n q).1 ∧
        (afterSteps Buffer.port n q').2.outputs = (afterSteps Buffer.port n q).2.outputs ∧
        (afterSteps Buffer.port n q').2.inputs = (afterSteps Buffer.port n q).2.inputs ++ ys ∧
        ∀ k < n, outcome Buffer.port (afterSteps Buffer.port k q') =
          outcome Buffer.port (afterSteps Buffer.port k q)) ∧
    (∀ n n', n ≤ n' → (afterSteps Buffer.port n q).2.outputs.toList <+:
      (afterSteps Buffer.port n' q').2.outputs.toList) ∧
    ∀ fuel o m' b, m.run Buffer.port fuel q.2 = some (o, m', b) → o ≠ .stopped .exhausted →
      m.run Buffer.port fuel q'.2 = some (o, m', b.feed ys) := by
  intro m q q'
  refine ⟨?_, ?_, ?_⟩
  · intro n hn
    have hfed : ∀ k ≤ n, afterSteps Buffer.port k q' = fed ys (afterSteps Buffer.port k q) := by
      intro k hk
      exact afterSteps_fed (fun j hj => hn j (Nat.lt_of_lt_of_le hj hk))
    rw [hfed n (Nat.le_refl n)]
    refine ⟨rfl, rfl, rfl, fun k hk => ?_⟩
    rw [hfed k (Nat.le_of_lt hk)]
    exact outcome_fed (hn k hk) ys
  · intro n n' hle
    have hstart : Ahead ys q q' := ⟨rfl, .inl rfl⟩
    have hahead : Ahead ys (afterSteps Buffer.port n q) (afterSteps Buffer.port n q') :=
      afterSteps_induction (fun _ _ h => h.afterStep) hstart n
    exact hahead.outputs.trans (outputs_afterSteps hle _)
  · intro fuel o m' b h ho
    exact run_fed (q := q) rfl h ho ys

/-- A machine that repeats two inputs, with its policy. -/
def echoTwice (stops : Bool) : Machine := load ⟨"vm", stops⟩ [3, 11, 4, 11, 3, 11, 4, 11, 99]

/-- It starves after the first input if there is no other, and leaves the third one if there are
    three. -/
theorem echoTwice_monotone :
    (∀ k < 2, ¬Starving (afterSteps Buffer.port k (echoTwice true, .ofInputs [7]))) ∧
    (afterSteps Buffer.port 2 (echoTwice true, .ofInputs ([7] ++ [8]))).1 =
      (afterSteps Buffer.port 2 (echoTwice true, .ofInputs [7])).1 ∧
    (afterSteps Buffer.port 3 (echoTwice true, .ofInputs [7])).2.outputs.toList <+:
      (afterSteps Buffer.port 4 (echoTwice true, .ofInputs ([7] ++ [8]))).2.outputs.toList ∧
    ∃ m, (echoTwice true).run Buffer.port 5 (.ofInputs [7, 8]) =
        some (.halted, m, ⟨[], #[7, 8]⟩) ∧
      (echoTwice true).run Buffer.port 5 (.ofInputs ([7, 8] ++ [9])) =
        some (.halted, m, ⟨[9], #[7, 8]⟩) := by
  have hfree : ∀ k < 2, ¬Starving (afterSteps Buffer.port k (echoTwice true, .ofInputs [7])) := by
    decide +kernel
  have hrun : (echoTwice true).run Buffer.port 5 (.ofInputs [7, 8]) =
      some (.halted, (afterSteps Buffer.port 5 (echoTwice true, .ofInputs [7, 8])).1,
        ⟨[], #[7, 8]⟩) := by
    decide +kernel
  obtain ⟨hagree, hprefix, -⟩ :=
    outputs_monotone "vm" [3, 11, 4, 11, 3, 11, 4, 11, 99] [7] [8]
  obtain ⟨-, -, hends⟩ := outputs_monotone "vm" [3, 11, 4, 11, 3, 11, 4, 11, 99] [7, 8] [9]
  refine ⟨hfree, (hagree 2 hfree).1, hprefix 3 4 (by decide), _, hrun, ?_⟩
  exact hends 5 _ _ _ hrun Outcome.noConfusion

end Machine

end TapeNet
