import TapeNet.Proofs.Machine.Feeding

/-! # Runs that are resumed

    A machine whose policy is not to stop when its inputs are used up breaks
    off instead. Its step is counted, but nothing else has happened, so it can
    be fed and run again.

    - `lateBy k m`: the machine with `k` more steps on its counter. Nothing a
      machine does depends on the counter (`run_lateBy`), and the step that
      breaks off makes no other difference (`run_counted`).
    - `Resumed q cs q'`: each run breaks off for want of inputs and is followed
      by another chunk of `cs`, up to the last run.
    - `Resumed.run_eq`: the last run is a run on all inputs at once, later by
      one step for each chunk.
-/

namespace TapeNet

namespace Machine

variable {σ : Type} {m : Machine} {q q' : Machine × Buffer}

/-! ### The step counter -/

/-- The machine with more steps on its counter. -/
def lateBy (k : Nat) (m : Machine) : Machine := { m with steps := m.steps + k }

theorem lateBy_lateBy (j k : Nat) (m : Machine) : (m.lateBy j).lateBy k = m.lateBy (j + k) := by
  simp only [lateBy, Nat.add_assoc]

theorem lateBy_injective (k : Nat) : Function.Injective (lateBy k) := by
  intro m m' h
  obtain ⟨config, tape, ip, base, steps, phase⟩ := m
  obtain ⟨config', tape', ip', base', steps', phase'⟩ := m'
  simpa [lateBy] using h

/-- A step counts on from where the counter stands, and does not look at it. -/
theorem parallel_lateBy (k : Nat) : Parallel fun m m' => m' = m.lateBy k where
  plan h := by rw [h]; rfl
  policy h := by rw [h]; rfl
  ip h := by rw [h]; rfl
  moved h _ := by rw [h]; rfl
  written h _ _ := by rw [h]; rfl
  adjusted h _ := by rw [h]; rfl
  entered h _ := by rw [h]; rfl
  stepped h := by
    rw [h]
    simp only [lateBy, Nat.add_right_comm]

/-- A machine that broke off when it asked for an input is about to do the same again. -/
theorem plan_counted (h : m.demand = .get) : m.counted.plan = m.plan := by
  cases hphase : m.phase with
  | halted =>
    rw [demand_of_halted hphase] at h
    cases h
  | _ =>
    simp only [plan, hphase]
    rfl

/-- It takes the same step, counted once more. -/
theorem resume_counted (h : m.demand = .get) (reply : Reply) :
    m.counted.resume reply = ((m.resume reply).1, (m.resume reply).2.lateBy 1) := by
  rcases plan_of_demand (by rw [h]; exact Demand.noConfusion) with
    ⟨length, a, -, hp⟩ | ⟨length, v, hput, -⟩
  · have hcounted : m.counted.counted = m.counted.lateBy 1 := rfl
    rw [resume, resume, plan_counted h, hp]
    exact Prod.ext_iff.mpr ((parallel_lateBy 1).apply hcounted length (.input a) reply)
  · cases hput.symm.trans h

/-- The end of a run of a machine with more steps on its counter. -/
def lateEnd (k : Nat) (e : Outcome × Machine × σ) : Outcome × Machine × σ :=
  (e.1, e.2.1.lateBy k, e.2.2)

theorem run_lateBy (P : Port σ) (k fuel : Nat) (m : Machine) (s : σ) :
    (m.lateBy k).run P fuel s = (m.run P fuel s).map (lateEnd k) := by
  have hstart : Parallel.OnePort (fun m m' => m' = m.lateBy k) (m, s) (m.lateBy k, s) :=
    ⟨rfl, rfl⟩
  have hruns : Option.Rel (fun e e' => e' = lateEnd k e) (m.run P fuel s)
      ((m.lateBy k).run P fuel s) := by
    refine ((parallel_lateBy k).lockstep P).run (fun _ => Iff.rfl) ?_ hstart fuel
    rintro o q q' ⟨hmachine, hport⟩
    rw [hmachine, hport]
    rfl
  generalize m.run P fuel s = e at hruns ⊢
  generalize (m.lateBy k).run P fuel s = e' at hruns ⊢
  cases hruns with
  | none => rfl
  | some h =>
    rw [h]
    rfl

/-- After it broke off, a machine runs on as if it had not, later by a step. -/
theorem run_counted (P : Port σ) (h : m.demand = .get) (fuel : Nat) (s : σ) :
    m.counted.run P fuel s = (m.run P fuel s).map (lateEnd 1) := by
  cases fuel with
  | zero => rfl
  | succ fuel =>
    have hdemand : m.counted.demand = m.demand := congrArg Plan.demand (plan_counted h)
    have houtcome : outcome P (m.counted, s) = outcome P (m, s) := by
      simp only [outcome, step_eq, hdemand, resume_counted h]
    have hafter : afterStep P (m.counted, s) =
        ((afterStep P (m, s)).1.lateBy 1, (afterStep P (m, s)).2) := by
      simp only [afterStep, step_eq, hdemand, resume_counted h]
    rw [run_succ P fuel (m.counted, s), run_succ P fuel (m, s), houtcome, hafter]
    split
    · exact run_lateBy P 1 fuel _ _
    · rfl

/-! ### Breaking off -/

/-- Only a machine that starves breaks off for want of inputs. -/
theorem starving_of_exhausted (h : outcome Buffer.port q = .failed (.port .exhausted)) :
    Starving q := by
  have hresume : q.1.resume (Buffer.port.answer q.1.demand q.2).1 =
      (.failed (.port .exhausted), (afterStep Buffer.port q).1) := Prod.ext h rfl
  obtain ⟨hreply, -⟩ := refused_of_fault hresume
  rcases answer_buffer q.1.demand q.2 with ⟨r, _, -, -, ha⟩ | ⟨hget, hempty, -⟩
  · rw [ha] at hreply
    cases hreply
  · exact ⟨hget, hempty⟩

/-- A run that broke off for want of inputs, once it is fed, goes on like a run that was fed before,
    later by a step. -/
theorem run_of_exhausted {fuel : Nat} {m' : Machine} {b' : Buffer}
    (h : q.1.run Buffer.port fuel q.2 = some (.failed (.port .exhausted), m', b')) :
    ∃ n, ∀ (vs : List Int) (fuel' : Nat), m'.run Buffer.port fuel' (b'.feed vs) =
      (q.1.run Buffer.port (fuel' + n) (q.2.feed vs)).map (lateEnd 1) := by
  induction fuel generalizing q with
  | zero => cases h
  | succ fuel ih =>
    rw [run_succ] at h
    by_cases hcontinued : outcome Buffer.port q = .continued
    · -- the step before the break is the same for the machine that was fed
      have hstarving : ¬Starving q := by
        intro hs
        have hstep := step_of_starving hs
        rw [outcome, hstep] at hcontinued
        split at hcontinued
        · cases hcontinued
        · cases hcontinued
      rw [if_pos hcontinued] at h
      obtain ⟨n, hn⟩ := ih h
      refine ⟨n + 1, fun vs fuel' => ?_⟩
      have hfed := run_succ Buffer.port (fuel' + n) (fed vs q)
      rw [outcome_fed hstarving, afterStep_fed hstarving, if_pos hcontinued] at hfed
      rw [hn vs fuel']
      exact congrArg (Option.map (lateEnd 1)) hfed.symm
    · rw [if_neg hcontinued] at h
      obtain ⟨houtcome, hend⟩ := Prod.mk.inj (Option.some.inj h)
      have hstarving := starving_of_exhausted houtcome
      have hstep := step_of_starving hstarving
      -- the policy is not to stop, since the machine broke off
      have hpolicy : ¬q.1.config.haltOnExhaustedInput = true := by
        intro hstop
        rw [outcome, hstep, if_pos hstop] at houtcome
        cases houtcome
      rw [if_neg hpolicy] at hstep
      have hafter : afterStep Buffer.port q = (q.1.counted, q.2) := by rw [afterStep, hstep]
      rw [hafter] at hend
      obtain ⟨rfl, rfl⟩ := Prod.mk.inj hend
      exact ⟨0, fun vs fuel' => run_counted Buffer.port hstarving.1 fuel' (q.2.feed vs)⟩

/-! ### Resuming -/

/-- From a machine and its buffer to where the last run starts: each run before broke off for want of
    inputs, and another chunk was fed then. -/
inductive Resumed : Machine × Buffer → List (List Int) → Machine × Buffer → Prop
  | last {q : Machine × Buffer} : Resumed q [] q
  | again {q q' : Machine × Buffer} {fuel : Nat} {m : Machine} {b : Buffer} {c : List Int}
      {cs : List (List Int)} :
      q.1.run Buffer.port fuel q.2 = some (.failed (.port .exhausted), m, b) →
        Resumed (m, b.feed c) cs q' → Resumed q (c :: cs) q'

theorem feed_feed (b : Buffer) (us vs : List Int) : (b.feed us).feed vs = b.feed (us ++ vs) := by
  simp only [Buffer.feed, List.append_assoc]

/-- The last run is a run on all inputs at once, later by one step for each chunk that was fed. -/
theorem Resumed.run_eq {cs : List (List Int)} (h : Resumed q cs q') :
    ∃ n, ∀ fuel, q'.1.run Buffer.port fuel q'.2 =
      (q.1.run Buffer.port (fuel + n) (q.2.feed cs.flatten)).map (lateEnd cs.length) := by
  induction h with
  | @last q =>
    refine ⟨0, fun fuel => ?_⟩
    have hfeed : q.2.feed [] = q.2 := by simp only [Buffer.feed, List.append_nil]
    have hlate : (lateEnd 0 : Outcome × Machine × Buffer → _) = id := rfl
    rw [List.flatten_nil, hfeed, List.length_nil, hlate, Option.map_id]
    rfl
  | @again q q' _ m b c cs hrun _ ih =>
    obtain ⟨n, hn⟩ := ih
    obtain ⟨n', hn'⟩ := run_of_exhausted hrun
    refine ⟨n + n', fun fuel => ?_⟩
    have hlate : (lateEnd cs.length ∘ lateEnd 1 : Outcome × Machine × Buffer → _) =
        lateEnd (c :: cs).length := by
      funext e
      simp only [Function.comp_apply, lateEnd, lateBy_lateBy, List.length_cons, Nat.add_comm]
    calc q'.1.run Buffer.port fuel q'.2
        = (m.run Buffer.port (fuel + n) ((b.feed c).feed cs.flatten)).map
            (lateEnd cs.length) := hn fuel
      _ = ((q.1.run Buffer.port (fuel + n + n') (q.2.feed (c ++ cs.flatten))).map
            (lateEnd 1)).map (lateEnd cs.length) := by rw [feed_feed, hn']
      _ = (q.1.run Buffer.port (fuel + (n + n')) (q.2.feed (c :: cs).flatten)).map
            (lateEnd (c :: cs).length) := by
          rw [Option.map_map, hlate, Nat.add_assoc, List.flatten_cons]

/-- A machine that breaks off when its inputs are used up, is fed and run again, once for each chunk
    after the first one: the last run ends, and ends like this, if and only if a run of a fresh
    machine on all chunks at once does. Only the counter tells them apart, by one step for each
    interruption. -/
theorem resumed_run_ends_as_whole_run {name : String} {program c : List Int}
    {cs : List (List Int)} {q : Machine × Buffer}
    (h : Resumed (load ⟨name, false⟩ program, .ofInputs c) cs q) (o : Outcome) (m : Machine)
    (b : Buffer) :
    (∃ fuel, (load ⟨name, false⟩ program).run Buffer.port fuel (.ofInputs (c ++ cs.flatten)) =
        some (o, m, b)) ↔
      ∃ fuel, q.1.run Buffer.port fuel q.2 = some (o, m.lateBy cs.length, b) := by
  obtain ⟨n, hn⟩ := h.run_eq
  have hwhole : (Buffer.ofInputs c).feed cs.flatten = .ofInputs (c ++ cs.flatten) := rfl
  rw [hwhole] at hn
  constructor
  · rintro ⟨fuel, hrun⟩
    refine ⟨fuel, ?_⟩
    rw [hn fuel, run_add Buffer.port n hrun]
    rfl
  · rintro ⟨fuel, hrun⟩
    rw [hn fuel] at hrun
    obtain ⟨⟨o', m', b'⟩, hrun', hend⟩ := Option.map_eq_some_iff.mp hrun
    obtain ⟨rfl, hrest⟩ := Prod.mk.inj hend
    obtain ⟨hm, rfl⟩ := Prod.mk.inj hrest
    obtain rfl := lateBy_injective cs.length hm
    exact ⟨fuel + n, hrun'⟩

/-- A machine that repeats two inputs is given one, then none, then the other one. -/
theorem echoTwice_resumed :
    ∃ q, Resumed (echoTwice false, .ofInputs [7]) [[], [8]] q ∧
      ∃ m, (echoTwice false).run Buffer.port 5 (.ofInputs ([7] ++ [[], [8]].flatten)) =
          some (.halted, m, ⟨[], #[7, 8]⟩) ∧
        ∃ fuel, q.1.run Buffer.port fuel q.2 = some (.halted, m.lateBy 2, ⟨[], #[7, 8]⟩) := by
  let q₁ := afterSteps Buffer.port 3 (echoTwice false, .ofInputs [7])
  let q₂ := afterSteps Buffer.port 1 q₁
  have hfirst : (echoTwice false).run Buffer.port 3 (.ofInputs [7]) =
      some (.failed (.port .exhausted), q₁.1, q₁.2) := by decide +kernel
  have hsecond : q₁.1.run Buffer.port 1 (q₁.2.feed []) =
      some (.failed (.port .exhausted), q₂.1, q₂.2) := by decide +kernel
  have hresumed : Resumed (echoTwice false, .ofInputs [7]) [[], [8]] (q₂.1, q₂.2.feed [8]) :=
    .again hfirst (.again hsecond .last)
  have hwhole : (echoTwice false).run Buffer.port 5 (.ofInputs ([7] ++ [[], [8]].flatten)) =
      some (.halted, (afterSteps Buffer.port 5 (echoTwice false, .ofInputs [7, 8])).1,
        ⟨[], #[7, 8]⟩) := by decide +kernel
  exact ⟨_, hresumed, _, hwhole,
    (resumed_run_ends_as_whole_run hresumed _ _ _).mp ⟨5, hwhole⟩⟩

end Machine

end TapeNet
