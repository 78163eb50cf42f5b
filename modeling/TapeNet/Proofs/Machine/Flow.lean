import Mathlib.Data.List.Basic
import TapeNet.Proofs.Machine.Steps

/-! # Machines as functions of streams

    Seen from its ports, a machine turns the inputs that it takes into the
    outputs that it gives. It is deterministic, so more inputs never change
    what it has given already.

    - `Flow m₀ n xs ys m`: in `n` steps that went on, a machine got from `m₀`
      to `m`, took `xs` and gave `ys`.
    - `Ends m₀ xs ys o`: having given `ys`, it ends of its own accord with the
      outcome `o`, the last of `xs` included if that was its last straw.
    - `Yields m₀ zs ys`: on the stream `zs` it gives `ys` and never more.
      A machine that ends yields what it gave (`Ends.yields`), and so does a
      machine that starves (`Flow.yields_of_starved`).
    - `run_cases`: a run on a buffer is such a flow, whatever the machine is
      called.
-/

namespace TapeNet

/-- What a demand takes, if the reply is `r`. -/
def Demand.taken : Demand → Int → List Int
  | .get, r => [r]
  | _, _ => []

/-- What a demand gives. -/
def Demand.given : Demand → List Int
  | .put v => [v]
  | _ => []

/-- A reply other than to a request for input carries no value. -/
def Demand.Admits (d : Demand) (r : Int) : Prop := d ≠ .get → r = 0

/-- What comes next on a stream is the only input that can be taken. -/
theorem Demand.eq_of_taken {d : Demand} {r r' : Int} {xs zs : List Int} (h : d.Admits r)
    (h' : d.Admits r') (hz : xs ++ d.taken r <+: zs) (hz' : xs ++ d.taken r' <+: zs) :
    r = r' := by
  by_cases hd : d = .get
  · subst hd
    have hlen : (xs ++ [r]).length = (xs ++ [r']).length := by simp
    have heq : xs ++ [r] = xs ++ [r'] :=
      (List.prefix_of_prefix_length_le hz hz' (Nat.le_of_eq hlen)).eq_of_length hlen
    exact List.cons.inj (List.append_cancel_left heq) |>.1
  · rw [h hd, h' hd]

namespace Machine

variable {m₀ m m' : Machine} {n n' : Nat} {xs xs' ys ys' zs zs' : List Int}

/-! ### Flows -/

/-- Steps in which a machine went on: how many there were, what it took and what it gave. -/
inductive Flow (m₀ : Machine) : Nat → List Int → List Int → Machine → Prop
  | start : Flow m₀ 0 [] [] m₀
  | step {n : Nat} {xs ys : List Int} {m m' : Machine} {r : Int} :
      Flow m₀ n xs ys m → m.demand.Admits r → m.resume (.ok r) = (.continued, m') →
        Flow m₀ (n + 1) (xs ++ m.demand.taken r) (ys ++ m.demand.given) m'

/-- A machine is deterministic: on one stream, flows of the same length are the same. -/
theorem Flow.unique (h : Flow m₀ n xs ys m) (h' : Flow m₀ n xs' ys' m') (hx : xs <+: zs)
    (hx' : xs' <+: zs) : xs = xs' ∧ ys = ys' ∧ m = m' := by
  -- by induction on the first flow; the second one has a last step when the first one has
  induction h generalizing xs' ys' m' with
  | start =>
    cases h'
    exact ⟨rfl, rfl, rfl⟩
  | step _ hadmits hresume ih =>
    cases h' with
    | step hflow' hadmits' hresume' =>
      obtain ⟨rfl, rfl, rfl⟩ := ih hflow' ((List.prefix_append _ _).trans hx)
        ((List.prefix_append _ _).trans hx')
      -- the machines are the same so far, so they take the same next input
      obtain rfl := Demand.eq_of_taken hadmits hadmits' hx hx'
      rw [hresume] at hresume'
      exact ⟨rfl, rfl, (Prod.mk.inj hresume').2⟩

/-- A flow has a part of every smaller length. -/
theorem Flow.exists_of_le (h : Flow m₀ n' xs' ys' m') (hn : n ≤ n') :
    ∃ xs ys m, Flow m₀ n xs ys m ∧ xs <+: xs' ∧ ys <+: ys' := by
  induction h with
  | start =>
    obtain rfl := Nat.le_zero.mp hn
    exact ⟨[], [], m₀, .start, List.prefix_rfl, List.prefix_rfl⟩
  | @step k xs' ys' m' _ r hflow hadmits hresume ih =>
    rcases Nat.lt_or_ge k n with hlt | hle
    · obtain rfl : n = k + 1 := by omega
      exact ⟨_, _, _, .step hflow hadmits hresume, List.prefix_rfl, List.prefix_rfl⟩
    · obtain ⟨xs, ys, m, h, hx, hy⟩ := ih hle
      exact ⟨xs, ys, m, h, hx.trans (List.prefix_append _ _), hy.trans (List.prefix_append _ _)⟩

/-- A flow that is no longer gives no more. -/
theorem Flow.given_le (h : Flow m₀ n xs ys m) (h' : Flow m₀ n' xs' ys' m') (hn : n ≤ n')
    (hx : xs <+: zs) (hx' : xs' <+: zs) : ys <+: ys' := by
  obtain ⟨xs₁, ys₁, m₁, h₁, hx₁, hy₁⟩ := h'.exists_of_le hn
  obtain ⟨-, rfl, -⟩ := h.unique h₁ hx (hx₁.trans hx')
  exact hy₁

/-- On one stream, what one flow gives is part of what the other one gives. -/
theorem Flow.comparable (h : Flow m₀ n xs ys m) (h' : Flow m₀ n' xs' ys' m') (hx : xs <+: zs)
    (hx' : xs' <+: zs) : ys <+: ys' ∨ ys' <+: ys := by
  rcases Nat.le_total n n' with hn | hn
  · exact .inl (h.given_le h' hn hx hx')
  · exact .inr (h'.given_le h hn hx' hx)

/-- A machine goes on as in any longer flow on the same stream. -/
theorem Flow.goes_on (h : Flow m₀ n xs ys m) (h' : Flow m₀ n' xs' ys' m') (hn : n < n')
    (hx : xs <+: zs) (hx' : xs' <+: zs) :
    ∃ r m₁, m.demand.Admits r ∧ m.resume (.ok r) = (.continued, m₁) ∧
      xs ++ m.demand.taken r <+: xs' := by
  obtain ⟨xs₁, ys₁, m₁, h₁, hx₁, -⟩ := h'.exists_of_le (Nat.succ_le_of_lt hn)
  cases h₁ with
  | step h₂ hadmits hresume =>
    obtain ⟨rfl, rfl, rfl⟩ :=
      h.unique h₂ hx ((List.prefix_append _ _).trans (hx₁.trans hx'))
    exact ⟨_, _, hadmits, hresume, hx₁⟩

/-! ### Ends -/

/-- A step that gives a value goes on, so one that ends a machine has given none. -/
theorem given_eq_nil_of_ended {r : Int} {o : Outcome} (h : m.resume (.ok r) = (o, m'))
    (ho : o ≠ .continued) : m.demand.given = [] := by
  cases hd : m.demand with
  | put v => exact absurd (by rw [← continued_of_put hd r, h]) ho
  | _ => rfl

/-- A machine that took `xs` and gave `ys` has ended of its own accord. -/
inductive Ends (m₀ : Machine) : List Int → List Int → Outcome → Prop
  | step {n : Nat} {xs ys : List Int} {m m' : Machine} {r : Int} {o : Outcome} :
      Flow m₀ n xs ys m → m.demand.Admits r → m.resume (.ok r) = (o, m') → o ≠ .continued →
        Ends m₀ (xs ++ m.demand.taken r) ys o

/-- The machine gives `ys` on the stream `zs`, and never gives more on it. -/
def Yields (m₀ : Machine) (zs ys : List Int) : Prop :=
  (∃ n xs m, Flow m₀ n xs ys m ∧ xs <+: zs) ∧
    ∀ n xs ys' m, Flow m₀ n xs ys' m → xs <+: zs → ys' <+: ys

/-- A machine that waits for more than the stream has yields what it gave. -/
theorem Flow.yields_of_starved (h : Flow m₀ n zs ys m) (hget : m.demand = .get) :
    Yields m₀ zs ys := by
  refine ⟨⟨n, zs, m, h, List.prefix_rfl⟩, fun n' xs' ys' m' h' hx' => ?_⟩
  rcases Nat.lt_or_ge n n' with hn | hn
  · -- a longer flow would have taken one more input than there is
    obtain ⟨r, -, -, -, hlonger⟩ := h.goes_on h' hn List.prefix_rfl hx'
    have hlen := (hlonger.trans hx').length_le
    rw [hget, List.length_append] at hlen
    simp only [Demand.taken, List.length_singleton] at hlen
    omega
  · exact h'.given_le h hn hx' List.prefix_rfl

/-- No flow on the same stream is longer than one at whose end the machine ended. -/
theorem Flow.le_of_ends {r : Int} {o : Outcome} {m₁ : Machine} (h : Flow m₀ n xs ys m)
    (hadmits : m.demand.Admits r) (hresume : m.resume (.ok r) = (o, m₁)) (hends : o ≠ .continued)
    (hx : xs ++ m.demand.taken r <+: zs) (h' : Flow m₀ n' xs' ys' m') (hx' : xs' <+: zs) :
    n' ≤ n := by
  -- in a longer flow the machine would have gone on from where it ended
  by_contra hn
  obtain ⟨r', m₂, hadmits', hresume', hlonger⟩ :=
    h.goes_on h' (Nat.not_le.mp hn) ((List.prefix_append _ _).trans hx) hx'
  obtain rfl := Demand.eq_of_taken hadmits hadmits' hx (hlonger.trans hx')
  rw [hresume] at hresume'
  exact hends (Prod.mk.inj hresume').1

/-- A machine that has ended yields what it gave, whatever else is on the stream. -/
theorem Ends.yields {o : Outcome} (h : Ends m₀ xs ys o) (hx : xs <+: zs) : Yields m₀ zs ys := by
  cases h with
  | @step n xs₁ _ m _ r _ hflow hadmits hresume hends =>
    have hx₁ : xs₁ <+: zs := (List.prefix_append _ _).trans hx
    refine ⟨⟨n, xs₁, m, hflow, hx₁⟩, fun n' xs' ys' m' h' hx' => ?_⟩
    have hn := hflow.le_of_ends hadmits hresume hends hx h' hx'
    exact h'.given_le hflow hn hx' hx₁

/-- On one stream a machine ends in one way. -/
theorem Ends.outcome_eq {o o' : Outcome} (h : Ends m₀ xs ys o) (h' : Ends m₀ xs' ys' o')
    (hx : xs <+: zs) (hx' : xs' <+: zs) : o = o' := by
  cases h with
  | step hflow hadmits hresume hends =>
    cases h' with
    | step hflow' hadmits' hresume' hends' =>
      have hpre := (List.prefix_append _ _).trans hx
      have hpre' := (List.prefix_append _ _).trans hx'
      have hle := hflow.le_of_ends hadmits hresume hends hx hflow' hpre'
      have hge := hflow'.le_of_ends hadmits' hresume' hends' hx' hflow hpre
      obtain rfl := Nat.le_antisymm hge hle
      obtain ⟨rfl, rfl, rfl⟩ := hflow.unique hflow' hpre hpre'
      obtain rfl := Demand.eq_of_taken hadmits hadmits' hx hx'
      rw [hresume] at hresume'
      exact (Prod.mk.inj hresume').1

/-- A machine that ends on a stream does not wait for more than it has. -/
theorem Ends.not_starved {o : Outcome} (h : Ends m₀ xs ys o) (hx : xs <+: zs)
    (h' : Flow m₀ n' zs ys' m') : m'.demand ≠ .get := by
  intro hget
  cases h with
  | @step n xs₁ _ m _ r _ hflow hadmits hresume hends =>
    have hn := hflow.le_of_ends hadmits hresume hends hx h' List.prefix_rfl
    have hx₁ : xs₁ <+: zs := (List.prefix_append _ _).trans hx
    -- whether the end lies behind the starvation or coincides with it, it needs one more input
    rcases Nat.lt_or_ge n' n with hlt | hge
    · obtain ⟨q, -, -, -, hlonger⟩ := h'.goes_on hflow hlt List.prefix_rfl hx₁
      have hlen := (hlonger.trans hx₁).length_le
      rw [hget, List.length_append] at hlen
      simp only [Demand.taken, List.length_singleton] at hlen
      omega
    · obtain rfl := Nat.le_antisymm hn hge
      obtain ⟨rfl, -, rfl⟩ := hflow.unique h' hx₁ List.prefix_rfl
      have hlen := hx.length_le
      rw [hget, List.length_append] at hlen
      simp only [Demand.taken, List.length_singleton] at hlen
      omega

/-! ### What a stream yields -/

theorem Yields.unique (h : Yields m₀ zs ys) (h' : Yields m₀ zs ys') : ys = ys' := by
  obtain ⟨⟨n, xs, m, hflow, hx⟩, hmax⟩ := h
  obtain ⟨⟨n', xs', m', hflow', hx'⟩, hmax'⟩ := h'
  have hle := hmax' n xs ys m hflow hx
  have hge := hmax n' xs' ys' m' hflow' hx'
  exact hle.eq_of_length_le hge.length_le

/-! ### Names and policies -/

/-- The machine under another name and policy. -/
def withConfig (m : Machine) (c : Config) : Machine := { m with config := c }

@[simp] theorem demand_withConfig (m : Machine) (c : Config) :
    (m.withConfig c).demand = m.demand := rfl

/-- A machine that is not refused does the same under any name and policy. -/
theorem resume_withConfig (m : Machine) (c : Config) (r : Int) :
    (m.withConfig c).resume (.ok r) =
      ((m.resume (.ok r)).1, (m.resume (.ok r)).2.withConfig c) := by
  -- the plan does not depend on the configuration, and without a refusal nothing else does
  show (m.withConfig c).carryOut m.plan (.ok r) =
    ((m.carryOut m.plan (.ok r)).1, (m.carryOut m.plan (.ok r)).2.withConfig c)
  cases m.plan with
  | perform length e =>
    cases e with
    | store address value => cases address <;> rfl
    | input address => cases address <;> rfl
    | jump t => cases t <;> rfl
    | _ => rfl
  | _ => rfl

/-! ### Runs on a buffer -/

/-- What a buffer answers: it gives the next input, or has none, and takes every output. -/
theorem answer_buffer (d : Demand) (b : Buffer) :
    (∃ r rest, d.Admits r ∧ b.inputs = d.taken r ++ rest ∧
      Buffer.port.answer d b = (.ok r, ⟨rest, b.outputs ++ d.given.toArray⟩)) ∨
    (d = .get ∧ b.inputs = [] ∧ Buffer.port.answer d b = (.error .exhausted, b)) := by
  obtain ⟨inputs, outputs⟩ := b
  cases d with
  | silent => exact .inl ⟨0, inputs, fun _ => rfl, rfl, by simp [Port.answer, Demand.given]⟩
  | put v =>
    refine .inl ⟨0, inputs, fun _ => rfl, rfl, ?_⟩
    simp [Port.answer, Demand.given, Buffer.port, Buffer.put]
  | get =>
    cases inputs with
    | nil => exact .inr ⟨rfl, rfl, rfl⟩
    | cons v rest =>
      refine .inl ⟨v, rest, fun h => absurd rfl h, rfl, ?_⟩
      simp [Port.answer, Demand.given, Buffer.port, Buffer.get]

/-- A run on a buffer either ends of its own accord or starves, and then its policy says whether it
    stops or fails. -/
theorem Flow.run_cases {c : Config} {fuel : Nat} {b b' : Buffer} {o : Outcome}
    (h : Flow m₀ n xs b.outputs.toList m)
    (hrun : (m.withConfig c).run Buffer.port fuel b = some (o, m', b')) :
    (∃ xs', xs' <+: xs ++ b.inputs ∧ Ends m₀ xs' b'.outputs.toList o) ∨
    (∃ n' m₁, Flow m₀ n' (xs ++ b.inputs) b'.outputs.toList m₁ ∧ m₁.demand = .get ∧
      o = if c.haltOnExhaustedInput then .stopped .exhausted
        else .failed (.port .exhausted)) := by
  -- by induction on the fuel; the flow grows by a step while the machine goes on
  induction fuel generalizing n xs m b with
  | zero => cases hrun
  | succ fuel ih =>
    rw [run, step_eq, demand_withConfig] at hrun
    rcases answer_buffer m.demand b with ⟨r, rest, hadmits, hinputs, ha⟩ | ⟨hget, hempty, ha⟩
    · rw [ha, resume_withConfig] at hrun
      rcases hresume : m.resume (.ok r) with ⟨o₁, m₁⟩
      rw [hresume] at hrun
      by_cases ho : o₁ = .continued
      · subst ho
        have hnext := h.step hadmits hresume
        have hcases := ih (b := ⟨rest, b.outputs ++ m.demand.given.toArray⟩)
          (by simpa using hnext) hrun
        rwa [List.append_assoc, ← hinputs] at hcases
      · have hnone := given_eq_nil_of_ended hresume ho
        have hlast : some (o₁, m₁.withConfig c, (⟨rest, b.outputs⟩ : Buffer)) =
            some (o, m', b') := by
          rw [hnone] at hrun
          cases o₁ with
          | continued => exact absurd rfl ho
          | _ => simpa [Buffer.port] using hrun
        obtain ⟨rfl, -, rfl⟩ :
            o₁ = o ∧ m₁.withConfig c = m' ∧ (⟨rest, b.outputs⟩ : Buffer) = b' := by
          simpa using hlast
        refine .inl ⟨xs ++ m.demand.taken r, ?_, .step h hadmits hresume ho⟩
        rw [hinputs, ← List.append_assoc]
        exact List.prefix_append _ _
    · -- the inputs are used up, and the policy says what that means
      rw [ha, resume_exhausted (by rw [demand_withConfig, hget])] at hrun
      rw [hempty, List.append_nil]
      by_cases hpolicy : (m.withConfig c).config.haltOnExhaustedInput = true
      · rw [if_pos hpolicy] at hrun
        obtain ⟨rfl, -, rfl⟩ := by simpa using hrun
        exact .inr ⟨n, m, h, hget, (if_pos hpolicy).symm⟩
      · rw [if_neg hpolicy] at hrun
        obtain ⟨rfl, -, rfl⟩ := by simpa using hrun
        exact .inr ⟨n, m, h, hget, (if_neg hpolicy).symm⟩

end Machine

end TapeNet
