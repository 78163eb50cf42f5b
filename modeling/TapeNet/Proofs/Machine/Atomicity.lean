import TapeNet.Proofs.Machine.Steps
import TapeNet.Proofs.Net.Accounts

/-! # Steps that fail

    A step that fails or is stopped leaves the machine where it was, on the
    same tape, and gives nothing to its port.

    - `resume_failed` and `resume_stopped`: what a step that fails or is
      stopped does to the machine, whatever the port replied.
    - `Port.Steady`: a port that is as it was after a refusal. A step that
      fails on such a port leaves it alone, unless it was about to store an
      input at a negative address (`Misdirected`): that input is lost.
-/

namespace TapeNet

namespace Machine

/-- The machine is where it was, on the tape that it had. -/
structure Kept (m m' : Machine) : Prop where
  config : m'.config = m.config
  tape : m'.tape = m.tape
  ip : m'.ip = m.ip
  base : m'.base = m.base

/-- The steps that a machine counts for its next word: one if the word can be decoded. -/
def counts (m : Machine) : Nat :=
  match Instruction.ofWord m.word with
  | .ok _ => 1
  | .error _ => 0

/-- The next instruction is an input, and its target is a negative address. -/
def Misdirected (m : Machine) : Prop :=
  ∃ i a, Instruction.ofWord m.word = .ok i ∧ i.opcode = .input ∧
    m.target i.modes .first = .ok a ∧ a < 0

/-! ### What a step that fails does to the machine -/

/-- An effect that fails changes nothing. If it asked for a value and got one, it was an input for
    a negative address. -/
theorem apply_failed {m m' : Machine} {length : Nat} {e : Effect} {reply : Reply} {fault : Fault}
    (h : m.apply length e reply = (.failed fault, m')) :
    m' = m ∧ ((Plan.perform length e).demand = .silent ∨ (∃ cause, reply = .error cause) ∨
      ∃ a v, e = .input a ∧ a < 0 ∧ reply = .ok v) := by
  rcases m.apply_cases length e reply with
    ⟨_, hs⟩ | ⟨-, hs⟩ | ⟨cause, -, hr, hs⟩ | ⟨a, hneg, hs, hd⟩
  · cases hs.symm.trans h
  · cases hs.symm.trans h
  · rcases m.refused_cases cause with hc | hc
    · cases (hs.trans hc).symm.trans h
    · cases (hs.trans hc).symm.trans h
      exact ⟨rfl, .inr (.inl ⟨cause, hr⟩)⟩
  · cases hs.symm.trans h
    refine ⟨rfl, ?_⟩
    rcases hd with hsilent | ⟨v, hinput, hv⟩
    · exact .inl hsilent
    · exact .inr (.inr ⟨a, v, hinput, hneg, hv⟩)

/-- An effect is stopped only by a refusal of what it asked for, and then the machine halts. -/
theorem apply_stopped {m m' : Machine} {length : Nat} {e : Effect} {reply : Reply}
    {cause : PortError} (h : m.apply length e reply = (.stopped cause, m')) :
    m' = { m with phase := .halted } ∧ reply = .error cause := by
  rcases m.apply_cases length e reply with ⟨_, hs⟩ | ⟨-, hs⟩ | ⟨cause', -, hr, hs⟩ | ⟨a, -, hs, -⟩
  · cases hs.symm.trans h
  · cases hs.symm.trans h
  · rcases m.refused_cases cause' with hc | hc
    · cases (hs.trans hc).symm.trans h
      exact ⟨rfl, hr⟩
    · cases (hs.trans hc).symm.trans h
  · cases hs.symm.trans h

/-- A machine that is about to take an input for a negative address asks for it all the same. -/
theorem Misdirected.demand {m : Machine} (h : m.Misdirected) (hp : m.phase ≠ .halted) :
    m.demand = .get := by
  obtain ⟨i, a, hdecode, hopcode, htarget, -⟩ := h
  have heffect := effect_eq_input.mpr ⟨hopcode, htarget⟩
  unfold Machine.demand plan
  split
  · next hhalted => exact absurd hhalted hp
  · rw [hdecode]
    simp only [heffect]
    rfl

/-- A step that fails only counts. If it got a value that it asked for, the input had no place
    to go. -/
theorem resume_failed {m m' : Machine} {reply : Reply} {fault : Fault}
    (h : m.resume reply = (.failed fault, m')) :
    m.Kept m' ∧ m'.phase = .running ∧ m'.steps = m.steps + m.counts ∧
      (m.demand = .silent ∨ (∃ cause, reply = .error cause) ∨
        (m.Misdirected ∧ ∃ v, reply = .ok v)) := by
  rw [resume] at h
  rcases m.plan_cases with hp | ⟨cause, hd, hp⟩ | ⟨i, cause, hd, -, hp⟩ | ⟨i, e, hd, he, hp⟩
  · rw [hp] at h
    cases h
  · rw [hp] at h
    cases h
    refine ⟨⟨rfl, rfl, rfl, rfl⟩, rfl, ?_, .inl (by rw [demand, hp]; rfl)⟩
    rw [counts, hd]
    rfl
  · rw [hp] at h
    cases h
    refine ⟨⟨rfl, rfl, rfl, rfl⟩, rfl, ?_, .inl (by rw [demand, hp]; rfl)⟩
    rw [counts, hd]
    rfl
  · -- the word was decoded, so the step is counted even though the effect failed
    rw [hp] at h
    obtain ⟨rfl, hcase⟩ := apply_failed (show m.counted.apply _ e reply = _ from h)
    refine ⟨⟨rfl, rfl, rfl, rfl⟩, rfl, ?_, ?_⟩
    · rw [counts, hd]
      rfl
    · rw [demand, hp]
      refine hcase.imp_right (Or.imp_right ?_)
      rintro ⟨a, v, rfl, hneg, hv⟩
      obtain ⟨hopcode, htarget⟩ := effect_eq_input.mp he
      exact ⟨⟨i, a, hd, hopcode, htarget, hneg⟩, v, hv⟩

/-- A step that is stopped by the port counts and halts. -/
theorem resume_stopped {m m' : Machine} {reply : Reply} {cause : PortError}
    (h : m.resume reply = (.stopped cause, m')) :
    m.Kept m' ∧ m'.phase = .halted ∧ reply = .error cause := by
  rw [resume] at h
  rcases m.plan_cases with hp | ⟨_, -, hp⟩ | ⟨_, _, -, -, hp⟩ | ⟨i, e, -, -, hp⟩
  · rw [hp] at h
    cases h
  · rw [hp] at h
    cases h
  · rw [hp] at h
    cases h
  · rw [hp] at h
    obtain ⟨rfl, hreply⟩ := apply_stopped (show m.counted.apply _ e reply = _ from h)
    exact ⟨⟨rfl, rfl, rfl, rfl⟩, rfl, hreply⟩

/-- Only a machine that has not halted can fail. -/
theorem phase_of_failed {m m' : Machine} {reply : Reply} {fault : Fault}
    (h : m.resume reply = (.failed fault, m')) : m.phase ≠ .halted := by
  intro hp
  rw [resume_of_halted hp] at h
  cases h

end Machine

/-! ### What a step that fails does to the port -/

/-- A port that is as it was after a refusal. -/
structure Port.Steady {σ : Type} (P : Port σ) : Prop where
  get_refused : ∀ {s e}, (P.get s).1 = .error e → (P.get s).2 = s
  put_refused : ∀ {v s e}, (P.put v s).1 = .error e → (P.put v s).2 = s

theorem Port.Steady.answer_refused {σ : Type} {P : Port σ} (hP : P.Steady) {d : Demand} {s : σ}
    {e : PortError} (h : (P.answer d s).1 = .error e) : (P.answer d s).2 = s := by
  cases d with
  | silent => cases h
  | get => exact hP.get_refused h
  | put v => exact hP.put_refused h

theorem Port.steady_silent : Port.silent.Steady where
  get_refused h := by cases h
  put_refused h := by cases h

theorem Buffer.steady_port : Buffer.port.Steady where
  get_refused {b e} h := by
    obtain ⟨inputs, outputs⟩ := b
    cases inputs with
    | nil => rfl
    | cons v vs => cases h
  put_refused h := by cases h

theorem Link.steady_port (l : Link) : l.port.Steady where
  get_refused {b e} h := by
    obtain ⟨inbound, outbound⟩ := l
    cases inbound with
    | none => rfl
    | some c =>
      show (b.receive c).2 = b
      have hreceive : (b.receive c).1 = .error e := h
      unfold Switchboard.receive at hreceive ⊢
      split
      · next hopen hqueue =>
        rw [hopen, hqueue] at hreceive
        cases hreceive
      · split
        · rfl
        · rfl
  put_refused {v b e} h := by
    obtain ⟨inbound, outbound⟩ := l
    cases outbound with
    | none => rfl
    | some t =>
      show (b.send t v).2 = b
      have hsend : (b.send t v).1 = .error e := h
      rcases b.send_cases t v with ⟨-, -, hs⟩ | ⟨cause, hs, -⟩
      · rw [hs] at hsend
        cases hsend
      · rw [hs]

namespace Machine

/-- A step of a machine on a port is atomic. If it fails, only the step count and the phase of the
    machine have changed, and only a misdirected input is `taken` from the port; if it is stopped,
    the machine has halted where it was. -/
def Atomic {σ : Type} (P : Port σ) (taken : Int → σ → σ → Prop) (m : Machine) (s : σ) : Prop :=
  ∀ outcome m' s', m.step P s = (outcome, m', s') →
    (∀ fault, outcome = .failed fault →
      m.Kept m' ∧ m'.phase = .running ∧ m'.steps = m.steps + m.counts ∧
        ((∃ v, m.Misdirected ∧ (P.get s).1 = .ok v ∧ taken v s s') ∨
          (¬(m.Misdirected ∧ ∃ v, (P.get s).1 = .ok v) ∧ s' = s))) ∧
    (∀ cause, outcome = .stopped cause → m.Kept m' ∧ m'.phase = .halted ∧ s' = s)

/-- A step on a steady port is atomic; the input that it takes if it is misdirected is taken as by
    any `get`. -/
theorem atomic_of_steady {σ : Type} {P : Port σ} (hP : P.Steady) {taken : Int → σ → σ → Prop}
    (htaken : ∀ {v s}, (P.get s).1 = .ok v → taken v s (P.get s).2) (m : Machine) (s : σ) :
    m.Atomic P taken s := by
  intro outcome m' s' hstep
  rw [step_eq] at hstep
  obtain ⟨houtcome, hrest⟩ := Prod.mk.inj hstep
  obtain ⟨hm', hs'⟩ := Prod.mk.inj hrest
  have hresume : m.resume (P.answer m.demand s).1 = (outcome, m') := Prod.ext houtcome hm'
  constructor
  · rintro fault rfl
    obtain ⟨hkept, hphase, hsteps, hcase⟩ := resume_failed hresume
    refine ⟨hkept, hphase, hsteps, ?_⟩
    by_cases hmis : m.Misdirected
    · -- the machine asks before it looks at the address, so the input is gone if there was one
      have hget := hmis.demand (phase_of_failed hresume)
      rw [hget] at hs' hcase
      cases hreply : (P.get s).1 with
      | ok v =>
        rw [← hs']
        exact .inl ⟨v, hmis, rfl, htaken hreply⟩
      | error e =>
        refine .inr ⟨fun h => ?_, ?_⟩
        · obtain ⟨-, v, hv⟩ := h
          cases hv
        · rw [← hs']
          exact hP.get_refused hreply
    · -- otherwise the port was not asked, or it refused
      refine .inr ⟨fun h => hmis h.1, ?_⟩
      rw [← hs']
      rcases hcase with hsilent | ⟨cause, hcause⟩ | ⟨h, -⟩
      · rw [hsilent]
        rfl
      · exact hP.answer_refused hcause
      · exact absurd h hmis
  · rintro cause rfl
    obtain ⟨hkept, hphase, hreply⟩ := resume_stopped hresume
    refine ⟨hkept, hphase, ?_⟩
    rw [← hs']
    exact hP.answer_refused hreply

/-- Steps are atomic on every kind of port. The input that is lost if the target is negative is the
    first one of the buffer, or the oldest one of the channel, and nothing else is lost. -/
theorem failing_steps_atomic (m : Machine) :
    (∀ s, m.Atomic Port.silent (fun _ s s' => s' = s) s) ∧
    (∀ b, m.Atomic Buffer.port
      (fun v b b' => b.inputs = v :: b'.inputs ∧ b'.outputs = b.outputs) b) ∧
    (∀ (l : Link) b, m.Atomic l.port
      (fun v b b' => ∃ c, l.inbound = some c ∧ (∃ vs, (b.channel c).queue = v :: vs) ∧
        b' = b.dequeue c) b) := by
  refine ⟨fun s => ?_, fun b => ?_, fun l b => ?_⟩
  · exact atomic_of_steady Port.steady_silent (fun _ => rfl) m s
  · refine atomic_of_steady Buffer.steady_port (fun {v b} h => ?_) m b
    obtain ⟨inputs, outputs⟩ := b
    cases inputs with
    | nil => cases h
    | cons w vs =>
      cases h
      exact ⟨rfl, rfl⟩
  · refine atomic_of_steady l.steady_port (fun {v b} h => ?_) m b
    obtain ⟨inbound, outbound⟩ := l
    cases inbound with
    | none => cases h
    | some c =>
      obtain ⟨hqueue, hb'⟩ := Switchboard.receive_delivered (b := b) h
      exact ⟨c, rfl, hqueue, hb'⟩

end Machine

end TapeNet
