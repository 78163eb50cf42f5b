import TapeNet.Machine

/-! # What one step can do

    Everything that is proved about steps of a machine goes through the cases
    in this file.

    - `plan_cases`: what a machine is about to do next.
    - `apply_cases`: all that an effect can do, given the reply of the port.
    - `effect_eq_input` and `operand_of_output`: only the input instruction
      takes an input, and only the output instruction gives a value.
    - `effect_ne_port` and `refused_of_fault`: a port is blamed for nothing but
      what it refused.
    - `continued_of_put` and `resume_error`: a machine that gives a value goes
      on, unless it is refused; a refusal is taken as its policy says.
-/

namespace TapeNet

/-- A computation that succeeds has succeeded at its first step. -/
theorem exists_of_bind_eq_ok {ε α β : Type} {x : Except ε α} {f : α → Except ε β} {b : β}
    (h : x >>= f = .ok b) : ∃ a, x = .ok a ∧ f a = .ok b := by
  cases x with
  | error e => cases h
  | ok a => exact ⟨a, rfl, h⟩

/-- A computation that fails has failed at its first step or after it. -/
theorem cases_of_bind_eq_error {ε α β : Type} {x : Except ε α} {f : α → Except ε β} {e : ε}
    (h : x >>= f = .error e) : x = .error e ∨ ∃ a, x = .ok a ∧ f a = .error e := by
  cases x with
  | error e' =>
    cases h
    exact .inl rfl
  | ok a => exact .inr ⟨a, rfl, h⟩

/-- Another account of the failures leaves the successes alone. -/
theorem mapError_eq_ok_iff {ε δ α : Type} {x : Except ε α} {g : ε → δ} {a : α} :
    x.mapError g = .ok a ↔ x = .ok a := by
  cases x with
  | error e =>
    constructor
    · intro h
      cases h
    · intro h
      cases h
  | ok b =>
    constructor
    · intro h
      cases h
      rfl
    · intro h
      cases h
      rfl

theorem mapError_eq_error_iff {ε δ α : Type} {x : Except ε α} {g : ε → δ} {d : δ} :
    x.mapError g = .error d ↔ ∃ e, x = .error e ∧ d = g e := by
  cases x with
  | error e =>
    constructor
    · intro h
      cases h
      exact ⟨e, rfl, rfl⟩
    · intro h
      obtain ⟨e', he, rfl⟩ := h
      cases he
      rfl
  | ok a =>
    constructor
    · intro h
      cases h
    · intro h
      obtain ⟨e, he, -⟩ := h
      cases he

namespace Machine

/-! ### Plans -/

/-- What the plan of a machine says about its next word. -/
theorem plan_cases (m : Machine) :
    (m.plan = .idle) ∨
    (∃ cause, Instruction.ofWord m.word = .error cause ∧ m.plan = .undecodable cause) ∨
    (∃ i fault, Instruction.ofWord m.word = .ok i ∧ m.effect i = .error fault ∧
      m.plan = .unresolved fault) ∨
    (∃ i e, Instruction.ofWord m.word = .ok i ∧ m.effect i = .ok e ∧
      m.plan = .perform i.opcode.length e) := by
  unfold plan
  split
  · exact .inl rfl
  · cases hd : Instruction.ofWord m.word with
    | error cause => exact .inr (.inl ⟨cause, rfl, rfl⟩)
    | ok i =>
      cases he : m.effect i with
      | error fault => exact .inr (.inr (.inl ⟨i, fault, rfl, he, by simp [he]⟩))
      | ok e => exact .inr (.inr (.inr ⟨i, e, rfl, he, by simp [he]⟩))

/-- A machine that has not halted is about to do what its instruction does. -/
theorem plan_of_effect {m : Machine} {i : Instruction} {e : Effect} (hphase : m.phase ≠ .halted)
    (hword : Instruction.ofWord m.word = .ok i) (he : m.effect i = .ok e) :
    m.plan = .perform i.opcode.length e := by
  unfold plan
  cases hp : m.phase with
  | halted => exact absurd hp hphase
  | _ =>
    simp only
    rw [hword]
    simp only
    rw [he]

/-- A machine that is about to do something got there from the instruction at its pointer. -/
theorem effect_of_perform {m : Machine} {length : Nat} {e : Effect}
    (h : m.plan = .perform length e) :
    ∃ i, Instruction.ofWord m.word = .ok i ∧ m.effect i = .ok e ∧ length = i.opcode.length := by
  rcases m.plan_cases with hp | ⟨_, -, hp⟩ | ⟨_, _, -, -, hp⟩ | ⟨i, e', hd, he, hp⟩
  · cases hp.symm.trans h
  · cases hp.symm.trans h
  · cases hp.symm.trans h
  · cases hp.symm.trans h
    exact ⟨i, hd, he, rfl⟩

/-- An instruction with three parameters stores something. -/
theorem store_of_combine {m : Machine} {modes : Modes} {f : Int → Int → Int} {e : Effect}
    (h : m.combine modes f = .ok e) : ∃ a v, e = .store a v := by
  unfold combine at h
  obtain ⟨x, -, h⟩ := exists_of_bind_eq_ok h
  obtain ⟨y, -, h⟩ := exists_of_bind_eq_ok h
  obtain ⟨t, -, h⟩ := exists_of_bind_eq_ok h
  cases h
  exact ⟨t, f x y, rfl⟩

/-- A jump that is taken goes somewhere, and one that is not goes on. -/
theorem jump_of_branch {m : Machine} {modes : Modes} {taken : Int → Bool} {e : Effect}
    (h : m.branch modes taken = .ok e) : e = .proceed ∨ ∃ t, e = .jump t := by
  unfold branch at h
  obtain ⟨x, -, h⟩ := exists_of_bind_eq_ok h
  -- the second operand is read only if the jump is taken
  by_cases htaken : taken x = true
  · rw [if_pos htaken] at h
    obtain ⟨t, -, h⟩ := exists_of_bind_eq_ok h
    cases h
    exact .inr ⟨t, rfl⟩
  · rw [if_neg htaken] at h
    cases h
    exact .inl rfl

/-- Only the input instruction takes an input, and it stores it at its target. -/
theorem effect_eq_input {m : Machine} {i : Instruction} {a : Int} :
    m.effect i = .ok (.input a) ↔ i.opcode = .input ∧ m.target i.modes .first = .ok a := by
  obtain ⟨opcode, modes⟩ := i
  constructor
  · intro h
    cases opcode with
    | input =>
      obtain ⟨t, ht, h⟩ := exists_of_bind_eq_ok h
      cases h
      exact ⟨rfl, ht⟩
    | output =>
      obtain ⟨v, -, h⟩ := exists_of_bind_eq_ok h
      cases h
    | adjustBase =>
      obtain ⟨v, -, h⟩ := exists_of_bind_eq_ok h
      cases h
    | halt => cases h
    | jumpIfTrue => rcases jump_of_branch h with h | ⟨_, h⟩ <;> cases h
    | jumpIfFalse => rcases jump_of_branch h with h | ⟨_, h⟩ <;> cases h
    | _ =>
      obtain ⟨_, _, h⟩ := store_of_combine h
      cases h
  · rintro ⟨hopcode, htarget⟩
    obtain rfl : opcode = .input := hopcode
    show (do pure (Effect.input (← m.target modes .first)) : Except Fault Effect) = _
    rw [htarget]
    rfl

/-- Only the output instruction gives a value, which is its operand. -/
theorem operand_of_output {m : Machine} {i : Instruction} {v : Int}
    (h : m.effect i = .ok (.output v)) : m.operand i.modes .first = .ok v := by
  obtain ⟨opcode, modes⟩ := i
  cases opcode with
  | input =>
    obtain ⟨t, -, h⟩ := exists_of_bind_eq_ok h
    cases h
  | output =>
    obtain ⟨w, hw, h⟩ := exists_of_bind_eq_ok h
    cases h
    exact hw
  | adjustBase =>
    obtain ⟨d, -, h⟩ := exists_of_bind_eq_ok h
    cases h
  | halt => cases h
  | jumpIfTrue => rcases jump_of_branch h with h | ⟨_, h⟩ <;> cases h
  | jumpIfFalse => rcases jump_of_branch h with h | ⟨_, h⟩ <;> cases h
  | _ =>
    obtain ⟨_, _, h⟩ := store_of_combine h
    cases h

/-! ### Defects -/

theorem fetch_ne_port (m : Machine) (a : Int) (e : PortError) : m.fetch a ≠ .error (.port e) := by
  intro h
  cases a with
  | ofNat a => cases h
  | negSucc n => cases h

theorem operand_ne_port (m : Machine) (modes : Modes) (slot : Slot) (e : PortError) :
    m.operand modes slot ≠ .error (.port e) := by
  intro h
  unfold operand at h
  split at h
  · exact m.fetch_ne_port _ e h
  · cases h
  · exact m.fetch_ne_port _ e h

theorem target_ne_port (m : Machine) (modes : Modes) (slot : Slot) (e : PortError) :
    m.target modes slot ≠ .error (.port e) := by
  intro h
  unfold target at h
  split at h
  · cases h
  · cases h
  · cases h

theorem combine_ne_port (m : Machine) (modes : Modes) (f : Int → Int → Int) (e : PortError) :
    m.combine modes f ≠ .error (.port e) := by
  intro h
  unfold combine at h
  rcases cases_of_bind_eq_error h with h | ⟨x, -, h⟩
  · exact m.operand_ne_port _ _ e h
  rcases cases_of_bind_eq_error h with h | ⟨y, -, h⟩
  · exact m.operand_ne_port _ _ e h
  rcases cases_of_bind_eq_error h with h | ⟨t, -, h⟩
  · exact m.target_ne_port _ _ e h
  · cases h

theorem branch_ne_port (m : Machine) (modes : Modes) (taken : Int → Bool) (e : PortError) :
    m.branch modes taken ≠ .error (.port e) := by
  intro h
  unfold branch at h
  rcases cases_of_bind_eq_error h with h | ⟨x, -, h⟩
  · exact m.operand_ne_port _ _ e h
  by_cases htaken : taken x = true
  · rw [if_pos htaken] at h
    rcases cases_of_bind_eq_error h with h | ⟨t, -, h⟩
    · exact m.operand_ne_port _ _ e h
    · cases h
  · rw [if_neg htaken] at h
    cases h

/-- What keeps an instruction from having an effect is a defect of the program, not of the port. -/
theorem effect_ne_port (m : Machine) (i : Instruction) (e : PortError) :
    m.effect i ≠ .error (.port e) := by
  obtain ⟨opcode, modes⟩ := i
  intro h
  cases opcode with
  | input =>
    rcases cases_of_bind_eq_error h with h | ⟨t, -, h⟩
    · exact m.target_ne_port _ _ e h
    · cases h
  | output =>
    rcases cases_of_bind_eq_error h with h | ⟨v, -, h⟩
    · exact m.operand_ne_port _ _ e h
    · cases h
  | adjustBase =>
    rcases cases_of_bind_eq_error h with h | ⟨v, -, h⟩
    · exact m.operand_ne_port _ _ e h
    · cases h
  | halt => cases h
  | jumpIfTrue => exact m.branch_ne_port _ _ e h
  | jumpIfFalse => exact m.branch_ne_port _ _ e h
  | _ => exact m.combine_ne_port _ _ e h

/-! ### Effects -/

/-- A refusal either stops a machine gracefully or breaks it off. -/
theorem refused_cases (m : Machine) (cause : PortError) :
    m.refused cause = (.stopped cause, { m with phase := .halted }) ∨
      m.refused cause = (.failed (.port cause), m) := by
  unfold refused
  split
  · exact .inl rfl
  · exact .inr rfl

/-- A store either succeeds and goes on, or its address is negative and nothing happens. -/
theorem store_cases (m : Machine) (length : Nat) (address value : Int) :
    (∃ m', m.store length address value = (.continued, m')) ∨
      (address < 0 ∧ m.store length address value = (.failed (.address ⟨address⟩), m)) := by
  cases address with
  | ofNat a => exact .inl ⟨_, rfl⟩
  | negSucc n => exact .inr ⟨Int.negSucc_lt_zero n, rfl⟩

/-- All that an effect can do: it goes on, it halts, the port refuses what it asked for, or it runs
    into a negative address. If it asked for a value and got one, that was the target of an
    input. -/
theorem apply_cases (m : Machine) (length : Nat) (e : Effect) (reply : Reply) :
    (∃ m', m.apply length e reply = (.continued, m')) ∨
    (e = .halt ∧ m.apply length e reply = (.halted, { m with phase := .halted })) ∨
    (∃ cause, (Plan.perform length e).demand ≠ .silent ∧ reply = .error cause ∧
      m.apply length e reply = m.refused cause) ∨
    (∃ a, a < 0 ∧ m.apply length e reply = (.failed (.address ⟨a⟩), m) ∧
      ((Plan.perform length e).demand = .silent ∨ ∃ v, e = .input a ∧ reply = .ok v)) := by
  -- only an input and an output look at the reply
  cases e with
  | store address value =>
    rcases m.store_cases length address value with hs | ⟨hneg, hs⟩
    · exact .inl hs
    · exact .inr (.inr (.inr ⟨address, hneg, hs, .inl rfl⟩))
  | input address =>
    cases reply with
    | ok value =>
      rcases m.store_cases length address value with hs | ⟨hneg, hs⟩
      · exact .inl hs
      · exact .inr (.inr (.inr ⟨address, hneg, hs, .inr ⟨value, rfl, rfl⟩⟩))
    | error cause => exact .inr (.inr (.inl ⟨cause, Demand.noConfusion, rfl, rfl⟩))
  | output value =>
    cases reply with
    | ok _ => exact .inl ⟨_, rfl⟩
    | error cause => exact .inr (.inr (.inl ⟨cause, Demand.noConfusion, rfl, rfl⟩))
  | jump t =>
    cases t with
    | ofNat a => exact .inl ⟨_, rfl⟩
    | negSucc n => exact .inr (.inr (.inr ⟨_, Int.negSucc_lt_zero n, rfl, .inl rfl⟩))
  | adjust offset => exact .inl ⟨_, rfl⟩
  | proceed => exact .inl ⟨_, rfl⟩
  | halt => exact .inr (.inl ⟨rfl, rfl⟩)

/-! ### Replies -/

variable {m : Machine}

/-- Only an input and an output ask anything of the port. -/
theorem plan_of_demand (h : m.demand ≠ .silent) :
    (∃ length a, m.demand = .get ∧ m.plan = .perform length (.input a)) ∨
      ∃ length v, m.demand = .put v ∧ m.plan = .perform length (.output v) := by
  unfold demand at h ⊢
  cases hp : m.plan with
  | perform length e =>
    rw [hp] at h
    cases e with
    | input a => exact .inl ⟨length, a, rfl, rfl⟩
    | output v => exact .inr ⟨length, v, rfl, rfl⟩
    | _ => exact absurd rfl h
  | _ =>
    rw [hp] at h
    exact absurd rfl h

/-- A machine that gives a value and is not refused goes on. -/
theorem continued_of_put {v : Int} (h : m.demand = .put v) (r : Int) :
    (m.resume (.ok r)).1 = .continued := by
  have hasks : m.demand ≠ .silent := by
    rw [h]
    exact Demand.noConfusion
  rcases plan_of_demand hasks with ⟨length, a, hget, -⟩ | ⟨length, w, -, hp⟩
  · cases hget.symm.trans h
  · rw [resume, hp]
    rfl

theorem resume_of_store {length : Nat} {address value : Int}
    (hp : m.plan = .perform length (.store address value)) (reply : Reply) :
    m.resume reply = m.counted.store length address value := by
  rw [resume, hp]
  rfl

theorem resume_of_input {length : Nat} {address : Int}
    (hp : m.plan = .perform length (.input address)) (value : Int) :
    m.resume (.ok value) = m.counted.store length address value := by
  rw [resume, hp]
  rfl

theorem resume_of_output {length : Nat} {value : Int}
    (hp : m.plan = .perform length (.output value)) (v : Int) :
    m.resume (.ok v) = m.counted.advance length := by
  rw [resume, hp]
  rfl

/-- A machine that is refused takes the refusal as its policy says. -/
theorem resume_error (h : m.demand ≠ .silent) (e : PortError) :
    m.resume (.error e) = m.counted.refused e := by
  rcases plan_of_demand h with ⟨length, a, -, hp⟩ | ⟨length, v, -, hp⟩
  · rw [resume, hp]
    rfl
  · rw [resume, hp]
    rfl

/-- A fault of the port is a refusal that the machine heard when it asked. -/
theorem refused_of_fault {m' : Machine} {reply : Reply} {e : PortError}
    (h : m.resume reply = (.failed (.port e), m')) : reply = .error e ∧ m.demand ≠ .silent := by
  rw [resume] at h
  rcases m.plan_cases with hp | ⟨_, -, hp⟩ | ⟨i, fault, -, he, hp⟩ | ⟨i, effect, -, -, hp⟩
  · rw [hp] at h
    cases h
  · rw [hp] at h
    cases h
  · rw [hp] at h
    cases h
    exact absurd he (m.effect_ne_port i e)
  · rw [hp] at h
    rw [demand, hp]
    rcases m.counted.apply_cases i.opcode.length effect reply with
      ⟨_, hs⟩ | ⟨-, hs⟩ | ⟨cause, hasks, hr, hs⟩ | ⟨a, -, hs, -⟩
    · cases hs.symm.trans h
    · cases hs.symm.trans h
    · rcases m.counted.refused_cases cause with hc | hc
      · cases (hs.trans hc).symm.trans h
      · cases (hs.trans hc).symm.trans h
        exact ⟨hr, hasks⟩
    · cases hs.symm.trans h

/-- A step that asks for nothing does not depend on the reply. -/
theorem resume_of_silent (h : m.demand = .silent) (reply reply' : Reply) :
    m.resume reply = m.resume reply' := by
  unfold demand at h
  unfold resume
  cases hp : m.plan with
  | perform length e =>
    rw [hp] at h
    cases e with
    | input a => cases h
    | output v => cases h
    | _ => rfl
  | _ => rfl

/-- When the inputs are used up, the policy says whether this stops the machine or breaks it off. -/
theorem resume_exhausted (h : m.demand = .get) :
    m.resume (.error .exhausted) =
      if m.config.haltOnExhaustedInput = true then
        (.stopped .exhausted, { m.counted with phase := .halted })
      else (.failed (.port .exhausted), m.counted) := by
  rw [resume_error (by rw [h]; exact Demand.noConfusion)]
  rfl

/-- A closed channel stops a machine gracefully. -/
theorem resume_closed (h : m.demand ≠ .silent) (cause : Closure) :
    m.resume (.error (.closed cause)) =
      (.stopped (.closed cause), { m.counted with phase := .halted }) := by
  rw [resume_error h]
  rfl

end Machine

end TapeNet
