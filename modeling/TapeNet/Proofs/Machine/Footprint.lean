import TapeNet.Proofs.Machine.Sessions

/-! # What a step touches

    An instruction may name any cell as an operand, as its target, or both,
    its own words included. All that it reads it reads before it writes.

    - `Does m i e`: the instruction set, as a relation between what the machine
      reads and the effect of an instruction. `effect_eq_ok_iff` says that the
      machine has no other effects.
    - `Performs m e`: the next step of the machine has this effect, if nothing
      is wrong with the address that it leads to and the port does not refuse.
    - `Writes m heard a v`: the next step stores a value at an address.
    - `step_touches_one_cell`: what becomes of the tape, of the relative base
      and of the instruction pointer.
-/

namespace TapeNet

/-! ### The instruction set -/

/-- What an instruction with three parameters makes of its first two operands. -/
inductive Opcode.Makes : Opcode → Int → Int → Int → Prop
  | sum (x y : Int) : Makes .add x y (x + y)
  | product (x y : Int) : Makes .multiply x y (x * y)
  | less (x y : Int) : Makes .lessThan x y (if x < y then 1 else 0)
  | same (x y : Int) : Makes .equals x y (if x = y then 1 else 0)

/-- Whether an instruction jumps, given its first operand. -/
inductive Opcode.Jumps : Opcode → Int → Prop
  | ifTrue {x : Int} (h : x ≠ 0) : Jumps .jumpIfTrue x
  | ifFalse {x : Int} (h : x = 0) : Jumps .jumpIfFalse x

/-- Whether an instruction could have jumped and does not, given its first operand. -/
inductive Opcode.Falls : Opcode → Int → Prop
  | ifTrue {x : Int} (h : x = 0) : Falls .jumpIfTrue x
  | ifFalse {x : Int} (h : x ≠ 0) : Falls .jumpIfFalse x

namespace Machine

/-- The effect of an instruction, from the operands and the target that the machine reads. -/
inductive Does (m : Machine) (i : Instruction) : Effect → Prop
  | store {x y a v : Int} (first : m.operand i.modes .first = .ok x)
      (second : m.operand i.modes .second = .ok y) (third : m.target i.modes .third = .ok a)
      (made : i.opcode.Makes x y v) : Does m i (.store a v)
  | input {a : Int} (opcode : i.opcode = .input) (first : m.target i.modes .first = .ok a) :
      Does m i (.input a)
  | output {v : Int} (opcode : i.opcode = .output) (first : m.operand i.modes .first = .ok v) :
      Does m i (.output v)
  | jump {x t : Int} (first : m.operand i.modes .first = .ok x) (taken : i.opcode.Jumps x)
      (second : m.operand i.modes .second = .ok t) : Does m i (.jump t)
  | proceed {x : Int} (first : m.operand i.modes .first = .ok x) (fallen : i.opcode.Falls x) :
      Does m i .proceed
  | adjust {d : Int} (opcode : i.opcode = .adjustBase)
      (first : m.operand i.modes .first = .ok d) : Does m i (.adjust d)
  | halt (opcode : i.opcode = .halt) : Does m i .halt

variable {m : Machine} {i : Instruction} {e : Effect}

theorem does_of_combine {f : Int → Int → Int} (h : m.combine i.modes f = .ok e)
    (hf : ∀ x y, i.opcode.Makes x y (f x y)) : m.Does i e := by
  unfold combine at h
  obtain ⟨x, hx, h⟩ := exists_of_bind_eq_ok h
  obtain ⟨y, hy, h⟩ := exists_of_bind_eq_ok h
  obtain ⟨t, ht, h⟩ := exists_of_bind_eq_ok h
  cases h
  exact .store hx hy ht (hf x y)

theorem does_of_branch {taken : Int → Bool} (h : m.branch i.modes taken = .ok e)
    (hjumps : ∀ x, taken x = true → i.opcode.Jumps x)
    (hfalls : ∀ x, taken x = false → i.opcode.Falls x) : m.Does i e := by
  unfold branch at h
  obtain ⟨x, hx, h⟩ := exists_of_bind_eq_ok h
  cases htaken : taken x with
  | true =>
    rw [if_pos htaken] at h
    obtain ⟨t, ht, h⟩ := exists_of_bind_eq_ok h
    cases h
    exact .jump hx (hjumps x htaken) ht
  | false =>
    rw [if_neg (by simp [htaken])] at h
    cases h
    exact .proceed hx (hfalls x htaken)

theorem does_of_effect (h : m.effect i = .ok e) : m.Does i e := by
  unfold effect at h
  split at h
  · next ho => exact does_of_combine h fun x y => ho ▸ .sum x y
  · next ho => exact does_of_combine h fun x y => ho ▸ .product x y
  · next ho => exact does_of_combine h fun x y => ho ▸ .less x y
  · next ho => exact does_of_combine h fun x y => ho ▸ .same x y
  · next ho =>
    obtain ⟨a, ha, h⟩ := exists_of_bind_eq_ok h
    cases h
    exact .input ho ha
  · next ho =>
    obtain ⟨v, hv, h⟩ := exists_of_bind_eq_ok h
    cases h
    exact .output ho hv
  · next ho =>
    apply does_of_branch h
    · intro x hx
      exact ho ▸ .ifTrue (by simpa using hx)
    · intro x hx
      exact ho ▸ .ifTrue (by simpa using hx)
  · next ho =>
    apply does_of_branch h
    · intro x hx
      exact ho ▸ .ifFalse (by simpa using hx)
    · intro x hx
      exact ho ▸ .ifFalse (by simpa using hx)
  · next ho =>
    obtain ⟨d, hd, h⟩ := exists_of_bind_eq_ok h
    cases h
    exact .adjust ho hd
  · next ho =>
    cases h
    exact .halt ho

theorem combine_of_operands {modes : Modes} {x y a : Int}
    (hx : m.operand modes .first = .ok x) (hy : m.operand modes .second = .ok y)
    (ha : m.target modes .third = .ok a) (f : Int → Int → Int) :
    m.combine modes f = .ok (.store a (f x y)) := by
  unfold combine
  rw [hx, hy, ha]
  rfl

theorem branch_of_taken {modes : Modes} {x t : Int} {taken : Int → Bool}
    (hx : m.operand modes .first = .ok x) (htaken : taken x = true)
    (ht : m.operand modes .second = .ok t) : m.branch modes taken = .ok (.jump t) := by
  unfold branch
  rw [hx, ht]
  exact if_pos htaken

theorem branch_of_fallen {modes : Modes} {x : Int} {taken : Int → Bool}
    (hx : m.operand modes .first = .ok x) (htaken : taken x = false) :
    m.branch modes taken = .ok .proceed := by
  unfold branch
  rw [hx]
  exact if_neg (by simp [htaken])

theorem effect_of_does (h : m.Does i e) : m.effect i = .ok e := by
  obtain ⟨opcode, modes⟩ := i
  cases h with
  | store hx hy ha made =>
    cases made with
    | sum => exact combine_of_operands hx hy ha _
    | product => exact combine_of_operands hx hy ha _
    | less => exact combine_of_operands hx hy ha _
    | same => exact combine_of_operands hx hy ha _
  | input ho ha =>
    obtain rfl : opcode = .input := ho
    simp only [effect, ha]
    rfl
  | output ho hv =>
    obtain rfl : opcode = .output := ho
    simp only [effect, hv]
    rfl
  | jump hx taken ht =>
    cases taken with
    | ifTrue h => exact branch_of_taken hx (by simpa using h) ht
    | ifFalse h => exact branch_of_taken hx (by simpa using h) ht
  | proceed hx fallen =>
    cases fallen with
    | ifTrue h => exact branch_of_fallen hx (by simpa using h)
    | ifFalse h => exact branch_of_fallen hx (by simpa using h)
  | adjust ho hd =>
    obtain rfl : opcode = .adjustBase := ho
    simp only [effect, hd]
    rfl
  | halt ho =>
    obtain rfl : opcode = .halt := ho
    rfl

theorem effect_eq_ok_iff : m.effect i = .ok e ↔ m.Does i e :=
  ⟨does_of_effect, effect_of_does⟩

/-! ### The next step -/

/-- The machine has not halted, and its next instruction has this effect. -/
def Performs (m : Machine) (e : Effect) : Prop :=
  m.phase ≠ .halted ∧ ∃ i, Instruction.ofWord m.word = .ok i ∧ m.Does i e

/-- The next instruction of the machine stores a value at an address: one that it makes itself, or
    the input that it hears. -/
def Writes (m : Machine) (heard : Reply) (a v : Int) : Prop :=
  m.Performs (.store a v) ∨ m.Performs (.input a) ∧ heard = .ok v

theorem Performs.plan (h : m.Performs e) : ∃ length, m.plan = .perform length e := by
  obtain ⟨hphase, i, hword, hdoes⟩ := h
  exact ⟨_, plan_of_effect hphase hword (effect_of_does hdoes)⟩

theorem performs_of_plan {length : Nat} (h : m.plan = .perform length e) : m.Performs e := by
  obtain ⟨i, hword, heffect, -⟩ := effect_of_perform h
  refine ⟨?_, i, hword, does_of_effect heffect⟩
  intro hhalted
  simp [Machine.plan, hhalted] at h

/-! ### Tapes -/

/-- What a tape is after a write: one address reads differently, and the tape reaches up to it, with
    zeros on the way. -/
structure WrittenAt (t t' : Tape) (a : Nat) (v : Int) : Prop where
  cell : t'.fetch a = .ok (wrap v)
  others : ∀ b : Int, b ≠ a → t'.fetch b = t.fetch b
  size : t'.size = max t.size (a + 1)
  covered : ∀ b : Nat, t.size ≤ b → b < a → t'.fetch b = .ok 0

theorem writtenAt_set (t : Tape) (a : Nat) (v : Int) : WrittenAt t (t.set a v) a v where
  cell := by
    show Except.ok ((t.set a v).get a) = _
    rw [Tape.get_set, if_pos rfl]
  others b hb := by
    cases b with
    | ofNat b =>
      have hne : b ≠ a := by
        intro heq
        exact hb (congrArg Int.ofNat heq)
      show Except.ok ((t.set a v).get b) = Except.ok (t.get b)
      rw [Tape.get_set, if_neg hne]
    | negSucc n => rfl
  size := t.size_set a v
  covered b hb hlt := by
    show Except.ok ((t.set a v).get b) = _
    rw [Tape.get_set, if_neg (Nat.ne_of_lt hlt), Tape.get_of_size_le hb]

/-- A step that writes goes on. -/
theorem resume_of_writes {reply : Reply} {a : Nat} {v : Int} (h : m.Writes reply a v) :
    (m.resume reply).1 = .continued ∧ (m.resume reply).2.tape = m.tape.set a v := by
  rcases h with hstore | ⟨hinput, rfl⟩
  · obtain ⟨length, hp⟩ := hstore.plan
    rw [resume_of_store hp]
    exact ⟨rfl, rfl⟩
  · obtain ⟨length, hp⟩ := hinput.plan
    rw [resume_of_input hp]
    exact ⟨rfl, rfl⟩

theorem tape_store (m : Machine) (length : Nat) {address value : Int}
    (h : ∀ a : Nat, address ≠ a) : (m.store length address value).2.tape = m.tape := by
  cases address with
  | ofNat a => exact absurd rfl (h a)
  | negSucc n => rfl

theorem tape_refused (m : Machine) (cause : PortError) : (m.refused cause).2.tape = m.tape := by
  rcases m.refused_cases cause with h | h
  · rw [h]
  · rw [h]

/-- A step that does not write leaves the tape alone, even if it was about to write below zero. -/
theorem tape_of_not_writes {reply : Reply} (h : ∀ (a : Nat) v, ¬m.Writes reply a v) :
    (m.resume reply).2.tape = m.tape := by
  unfold resume
  cases hp : m.plan with
  | idle => rfl
  | undecodable cause => rfl
  | unresolved fault => rfl
  | perform length e =>
    have hperforms := performs_of_plan hp
    show (m.counted.apply length e reply).2.tape = m.counted.tape
    cases e with
    | store address value =>
      apply tape_store
      rintro a rfl
      exact h a value (.inl hperforms)
    | input address =>
      cases reply with
      | ok value =>
        apply tape_store
        rintro a rfl
        exact h a value (.inr ⟨hperforms, rfl⟩)
      | error cause => exact m.counted.tape_refused cause
    | output value =>
      cases reply with
      | ok _ => rfl
      | error cause => exact m.counted.tape_refused cause
    | jump t =>
      cases t with
      | ofNat a => rfl
      | negSucc n => rfl
    | adjust d => rfl
    | proceed => rfl
    | halt => rfl

/-! ### Registers -/

theorem offset_of_performs {d : Int} (h : m.Performs (.adjust d)) : m.offset = d := by
  obtain ⟨length, hp⟩ := h.plan
  unfold offset
  rw [hp]
  rfl

theorem offset_eq_zero (h : ∀ d, ¬m.Performs (.adjust d)) : m.offset = 0 := by
  unfold offset
  split
  · next length e hp =>
    cases e with
    | adjust d => exact absurd (performs_of_plan hp) (h d)
    | _ => rfl
  · rfl

theorem resume_of_adjust {d : Int} (h : m.Performs (.adjust d)) (reply : Reply) :
    (m.resume reply).1 = .continued := by
  obtain ⟨length, hp⟩ := h.plan
  rw [resume, hp]
  rfl

theorem resume_of_jump {t : Nat} (h : m.Performs (.jump t)) (reply : Reply) :
    (m.resume reply).1 = .continued ∧ (m.resume reply).2.ip = t := by
  obtain ⟨length, hp⟩ := h.plan
  rw [resume, hp]
  exact ⟨rfl, rfl⟩

theorem resume_of_halt (h : m.Performs .halt) (reply : Reply) : (m.resume reply).1 = .halted := by
  obtain ⟨length, hp⟩ := h.plan
  rw [resume, hp]
  rfl

/-- A step that goes on without a jump goes to the next instruction. -/
theorem ip_of_continued {reply : Reply} (hcontinued : (m.resume reply).1 = .continued)
    (h : ∀ t : Nat, ¬m.Performs (.jump t)) :
    ∃ i, Instruction.ofWord m.word = .ok i ∧
      (m.resume reply).2.ip = m.ip + i.opcode.length := by
  have hip := (m.stride_resume reply).ip
  rw [if_pos hcontinued, aim] at hip
  rw [resume] at hcontinued
  cases hp : m.plan with
  | idle =>
    rw [hp] at hcontinued
    cases hcontinued
  | undecodable cause =>
    rw [hp] at hcontinued
    cases hcontinued
  | unresolved fault =>
    rw [hp] at hcontinued
    cases hcontinued
  | perform length e =>
    rw [hp] at hip hcontinued
    obtain ⟨i, hword, -, rfl⟩ := effect_of_perform hp
    refine ⟨i, hword, ?_⟩
    cases e with
    | jump t =>
      -- a jump below zero would not have gone on
      cases t with
      | ofNat a => exact absurd (performs_of_plan hp) (h a)
      | negSucc n => cases hcontinued
    | _ => exact Int.ofNat.inj hip

/-! ### Ports -/

/-- Only an input hears a value, and it asks for one. -/
theorem writes_answer_iff {σ : Type} (P : Port σ) (s : σ) (a v : Int) :
    m.Writes (P.answer m.demand s).1 a v ↔ m.Writes (P.get s).1 a v := by
  unfold Writes
  refine or_congr_right (and_congr_right fun h => ?_)
  obtain ⟨length, hp⟩ := h.plan
  rw [demand, hp]
  rfl

/-- A step of any machine on any port, whether it succeeds or fails. If its instruction stores a
    value at an address, made of what the machine read before or heard from the port, this address
    holds the value, wrapped, and no other one reads differently; the tape reaches up to it, with
    zeros on the way. Else the tape is left alone. The relative base changes by the operand of the
    instruction that adjusts it, and only then. The instruction pointer goes where a jump that is
    taken leads to, past the instruction if the step goes on without a jump, and stays if it does
    not go on: at a halt, at a refusal of the port, or at any error. -/
theorem step_touches_one_cell {σ : Type} (P : Port σ) (m : Machine) (s : σ) :
    let o := outcome P (m, s)
    let m' := (afterStep P (m, s)).1
    ((∀ (a : Nat) v, m.Writes (P.get s).1 a v →
        o = .continued ∧ WrittenAt m.tape m'.tape a v) ∧
      ((∀ (a : Nat) v, ¬m.Writes (P.get s).1 a v) → m'.tape = m.tape)) ∧
    ((∀ d, m.Performs (.adjust d) → o = .continued ∧ m'.base = m.base + d) ∧
      ((∀ d, ¬m.Performs (.adjust d)) → m'.base = m.base)) ∧
    ((∀ t : Nat, m.Performs (.jump t) → o = .continued ∧ m'.ip = t) ∧
      (o = .continued → (∀ t : Nat, ¬m.Performs (.jump t)) →
        ∃ i, Instruction.ofWord m.word = .ok i ∧ m'.ip = m.ip + i.opcode.length) ∧
      (m.Performs .halt → o = .halted) ∧ (o ≠ .continued → m'.ip = m.ip)) := by
  intro o m'
  have hstride := m.stride_resume (P.answer m.demand s).1
  refine ⟨⟨?_, ?_⟩, ⟨?_, ?_⟩, ?_, ?_, ?_, ?_⟩
  · intro a v h
    obtain ⟨ho, htape⟩ := resume_of_writes ((writes_answer_iff P s a v).mpr h)
    refine ⟨ho, ?_⟩
    show WrittenAt m.tape (m.resume (P.answer m.demand s).1).2.tape a v
    rw [htape]
    exact writtenAt_set m.tape a v
  · intro h
    exact tape_of_not_writes fun a v hw => h a v ((writes_answer_iff P s a v).mp hw)
  · intro d h
    have hbase := hstride.base
    rw [offset_of_performs h] at hbase
    exact ⟨resume_of_adjust h _, hbase⟩
  · intro h
    have hbase := hstride.base
    rw [offset_eq_zero h, Int.add_zero] at hbase
    exact hbase
  · intro t h
    exact resume_of_jump h _
  · intro hcontinued h
    exact ip_of_continued hcontinued h
  · intro h
    exact resume_of_halt h _
  · intro hstays
    exact Int.ofNat.inj (hstride.ip.trans (if_neg hstays))

/-- A sum whose target is its own parameter: both operands are those before the step. -/
example : ((load {} [101, 7, 2, 2, 99]).step Port.silent ()).2.1.tape.toList = [101, 7, 9, 2, 99] := by
  decide +kernel

end Machine

end TapeNet
