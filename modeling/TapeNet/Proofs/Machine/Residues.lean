import Mathlib.Data.Int.ModEq
import Mathlib.Data.List.Forall2
import TapeNet.Proofs.Machine.Flow
import TapeNet.Proofs.Machine.Sessions

/-! # Residues

    A tape holds words, so it cannot tell integers apart that agree modulo
    `2 ^ 64`. Nothing else of a machine is ever wrapped, and no other integer
    gets in than by way of the tape.

    - `Tape.set_wrap` and `resume_wrap`: a value that is stored may as well be
      wrapped before.
    - `Congruent q q'`: the same machine, with buffers whose inputs agree modulo
      `2 ^ 64`. Steps keep this (`lockstep_congruent`).
    - `isWord_of_put`: what a machine gives stands on its tape.
    - `residues_determine_runs`: programs and inputs that agree modulo `2 ^ 64`.
-/

namespace TapeNet

/-- Integers agree modulo `2 ^ 64` entry by entry if they wrap to the same words. -/
theorem map_wrap_eq_iff {vs ws : List Int} :
    vs.map wrap = ws.map wrap ↔ List.Forall₂ (fun v w => v ≡ w [ZMOD wordCount]) vs ws := by
  rw [← List.forall₂_eq_eq_eq, List.forall₂_map_left_iff, List.forall₂_map_right_iff]
  simp only [wrap_eq_wrap_iff, Int.ModEq]

/-! ### Tapes and replies -/

namespace Tape

theorem ofList_congr {vs ws : List Int} (h : vs.map wrap = ws.map wrap) : ofList vs = ofList ws := by
  rw [ofList, ofList, h]

theorem set_wrap (t : Tape) (a : Nat) (v : Int) : t.set a (wrap v) = t.set a v := by
  simp only [set, put, wrap_wrap]

end Tape

namespace Machine

variable {σ : Type} {m : Machine}

theorem store_wrap (m : Machine) (length : Nat) (address value : Int) :
    m.store length address (wrap value) = m.store length address value := by
  cases address with
  | ofNat a =>
    show ({ m with tape := m.tape.set a (wrap value) } : Machine).advance length = _
    rw [Tape.set_wrap]
    rfl
  | negSucc n => rfl

theorem apply_wrap (m : Machine) (length : Nat) (e : Effect) (reply : Reply) :
    m.apply length e (reply.map wrap) = m.apply length e reply := by
  cases reply with
  | error cause => rfl
  | ok value =>
    cases e with
    | input address => exact m.store_wrap length address value
    | _ => rfl

/-- The value that a port replies may as well be wrapped. -/
theorem resume_wrap (m : Machine) (reply : Reply) :
    m.resume (reply.map wrap) = m.resume reply := by
  unfold resume
  cases m.plan with
  | perform length e => exact m.counted.apply_wrap length e reply
  | _ => rfl

theorem resume_congr {reply reply' : Reply} (h : reply'.map wrap = reply.map wrap) :
    m.resume reply' = m.resume reply := by
  rw [← resume_wrap, h, resume_wrap]

/-! ### Machines on congruent inputs -/

/-- The same machine and outputs, and inputs that agree modulo `2 ^ 64`. -/
structure Congruent (q q' : Machine × Buffer) : Prop where
  machine : q'.1 = q.1
  outputs : q'.2.outputs = q.2.outputs
  inputs : q'.2.inputs.map wrap = q.2.inputs.map wrap

/-- Buffers with congruent inputs reply alike, and the inputs that are left are congruent. -/
theorem answer_congruent {b b' : Buffer} (houtputs : b'.outputs = b.outputs)
    (hinputs : b'.inputs.map wrap = b.inputs.map wrap) (d : Demand) :
    (Buffer.port.answer d b').1.map wrap = (Buffer.port.answer d b).1.map wrap ∧
      (Buffer.port.answer d b').2.outputs = (Buffer.port.answer d b).2.outputs ∧
      (Buffer.port.answer d b').2.inputs.map wrap =
        (Buffer.port.answer d b).2.inputs.map wrap := by
  obtain ⟨inputs, outputs⟩ := b
  obtain ⟨inputs', outputs'⟩ := b'
  obtain rfl : outputs' = outputs := houtputs
  cases d with
  | silent => exact ⟨rfl, rfl, hinputs⟩
  | put v => exact ⟨rfl, rfl, hinputs⟩
  | get =>
    cases inputs with
    | nil =>
      obtain rfl : inputs' = [] := List.map_eq_nil_iff.mp hinputs
      exact ⟨rfl, rfl, rfl⟩
    | cons v vs =>
      obtain ⟨w, ws, rfl, hw, hws⟩ := List.map_eq_cons_iff.mp hinputs
      exact ⟨congrArg Except.ok hw, rfl, hws⟩

theorem lockstep_congruent : Lockstep Buffer.port Buffer.port id Congruent := by
  rintro ⟨m, b⟩ ⟨m', b'⟩ ⟨hmachine, houtputs, hinputs⟩
  obtain rfl : m' = m := hmachine
  obtain ⟨hreply, houtputs', hinputs'⟩ := answer_congruent houtputs hinputs m'.demand
  obtain ⟨houtcome, hnext⟩ := Prod.ext_iff.mp (resume_congr (m := m') hreply)
  exact ⟨houtcome, hnext, houtputs', hinputs'⟩

/-! ### What is never wrapped, and what always is -/

/-- The relative base is what was added to it, as an integer. -/
theorem base_afterSteps (P : Port σ) (n : Nat) (q : Machine × σ) :
    (afterSteps P n q).1.base =
      q.1.base + ((List.range n).map fun k => (afterSteps P k q).1.offset).sum := by
  induction n with
  | zero => exact (Int.add_zero _).symm
  | succ n ih =>
    have hstep : (afterSteps P (n + 1) q).1.base =
        (afterSteps P n q).1.base + (afterSteps P n q).1.offset := by
      rw [afterSteps_succ]
      exact ((afterSteps P n q).1.stride_resume _).base
    rw [hstep, ih, List.range_succ, List.map_append, List.sum_append, List.map_singleton,
      List.sum_singleton, Int.add_assoc]

/-- Operands are words if the cells are. -/
theorem isWord_operand (h : m.tape.Words) {modes : Modes} {slot : Slot} {v : Int}
    (hv : m.operand modes slot = .ok v) : IsWord v := by
  have hget := Tape.words_iff_get.mp h
  have hfetch : ∀ a, m.fetch a = .ok v → IsWord v := by
    intro a ha
    cases a with
    | ofNat a =>
      cases ha
      exact hget a
    | negSucc n => cases ha
  unfold operand at hv
  split at hv
  · exact hfetch _ hv
  · cases hv
    exact hget _
  · exact hfetch _ hv

/-- A machine whose cells are words gives nothing but words. -/
theorem isWord_of_put (h : m.tape.Words) {v : Int} (hput : m.demand = .put v) : IsWord v := by
  rcases plan_of_demand (by rw [hput]; exact Demand.noConfusion) with
    ⟨length, a, hget, -⟩ | ⟨length, w, hput', hp⟩
  · cases hget.symm.trans hput
  · cases hput'.symm.trans hput
    -- the value is the operand of the instruction that is planned
    obtain ⟨i, -, he, -⟩ := effect_of_perform hp
    exact isWord_operand h (operand_of_output he)

/-- Programs that agree modulo `2 ^ 64` entry by entry, on inputs that do: after any number of steps
    the machines are the same in every respect, they have given the same, and the next step comes
    to the same, and so do whole runs. The relative base is the sum of what was added to it, as
    integers. What any machine gives to any port, at any point of a session, is a word. -/
theorem residues_determine_runs (c : Config) {program program' inputs inputs' : List Int}
    (hprogram : List.Forall₂ (fun v w => v ≡ w [ZMOD wordCount]) program program')
    (hinputs : List.Forall₂ (fun v w => v ≡ w [ZMOD wordCount]) inputs inputs') :
    let start : Machine × Buffer := (load c program, .ofInputs inputs)
    let start' : Machine × Buffer := (load c program', .ofInputs inputs')
    (∀ n,
      let q := afterSteps Buffer.port n start
      let q' := afterSteps Buffer.port n start'
      q'.1 = q.1 ∧ q'.2.outputs = q.2.outputs ∧
        outcome Buffer.port q' = outcome Buffer.port q ∧
        q.1.base = ((List.range n).map fun k => (afterSteps Buffer.port k start).1.offset).sum) ∧
    (∀ fuel, Option.Rel
      (fun e e' => e'.1 = e.1 ∧ e'.2.1 = e.2.1 ∧ e'.2.2.outputs = e.2.2.outputs)
      (start.1.run Buffer.port fuel start.2) (start'.1.run Buffer.port fuel start'.2)) ∧
    ∀ (σ : Type) (P : Port σ) (c : Config) (program words : List Int) (s : σ) (q : Machine × σ)
      (v : Int), Session P (load c program, s) words q → q.1.demand = .put v → IsWord v := by
  intro start start'
  have hstart : Congruent start start' := by
    refine ⟨?_, rfl, (map_wrap_eq_iff.mpr hinputs).symm⟩
    show load c program' = load c program
    rw [load, load, Tape.ofList_congr (map_wrap_eq_iff.mpr hprogram)]
  refine ⟨fun n => ?_, fun fuel => ?_, ?_⟩
  · obtain ⟨hn, houtcome⟩ := lockstep_congruent.afterSteps hstart n
    refine ⟨hn.machine, hn.outputs, houtcome, ?_⟩
    rw [base_afterSteps]
    exact Int.zero_add _
  · refine lockstep_congruent.run (fun _ => Iff.rfl) ?_ hstart fuel
    intro o q q' h
    exact ⟨rfl, h.machine, h.outputs⟩
  · intro σ P c program words s q v hsession hput
    exact isWord_of_put hsession.sound.cells hput

/-- A program that moves the relative base beyond the words, and repeats an input. -/
def farEcho : List Int :=
  [109, 9223372036854775807, 109, 9223372036854775807, 3, 11, 4, 11, 99]

/-- It runs like another program on another input, which are the same modulo `2 ^ 64`. -/
theorem farEcho_residues :
    ∃ (program' : List Int) (q q' : Machine × Buffer), program' ≠ farEcho ∧
      q = afterSteps Buffer.port 5 (load {} farEcho, .ofInputs [-1]) ∧
      q' = afterSteps Buffer.port 5 (load {} program', .ofInputs [18446744073709551615]) ∧
      q'.1 = q.1 ∧ q'.2.outputs = q.2.outputs ∧ q.2.outputs = #[-1] ∧ q.1.phase = .halted ∧
      q.1.base = 18446744073709551614 ∧ IsWord (-1) := by
  have hprogram : farEcho.map wrap = (farEcho.map fun v => v - 3 * (wordCount : Int)).map wrap := by
    decide +kernel
  have hinputs : [-1].map wrap = [18446744073709551615].map wrap := by decide +kernel
  obtain ⟨hsteps, -, hputs⟩ := residues_determine_runs {} (map_wrap_eq_iff.mp hprogram)
    (map_wrap_eq_iff.mp hinputs)
  obtain ⟨hmachine, houtputs, -, hbase⟩ := hsteps 5
  obtain ⟨words, hsession⟩ := exists_session Buffer.port 3 (load {} farEcho, .ofInputs [-1])
  -- the third step has left the machine about to give what it took
  have hword : IsWord (-1) := hputs _ _ _ _ _ _ _ (-1) hsession (by decide +kernel)
  exact ⟨_, _, _, by decide +kernel, rfl, rfl, hmachine, houtputs, by decide +kernel,
    by decide +kernel, hbase.trans (by decide +kernel), hword⟩

end Machine

end TapeNet
