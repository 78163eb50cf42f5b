import Mathlib.Logic.Function.Iterate
import TapeNet.Proofs.Machine.Flow

/-! # An amplifier with a counter

    A program that takes a phase and then five signals, one after the other.
    For each signal `v` it gives `2 * v + phase - 4`. The number of rounds
    that are left stands on its tape.

    - `plan_of_at` is the listing of the program.
    - `Amplifying xs ys m`: having taken `xs` and given `ys`, the machine is
      at one of the nine instructions, and its tape holds what it should.
    - `Amplifying.step` is what one step does to this, and `amplifying_of_flow`
      what any number of steps does.
-/

namespace TapeNet

namespace Amplifier

open Machine

/-- Takes a phase, and five times a signal to amplify. -/
def feedbackProgram : List Int :=
  [3, 26, 1001, 26, -4, 26, 3, 27, 1002, 27, 2, 27, 1, 27, 26, 27, 4, 27, 1001, 28, -1, 28,
    1005, 28, 6, 99, 0, 0, 5]

/-- The program's tape: after the code come the offset, the signal, and the rounds that are left. -/
def feedbackTape (offset signal rounds : Int) : Tape :=
  .ofCells #[3, 26, 1001, 26, -4, 26, 3, 27, 1002, 27, 2, 27, 1, 27, 26, 27, 4, 27, 1001, 28, -1,
    28, 1005, 28, 6, 99, offset, signal, rounds]

/-- What the machine is about to do at the addresses of the program that it gets to. -/
def feedbackPlan (offset signal rounds : Int) : Nat → Plan
  | 0 => .perform 2 (.input 26)
  | 2 => .perform 4 (.store 26 (offset + -4))
  | 6 => .perform 2 (.input 27)
  | 8 => .perform 4 (.store 27 (signal * 2))
  | 12 => .perform 4 (.store 27 (signal + offset))
  | 16 => .perform 2 (.output signal)
  | 18 => .perform 4 (.store 28 (rounds + -1))
  | 22 => .perform 3 (if rounds = 0 then .proceed else .jump 6)
  | _ => .perform 1 .halt

/-- The signal that an amplifier makes of a signal. -/
def amplify (phase v : Int) : Int := wrap (2 * v + phase - 4)

variable {m m' : Machine} {ip : Nat} {offset signal rounds : Int} {reply : Reply} {o : Outcome}
  {xs ys : List Int}

/-! ### The listing -/

theorem ofList_feedbackProgram : Tape.ofList feedbackProgram = feedbackTape 0 0 5 := rfl

theorem set_offset (v : Int) :
    (feedbackTape offset signal rounds).set 26 v = feedbackTape (wrap v) signal rounds := rfl

theorem set_signal (v : Int) :
    (feedbackTape offset signal rounds).set 27 v = feedbackTape offset (wrap v) rounds := rfl

theorem set_rounds (v : Int) :
    (feedbackTape offset signal rounds).set 28 v = feedbackTape offset signal (wrap v) := rfl

/-- The machine is at an address of the program. -/
structure At (m : Machine) (ip : Nat) (offset signal rounds : Int) : Prop where
  ip_eq : m.ip = ip
  tape_eq : m.tape = feedbackTape offset signal rounds
  not_halted : m.phase ≠ .halted

/-- The jump back is taken while there are rounds left. -/
theorem effect_of_branch (c : Config) (base : Int) (steps : Nat) (phase : Phase) :
    effect ⟨c, feedbackTape offset signal rounds, 22, base, steps, phase⟩
        ⟨.jumpIfTrue, .position, .immediate, .position⟩ =
      .ok (if rounds = 0 then .proceed else .jump 6) := by
  show (if (rounds != 0) = true then Except.ok (Effect.jump 6) else .ok .proceed) = _
  by_cases h : rounds = 0
  · simp [h]
  · simp [h]

theorem plan_of_at (h : At m ip offset signal rounds)
    (hip : ip ∈ [0, 2, 6, 8, 12, 16, 18, 22, 25]) :
    m.plan = feedbackPlan offset signal rounds ip := by
  obtain ⟨c, tape, ip', base, steps, phase⟩ := m
  obtain ⟨rfl, rfl, hphase⟩ := h
  simp only at hip ⊢
  -- the plan does not depend on whether the machine has run before
  have hplan : plan ⟨c, feedbackTape offset signal rounds, ip', base, steps, phase⟩ =
      plan ⟨c, feedbackTape offset signal rounds, ip', base, steps, .running⟩ := by
    cases phase with
    | halted => exact absurd rfl hphase
    | _ => rfl
  rw [hplan]
  simp only [List.mem_cons, List.not_mem_nil, or_false] at hip
  rcases hip with rfl | rfl | rfl | rfl | rfl | rfl | rfl | rfl | rfl
  · rfl
  · rfl
  · rfl
  · rfl
  · rfl
  · rfl
  · rfl
  · -- only the branch depends on what the tape holds
    exact plan_of_effect Phase.noConfusion rfl (effect_of_branch c base steps .running)
  · rfl

theorem demand_of_at (h : At m ip offset signal rounds)
    (hip : ip ∈ [0, 2, 6, 8, 12, 16, 18, 22, 25]) :
    m.demand = (feedbackPlan offset signal rounds ip).demand := by
  rw [demand, plan_of_at h hip]

theorem demand_of_branch (h : At m 22 offset signal rounds) : m.demand = .silent := by
  rw [demand_of_at h (by decide), feedbackPlan]
  split <;> rfl

/-! ### One step -/

theorem At.store (h : At m ip offset signal rounds) {length a : Nat} {v : Int}
    {offset' signal' rounds' : Int}
    (ht : (feedbackTape offset signal rounds).set a v = feedbackTape offset' signal' rounds')
    (hstore : m.counted.store length a v = (o, m')) :
    o = .continued ∧ At m' (ip + length) offset' signal' rounds' := by
  obtain ⟨rfl, htape, -⟩ := h
  cases hstore
  refine ⟨rfl, rfl, ?_, Phase.noConfusion⟩
  rw [← ht, ← htape]
  rfl

theorem At.advance (h : At m ip offset signal rounds) {length : Nat}
    (hadvance : m.counted.advance length = (o, m')) :
    o = .continued ∧ At m' (ip + length) offset signal rounds := by
  obtain ⟨rfl, htape, -⟩ := h
  cases hadvance
  exact ⟨rfl, rfl, htape, Phase.noConfusion⟩

/-- The branch goes back to the next round, or on to the end after the last one. -/
theorem At.branch (h : At m 22 offset signal rounds) (hresume : m.resume reply = (o, m')) :
    o = .continued ∧ ((rounds ≠ 0 ∧ At m' 6 offset signal rounds) ∨
      (rounds = 0 ∧ At m' 25 offset signal rounds)) := by
  have hp := plan_of_at h (by decide)
  obtain ⟨hip, htape, -⟩ := h
  rw [resume, hp] at hresume
  by_cases hrounds : rounds = 0
  · simp only [feedbackPlan, if_pos hrounds] at hresume
    cases hresume
    refine ⟨rfl, .inr ⟨hrounds, ?_, htape, Phase.noConfusion⟩⟩
    exact congrArg (· + 3) hip
  · simp only [feedbackPlan, if_neg hrounds] at hresume
    cases hresume
    exact ⟨rfl, .inl ⟨hrounds, rfl, htape, Phase.noConfusion⟩⟩

/-- The machine has halted at the halt instruction of the program. -/
structure AtHalt (m : Machine) : Prop where
  halted : m.phase = .halted
  ip_eq : m.ip = 25
  word_eq : m.word = 99

theorem At.halt (h : At m 25 offset signal rounds) (hresume : m.resume reply = (o, m')) :
    o = .halted ∧ AtHalt m' := by
  have hp := plan_of_at h (by decide)
  obtain ⟨hip, htape, -⟩ := h
  rw [resume, hp] at hresume
  cases hresume
  refine ⟨rfl, rfl, hip, ?_⟩
  show m.tape.get m.ip = 99
  rw [htape, hip]
  rfl

/-! ### The whole program -/

/-- Where the machine is that has taken `xs` and given `ys`, and what its tape holds. -/
inductive Amplifying : List Int → List Int → Machine → Prop
  | start {m : Machine} : At m 0 0 0 5 → Amplifying [] [] m
  | phased {m : Machine} {p : Int} : At m 2 (wrap p) 0 5 → Amplifying [p] [] m
  | waiting {m : Machine} {p signal : Int} {vs : List Int} :
      vs.length < 5 → At m 6 (wrap (p - 4)) signal (5 - vs.length) →
        Amplifying (p :: vs) (vs.map (amplify p)) m
  | taken {m : Machine} {p v : Int} {vs : List Int} :
      vs.length < 5 → At m 8 (wrap (p - 4)) (wrap v) (5 - vs.length) →
        Amplifying (p :: (vs ++ [v])) (vs.map (amplify p)) m
  | doubled {m : Machine} {p v : Int} {vs : List Int} :
      vs.length < 5 → At m 12 (wrap (p - 4)) (wrap (2 * v)) (5 - vs.length) →
        Amplifying (p :: (vs ++ [v])) (vs.map (amplify p)) m
  | amplified {m : Machine} {p v : Int} {vs : List Int} :
      vs.length < 5 → At m 16 (wrap (p - 4)) (amplify p v) (5 - vs.length) →
        Amplifying (p :: (vs ++ [v])) (vs.map (amplify p)) m
  | given {m : Machine} {p signal : Int} {vs : List Int} :
      0 < vs.length → vs.length ≤ 5 → At m 18 (wrap (p - 4)) signal (6 - vs.length) →
        Amplifying (p :: vs) (vs.map (amplify p)) m
  | counted {m : Machine} {p signal : Int} {vs : List Int} :
      0 < vs.length → vs.length ≤ 5 → At m 22 (wrap (p - 4)) signal (5 - vs.length) →
        Amplifying (p :: vs) (vs.map (amplify p)) m
  | done {m : Machine} {p signal rounds : Int} {vs : List Int} :
      vs.length = 5 → At m 25 (wrap (p - 4)) signal rounds →
        Amplifying (p :: vs) (vs.map (amplify p)) m

/-- A step that asks for nothing takes and gives nothing. -/
theorem Amplifying.of_silent (h : Amplifying xs ys m') (hd : m.demand = .silent) (r : Int) :
    Amplifying (xs ++ m.demand.taken r) (ys ++ m.demand.given) m' := by
  rw [hd]
  simpa [Demand.taken, Demand.given] using h

/-- One step of the program: it goes on as it should, or it halts after five rounds. -/
theorem Amplifying.step (h : Amplifying xs ys m) {r : Int} (hresume : m.resume (.ok r) = (o, m')) :
    (o = .continued ∧ Amplifying (xs ++ m.demand.taken r) (ys ++ m.demand.given) m') ∨
    (o = .halted ∧ ys.length = 5 ∧ AtHalt m') := by
  cases h with
  | start hat =>
    have hp := plan_of_at hat (by decide)
    rw [resume_of_input hp] at hresume
    obtain ⟨rfl, hat'⟩ := hat.store (a := 26) (set_offset r) hresume
    rw [demand, hp]
    exact .inl ⟨rfl, .phased hat'⟩
  | phased hat =>
    have hp := plan_of_at hat (by decide)
    rw [resume_of_store hp] at hresume
    obtain ⟨rfl, hat'⟩ := hat.store (a := 26) (set_offset _) hresume
    rw [wrap_add_wrap] at hat'
    have hnext := @Amplifying.waiting _ _ _ [] (Nat.zero_lt_succ 4) hat'
    exact .inl ⟨rfl, hnext.of_silent (demand_of_at hat (by decide)) r⟩
  | @waiting _ _ _ vs hlen hat =>
    have hp := plan_of_at hat (by decide)
    rw [resume_of_input hp] at hresume
    obtain ⟨rfl, hat'⟩ := hat.store (a := 27) (set_signal r) hresume
    have hd : m.demand = .get := demand_of_at hat (by decide)
    refine .inl ⟨rfl, ?_⟩
    rw [hd]
    simpa [Demand.taken, Demand.given] using Amplifying.taken hlen hat'
  | @taken _ _ v _ hlen hat =>
    have hp := plan_of_at hat (by decide)
    rw [resume_of_store hp] at hresume
    obtain ⟨rfl, hat'⟩ := hat.store (a := 27) (set_signal _) hresume
    rw [wrap_mul_wrap, Int.mul_comm v 2] at hat'
    exact .inl ⟨rfl, (Amplifying.doubled hlen hat').of_silent (demand_of_at hat (by decide)) r⟩
  | @doubled _ p v _ hlen hat =>
    have hp := plan_of_at hat (by decide)
    rw [resume_of_store hp] at hresume
    obtain ⟨rfl, hat'⟩ := hat.store (a := 27) (set_signal _) hresume
    -- both addends were wrapped before, which makes no difference to the sum
    rw [wrap_add_wrap, wrap_add_wrap_right, ← Int.add_sub_assoc] at hat'
    exact .inl ⟨rfl, (Amplifying.amplified hlen hat').of_silent (demand_of_at hat (by decide)) r⟩
  | @amplified _ p v vs hlen hat =>
    have hp := plan_of_at hat (by decide)
    rw [resume_of_output hp] at hresume
    obtain ⟨rfl, hat'⟩ := hat.advance hresume
    have hd : m.demand = .put (amplify p v) := demand_of_at hat (by decide)
    -- the value is given, but its round is not counted yet
    have hrounds : (5 : Int) - vs.length = 6 - (vs ++ [v]).length := by
      rw [List.length_append, List.length_singleton]
      omega
    rw [hrounds] at hat'
    have hnext := Amplifying.given (by simp) (by simp; omega) hat'
    refine .inl ⟨rfl, ?_⟩
    rw [hd]
    simpa [Demand.taken, Demand.given] using hnext
  | @given _ _ _ vs hpos hlen hat =>
    have hp := plan_of_at hat (by decide)
    rw [resume_of_store hp] at hresume
    obtain ⟨rfl, hat'⟩ := hat.store (a := 28) (set_rounds _) hresume
    -- the rounds that are left are a small number, so it is not wrapped
    have hrounds : wrap (6 - (vs.length : Int) + -1) = 5 - vs.length := by
      rw [wrap_eq_self]
      · omega
      · unfold IsWord minWord maxWord
        omega
    rw [hrounds] at hat'
    exact .inl ⟨rfl, (Amplifying.counted hpos hlen hat').of_silent (demand_of_at hat (by decide)) r⟩
  | @counted _ _ _ vs hpos hlen hat =>
    have hd := demand_of_branch hat
    obtain ⟨rfl, ⟨hrounds, hat'⟩ | ⟨hrounds, hat'⟩⟩ := hat.branch hresume
    · exact .inl ⟨rfl, (Amplifying.waiting (by omega) hat').of_silent hd r⟩
    · exact .inl ⟨rfl, (Amplifying.done (by omega) hat').of_silent hd r⟩
  | done hlen hat =>
    obtain ⟨rfl, hhalt⟩ := hat.halt hresume
    exact .inr ⟨rfl, by rwa [List.length_map], hhalt⟩

theorem amplifying_of_flow {c : Config} {n : Nat}
    (h : Flow (load c feedbackProgram) n xs ys m) : Amplifying xs ys m := by
  induction h with
  | start => exact .start ⟨rfl, ofList_feedbackProgram, Phase.noConfusion⟩
  | step _ _ hresume ih =>
    rcases ih.step hresume with ⟨-, hnext⟩ | ⟨ho, -⟩
    · exact hnext
    · cases ho

/-! ### What the program gives -/

/-- The rounds that are over, or begun, are those of the first signals. -/
theorem map_amplify_eq {p p' : Int} {us vs ws : List Int} (hx : p' :: (vs ++ ws) <+: p :: us) :
    vs.map (amplify p') = (us.take (vs.map (amplify p')).length).map (amplify p) := by
  obtain ⟨rfl, hvs⟩ := List.cons_prefix_cons.mp hx
  rw [List.length_map, ← List.prefix_iff_eq_take.mp ((List.prefix_append vs ws).trans hvs)]

/-- What is given is made of the first signals, and it is five values at most. -/
theorem Amplifying.given_eq (h : Amplifying xs ys m) {p : Int} {us : List Int}
    (hx : xs <+: p :: us) : ys = (us.take ys.length).map (amplify p) ∧ ys.length ≤ 5 := by
  have hdone : ∀ {p' : Int} {vs : List Int}, p' :: vs <+: p :: us →
      vs.map (amplify p') = (us.take (vs.map (amplify p')).length).map (amplify p) := by
    intro p' vs hvs
    rw [← List.append_nil vs] at hvs
    exact map_amplify_eq hvs
  cases h with
  | start _ => exact ⟨rfl, Nat.zero_le 5⟩
  | phased _ => exact ⟨rfl, Nat.zero_le 5⟩
  | waiting hlen _ => exact ⟨hdone hx, by rw [List.length_map]; omega⟩
  | taken hlen _ => exact ⟨map_amplify_eq hx, by rw [List.length_map]; omega⟩
  | doubled hlen _ => exact ⟨map_amplify_eq hx, by rw [List.length_map]; omega⟩
  | amplified hlen _ => exact ⟨map_amplify_eq hx, by rw [List.length_map]; omega⟩
  | given _ hlen _ => exact ⟨hdone hx, by rwa [List.length_map]⟩
  | counted _ hlen _ => exact ⟨hdone hx, by rwa [List.length_map]⟩
  | done hlen _ => exact ⟨hdone hx, by rw [List.length_map]; omega⟩

/-- The program asks for its phase, for a signal while there are rounds left, or for nothing, and
    it gives a value in each of five rounds only. -/
theorem Amplifying.demand_cases (h : Amplifying xs ys m) :
    (m.demand = .get ∧ (xs = [] ∨ xs.length = ys.length + 1) ∧ ys.length < 5) ∨
    (∃ v, m.demand = .put v ∧ ys.length < 5) ∨ m.demand = .silent := by
  cases h with
  | start hat => exact .inl ⟨demand_of_at hat (by decide), .inl rfl, Nat.zero_lt_succ 4⟩
  | phased hat => exact .inr (.inr (demand_of_at hat (by decide)))
  | waiting hlen hat =>
    rw [List.length_map]
    exact .inl ⟨demand_of_at hat (by decide), .inr rfl, hlen⟩
  | taken _ hat => exact .inr (.inr (demand_of_at hat (by decide)))
  | doubled _ hat => exact .inr (.inr (demand_of_at hat (by decide)))
  | amplified hlen hat =>
    rw [List.length_map]
    exact .inr (.inl ⟨_, demand_of_at hat (by decide), hlen⟩)
  | given _ _ hat => exact .inr (.inr (demand_of_at hat (by decide)))
  | counted _ _ hat => exact .inr (.inr (demand_of_branch hat))
  | done _ hat => exact .inr (.inr (demand_of_at hat (by decide)))

/-- When the program waits for a signal, it has amplified all that it took. -/
theorem Amplifying.starved {p : Int} {us : List Int} (h : Amplifying (p :: us) ys m)
    (hget : m.demand = .get) : ys.length = us.length ∧ ys.length < 5 := by
  rcases h.demand_cases with ⟨-, hnone | hlen, hfive⟩ | ⟨v, hput, -⟩ | hsilent
  · cases hnone
  · exact ⟨(Nat.succ.inj hlen).symm, hfive⟩
  · cases hput.symm.trans hget
  · cases hsilent.symm.trans hget

/-- After five rounds the program asks for nothing any more. -/
theorem Amplifying.silent_of_five (h : Amplifying xs ys m) (hfive : ys.length = 5) :
    m.demand = .silent := by
  rcases h.demand_cases with ⟨-, -, hlt⟩ | ⟨v, -, hlt⟩ | hsilent
  · omega
  · omega
  · exact hsilent

/-- If the program ends, it has given five values. -/
theorem five_of_ends {c : Config} (h : Ends (load c feedbackProgram) xs ys o) : ys.length = 5 := by
  cases h with
  | step hflow _ hresume ho =>
    rcases (amplifying_of_flow hflow).step hresume with ⟨hgoes, -⟩ | ⟨-, hfive, -⟩
    · exact absurd hgoes ho
    · exact hfive

/-- After five rounds the program can only end at its halt instruction, whatever it is told. -/
theorem Amplifying.halt_of_five (h : Amplifying xs ys m) (hfive : ys.length = 5)
    (hresume : m.resume reply = (o, m')) (ho : o ≠ .continued) : o = .halted ∧ AtHalt m' := by
  rw [resume_of_silent (h.silent_of_five hfive) reply (.ok 0)] at hresume
  rcases h.step hresume with ⟨hgoes, -⟩ | ⟨hhalted, -, hat⟩
  · exact absurd hgoes ho
  · exact ⟨hhalted, hat⟩

/-! ### Chains of amplifiers -/

/-- What amplifiers with these phases make of a signal, one after the other, if nothing wraps. -/
def gain (phases : List Int) (v : Int) : Int := phases.foldl (fun v phase => 2 * v + phase - 4) v

/-- What they make of it as machines. -/
def chain (phases : List Int) (v : Int) : Int := phases.foldl (fun v phase => amplify phase v) v

/-- One more amplifier of a chain. -/
theorem chain_take_succ {phases : List Int} {i : Nat} (hi : i < phases.length) (v : Int) :
    chain (phases.take (i + 1)) v = amplify phases[i] (chain (phases.take i) v) := by
  rw [List.take_succ_eq_append_getElem hi, chain, List.foldl_concat]
  rfl

theorem amplify_wrap (phase v : Int) : amplify phase (wrap v) = amplify phase v := by
  unfold amplify
  rw [Int.mul_comm 2 (wrap v), Int.add_sub_assoc, ← wrap_add_wrap, wrap_mul_wrap, wrap_add_wrap,
    Int.mul_comm v 2, Int.add_sub_assoc]

theorem chain_wrap (phases : List Int) (v : Int) :
    chain phases (wrap v) = wrap (gain phases v) := by
  induction phases generalizing v with
  | nil => rfl
  | cons phase phases ih =>
    show chain phases (amplify phase (wrap v)) = wrap (gain phases (2 * v + phase - 4))
    rw [amplify_wrap, amplify, ih]

/-- The machines compute the affine map, up to one wrap at the end. -/
theorem chain_eq {phases : List Int} (hne : phases ≠ []) (v : Int) :
    chain phases v = wrap (gain phases v) := by
  cases phases with
  | nil => exact absurd rfl hne
  | cons phase phases =>
    show chain phases (amplify phase v) = wrap (gain phases (2 * v + phase - 4))
    exact chain_wrap phases _

/-- The machines compute the iterates of the affine map, up to one wrap at the end. -/
theorem iterate_chain {phases : List Int} (hne : phases ≠ []) (v : Int) (t : Nat) :
    (chain phases)^[t + 1] v = wrap ((gain phases)^[t + 1] v) := by
  induction t with
  | zero => exact chain_eq hne v
  | succ t ih =>
    rw [Function.iterate_succ_apply', ih, chain_wrap,
      Function.iterate_succ_apply' (gain phases) (t + 1) v]

end Amplifier

end TapeNet
