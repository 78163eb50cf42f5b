import TapeNet.Proofs.Machine.Steps
import TapeNet.Proofs.Machine.Lockstep

/-! # Sessions with a machine

    Between two calls of a machine anything may happen to it that its owner
    can do: more steps and runs, writes to its tape at any address, and a port
    that is fed. None of this need succeed, and nothing of it ends the session.

    - `Session P q₀ words q`: a session leads from `q₀` to `q`, and the machine
      has decoded `words` on the way.
    - `Session.keeps`: what a step keeps, whatever the port replies, and a
      write from outside keeps too, holds all through a session.
    - `Stride`: what a step does to the registers. Where it leads to is an
      integer (`aim`), and the machine only goes there if it is an address.
    - `tape_resume` and `tape_poke`: what every write to a tape keeps is kept by
      steps and by writes from outside.
    - `session_invariants`: what holds at every point of a session with a
      machine that was loaded from a program.
-/

namespace TapeNet

/-! ### What writes to a tape keep -/

namespace Tape

variable {t : Tape}

/-- Every cell holds a word. -/
def Words (t : Tape) : Prop := ∀ v ∈ t.toList, IsWord v

/-- Reads past the end give words as well. -/
theorem words_iff_get : t.Words ↔ ∀ a, IsWord (t.get a) := by
  unfold Words
  rw [toList_eq, List.forall_mem_map]
  constructor
  · intro h a
    by_cases ha : a < t.size
    · exact h a (List.mem_range.mpr ha)
    · rw [get_of_size_le (by omega)]
      decide
  · intro h a _
    exact h a

theorem words_ofList (vs : List Int) : (ofList vs).Words := by
  rw [words_iff_get]
  intro a
  rw [get_ofList]
  exact isWord_wrap _

/-- Whatever is stored is wrapped, so it is a word. -/
theorem Words.set (h : t.Words) (a : Nat) (v : Int) : (t.set a v).Words := by
  rw [words_iff_get] at h ⊢
  intro b
  rw [get_set]
  split
  · exact isWord_wrap v
  · exact h b

theorem size_le_set {k : Nat} (t : Tape) (a : Nat) (v : Int) (h : k ≤ t.size) :
    k ≤ (t.set a v).size := by
  rw [size_set]
  exact Nat.le_trans h (Nat.le_max_left _ _)

end Tape

/-- How far a machine has come in its life. -/
def Phase.rank : Phase → Nat
  | .ready => 0
  | .running => 1
  | .halted => 2

/-- Where an instruction leads to if all goes well, given the address behind it. -/
def Effect.aim (behind : Int) : Effect → Int
  | .jump t => t
  | _ => behind

/-- What an instruction adds to the relative base. -/
def Effect.offset : Effect → Int
  | .adjust d => d
  | _ => 0

namespace Machine

variable {σ : Type} {m : Machine}

/-- Where the next step leads to if all goes well: an integer, which need not be an address. -/
def aim (m : Machine) : Int :=
  match m.plan with
  | .perform length e => e.aim (m.ip + length)
  | _ => m.ip

/-- What the next step adds to the relative base. -/
def offset (m : Machine) : Int :=
  match m.plan with
  | .perform _ e => e.offset
  | _ => 0

/-- The words that the next step decodes: the one at the instruction pointer, unless it is no
    instruction or the machine has halted. -/
def decoded (m : Machine) : List Int :=
  if m.phase = .halted then []
  else
    match Instruction.ofWord m.word with
    | .ok _ => [m.word]
    | .error _ => []

theorem decode_of_mem_decoded {w : Int} (h : w ∈ m.decoded) :
    ∃ i, Instruction.ofWord w = .ok i := by
  unfold decoded at h
  split at h
  · cases h
  · split at h
    · next i hi =>
      obtain rfl : w = m.word := List.mem_singleton.mp h
      exact ⟨i, hi⟩
    · cases h

/-! ### Registers -/

/-- The registers after an effect that leads to `aim` and adds `offset` to the relative base. -/
structure Moved (m : Machine) (aim offset : Int) (e : Outcome × Machine) : Prop where
  ip : (e.2.ip : Int) = if e.1 = .continued then aim else m.ip
  base : e.2.base = m.base + offset
  steps : e.2.steps = m.steps
  phase : e.2.phase = m.phase ∨ e.2.phase = .halted

theorem moved_advance (m : Machine) (length : Nat) :
    m.Moved (m.ip + length) 0 (m.advance length) where
  ip := by simp [advance]
  base := by simp [advance]
  steps := rfl
  phase := .inl rfl

theorem moved_store (m : Machine) (length : Nat) (address value : Int) :
    m.Moved (m.ip + length) 0 (m.store length address value) := by
  cases address with
  | ofNat a =>
    obtain ⟨hip, hbase, hsteps, hphase⟩ :=
      moved_advance { m with tape := m.tape.set a value } length
    exact ⟨hip, hbase, hsteps, hphase⟩
  | negSucc n => exact ⟨rfl, (Int.add_zero _).symm, rfl, .inl rfl⟩

theorem moved_refused (m : Machine) (aim : Int) (cause : PortError) :
    m.Moved aim 0 (m.refused cause) := by
  rcases m.refused_cases cause with h | h
  · rw [h]
    exact ⟨rfl, (Int.add_zero _).symm, rfl, .inr rfl⟩
  · rw [h]
    exact ⟨rfl, (Int.add_zero _).symm, rfl, .inl rfl⟩

theorem moved_apply (m : Machine) (length : Nat) (e : Effect) (reply : Reply) :
    m.Moved (e.aim (m.ip + length)) e.offset (m.apply length e reply) := by
  cases e with
  | store address value => exact m.moved_store length address value
  | input address =>
    cases reply with
    | ok value => exact m.moved_store length address value
    | error cause => exact m.moved_refused _ cause
  | output value =>
    cases reply with
    | ok _ => exact m.moved_advance length
    | error cause => exact m.moved_refused _ cause
  | jump t =>
    -- a jump to an address goes there, and a jump below zero is refused
    cases t with
    | ofNat a => exact ⟨rfl, (Int.add_zero _).symm, rfl, .inl rfl⟩
    | negSucc n => exact ⟨rfl, (Int.add_zero _).symm, rfl, .inl rfl⟩
  | adjust d => exact ⟨(moved_advance m length).ip, rfl, rfl, .inl rfl⟩
  | proceed => exact m.moved_advance length
  | halt => exact ⟨rfl, (Int.add_zero _).symm, rfl, .inr rfl⟩

/-- A machine that has not halted has something to do. -/
theorem plan_ne_idle (h : m.phase ≠ .halted) : m.plan ≠ .idle := by
  unfold plan
  split
  · next hhalted => exact absurd hhalted h
  · split
    · exact Plan.noConfusion
    · split
      · exact Plan.noConfusion
      · exact Plan.noConfusion

/-- What a step does to the registers, whatever the port replies: the instruction pointer goes where
    the instruction leads to, which is an address then, or stays; the relative base is a sum of
    integers; every word that is decoded is counted. -/
structure Stride (m : Machine) (e : Outcome × Machine) : Prop where
  ip : (e.2.ip : Int) = if e.1 = .continued then m.aim else m.ip
  base : e.2.base = m.base + m.offset
  steps : e.2.steps = m.steps + m.decoded.length
  phase : m.phase.rank ≤ e.2.phase.rank

theorem stride_resume (m : Machine) (reply : Reply) : m.Stride (m.resume reply) := by
  by_cases hhalted : m.phase = .halted
  · have hp : m.plan = .idle := by simp only [plan, hhalted]
    have hdecoded : m.decoded = [] := if_pos hhalted
    rw [resume_of_halted hhalted]
    exact ⟨rfl, by simp [offset, hp], by simp [hdecoded], Nat.le_refl _⟩
  -- a machine that is called leaves `ready`
  have hrank : m.phase.rank ≤ 1 := by
    cases hphase : m.phase with
    | ready => decide
    | running => decide
    | halted => exact absurd hphase hhalted
  rcases m.plan_cases with hp | ⟨cause, hd, hp⟩ | ⟨i, fault, hd, -, hp⟩ | ⟨i, e, hd, -, hp⟩
  · exact absurd hp (plan_ne_idle hhalted)
  · have hdecoded : m.decoded = [] := by simp only [decoded, if_neg hhalted, hd]
    rw [resume, hp]
    exact ⟨rfl, by simp [carryOut, offset, hp], by simp [carryOut, hdecoded], hrank⟩
  · have hdecoded : m.decoded = [m.word] := by simp only [decoded, if_neg hhalted, hd]
    rw [resume, hp]
    exact ⟨rfl, by simp [carryOut, counted, offset, hp],
      by simp [carryOut, counted, hdecoded], hrank⟩
  · have hdecoded : m.decoded = [m.word] := by simp only [decoded, if_neg hhalted, hd]
    obtain ⟨hip, hbase, hsteps, hphase⟩ := m.counted.moved_apply i.opcode.length e reply
    rw [resume, hp]
    refine ⟨?_, ?_, ?_, ?_⟩
    · rw [aim, hp]
      exact hip
    · rw [offset, hp]
      exact hbase
    · rw [hdecoded]
      exact hsteps
    · -- the effect leaves the machine running or halts it
      rcases hphase with hphase | hphase
      · rw [carryOut, hphase]
        exact hrank
      · rw [carryOut, hphase]
        exact Nat.le_succ_of_le hrank

/-! ### Tapes -/

/-- What every write to a tape keeps is kept by all that a step can do. -/
theorem parallel_tape {I : Tape → Prop} (hset : ∀ t a v, I t → I (t.set a v)) :
    Parallel fun m m' => m' = m ∧ I m.tape where
  plan h := by rw [h.1]
  policy h := by rw [h.1]
  ip h := by rw [h.1]
  moved h _ := ⟨by rw [h.1], h.2⟩
  written h a v := ⟨by rw [h.1], hset _ a v h.2⟩
  adjusted h _ := ⟨by rw [h.1], h.2⟩
  entered h _ := ⟨by rw [h.1], h.2⟩
  stepped h := ⟨by rw [h.1], h.2⟩

theorem tape_resume {I : Tape → Prop} (hset : ∀ t a v, I t → I (t.set a v)) (h : I m.tape)
    (reply : Reply) : I (m.resume reply).2.tape :=
  ((parallel_tape hset).resume ⟨rfl, h⟩ reply).2.2

theorem tape_poke {I : Tape → Prop} (hset : ∀ t a v, I t → I (t.set a v)) (h : I m.tape)
    (address value : Int) : I (m.poke address value).2.tape := by
  cases address with
  | ofNat a => exact hset _ a value h
  | negSucc n => exact h

/-- A write from outside touches the tape only. -/
theorem poke_registers (m : Machine) (address value : Int) :
    (m.poke address value).2.steps = m.steps ∧ (m.poke address value).2.phase = m.phase := by
  cases address with
  | ofNat a => exact ⟨rfl, rfl⟩
  | negSucc n => exact ⟨rfl, rfl⟩

/-! ### Sessions -/

/-- The words that are decoded in a run. -/
def decodedIn (P : Port σ) : Nat → Machine × σ → List Int
  | 0, _ => []
  | fuel + 1, q =>
    if outcome P q = .continued then q.1.decoded ++ decodedIn P fuel (afterStep P q)
    else q.1.decoded

/-- A session leads from one point to another, and these words are decoded on the way. A run is a
    part of a session if it ends; how far it has come before is told by steps. -/
inductive Session (P : Port σ) (q₀ : Machine × σ) : List Int → Machine × σ → Prop
  | start : Session P q₀ [] q₀
  | step {words : List Int} {q : Machine × σ} :
      Session P q₀ words q → Session P q₀ (words ++ q.1.decoded) (afterStep P q)
  | run {words : List Int} {q q' : Machine × σ} {fuel : Nat} {o : Outcome} :
      Session P q₀ words q → q.1.run P fuel q.2 = some (o, q') →
        Session P q₀ (words ++ decodedIn P fuel q) q'
  /-- a write from outside, which may be refused -/
  | poke {words : List Int} {q : Machine × σ} (address value : Int) :
      Session P q₀ words q → Session P q₀ words ((q.1.poke address value).2, q.2)
  /-- whatever the owner of the port does to it, such as feeding it -/
  | feed {words : List Int} {q : Machine × σ} (s : σ) :
      Session P q₀ words q → Session P q₀ words (q.1, s)

/-- Any number of steps is a session. -/
theorem exists_session (P : Port σ) (n : Nat) (q : Machine × σ) :
    ∃ words, Session P q words (afterSteps P n q) := by
  induction n with
  | zero => exact ⟨[], .start⟩
  | succ n ih =>
    obtain ⟨words, h⟩ := ih
    rw [afterSteps_succ]
    exact ⟨_, h.step⟩

/-- A run keeps what its steps keep. -/
theorem keeps_run {P : Port σ} {I : List Int → Machine → Prop}
    (hstep : ∀ words m reply, I words m → I (words ++ m.decoded) (m.resume reply).2) {fuel : Nat}
    {words : List Int} {q q' : Machine × σ} {o : Outcome} (h : I words q.1)
    (hrun : q.1.run P fuel q.2 = some (o, q')) : I (words ++ decodedIn P fuel q) q'.1 := by
  induction fuel generalizing words q with
  | zero => cases hrun
  | succ fuel ih =>
    have hnext := hstep words q.1 (P.answer q.1.demand q.2).1 h
    rw [run_succ] at hrun
    unfold decodedIn
    by_cases hcontinued : outcome P q = .continued
    · rw [if_pos hcontinued] at hrun ⊢
      rw [← List.append_assoc]
      exact ih (q := afterStep P q) hnext hrun
    · rw [if_neg hcontinued] at hrun ⊢
      cases hrun
      exact hnext

/-- What a step keeps, whatever the port replies, and a write from outside keeps as well, holds all
    through a session. -/
theorem Session.keeps {P : Port σ} {I : List Int → Machine → Prop}
    (hstep : ∀ words m reply, I words m → I (words ++ m.decoded) (m.resume reply).2)
    (hpoke : ∀ words m address value, I words m → I words (m.poke address value).2)
    {words : List Int} {q₀ q : Machine × σ} (h : Session P q₀ words q) (hstart : I [] q₀.1) :
    I words q.1 := by
  induction h with
  | start => exact hstart
  | step _ ih => exact hstep _ _ _ ih
  | run _ hrun ih => exact keeps_run hstep ih hrun
  | poke address value _ ih => exact hpoke _ _ address value ih
  | feed _ _ ih => exact ih

/-- A machine whose cells are words, and whose counter stands at the words decoded so far. -/
structure Sound (words : List Int) (m : Machine) : Prop where
  cells : m.tape.Words
  decoded : ∀ w ∈ words, ∃ i, Instruction.ofWord w = .ok i
  steps : m.steps = words.length

theorem sound_load (c : Config) (program : List Int) : (load c program).Sound [] where
  cells := Tape.words_ofList program
  decoded _ hw := by cases hw
  steps := rfl

theorem Sound.resume {words : List Int} (h : m.Sound words) (reply : Reply) :
    (m.resume reply).2.Sound (words ++ m.decoded) where
  cells := tape_resume (fun _ a v ht => ht.set a v) h.cells reply
  decoded w hw := by
    rcases List.mem_append.mp hw with hw | hw
    · exact h.decoded w hw
    · exact decode_of_mem_decoded hw
  steps := by rw [(m.stride_resume reply).steps, h.steps, List.length_append]

theorem Sound.poke {words : List Int} (h : m.Sound words) (address value : Int) :
    (m.poke address value).2.Sound words where
  cells := tape_poke (fun _ a v ht => ht.set a v) h.cells address value
  decoded := h.decoded
  steps := (m.poke_registers address value).1.trans h.steps

theorem Session.sound {P : Port σ} {c : Config} {program words : List Int} {s : σ}
    {q : Machine × σ} (h : Session P (load c program, s) words q) : q.1.Sound words :=
  h.keeps (fun _ _ reply hm => hm.resume reply) (fun _ _ a v hm => hm.poke a v)
    (sound_load c program)

/-- The tape and the phase at a later point of a session: they only grow. -/
structure Later (m m' : Machine) : Prop where
  size : m.tape.size ≤ m'.tape.size
  phase : m.phase.rank ≤ m'.phase.rank

theorem Session.later {P : Port σ} {words : List Int} {q q' : Machine × σ}
    (h : Session P q words q') : q.1.Later q'.1 := by
  refine h.keeps (I := fun _ m => q.1.Later m) ?_ ?_ ⟨Nat.le_refl _, Nat.le_refl _⟩
  · intro _ m reply hm
    exact ⟨tape_resume Tape.size_le_set hm.size reply,
      Nat.le_trans hm.phase (m.stride_resume reply).phase⟩
  · intro _ m a v hm
    refine ⟨tape_poke Tape.size_le_set hm.size a v, ?_⟩
    rw [(m.poke_registers a v).2]
    exact hm.phase

/-- A machine at any point of a session, whatever has failed before. Its cells are words, and its
    counter stands at the words that it has decoded, of which each is an instruction. An
    instruction word and its parameters are read without a refusal. The next step goes on only if
    its instruction leads to an address, and the machine is there then; else it stays where it is.
    At every later point the tape is as long or longer, and the phase has not gone back. Once the
    machine has halted, steps and runs change nothing of it, and ask for nothing and give nothing
    to its port. -/
theorem session_invariants {P : Port σ} {c : Config} {program words : List Int} {s : σ}
    {q : Machine × σ} (h : Session P (load c program, s) words q) :
    (∀ v ∈ q.1.tape.toList, IsWord v) ∧
    ((∀ w ∈ words, ∃ i, Instruction.ofWord w = .ok i) ∧ q.1.steps = words.length) ∧
    (q.1.tape.fetch q.1.ip = .ok q.1.word ∧
      ∀ slot : Slot, q.1.tape.fetch (q.1.ip + 1 + slot.index) = .ok (q.1.parameter slot)) ∧
    ((outcome P q = .continued → 0 ≤ q.1.aim ∧ ((afterStep P q).1.ip : Int) = q.1.aim) ∧
      (outcome P q ≠ .continued → (afterStep P q).1.ip = q.1.ip)) ∧
    (∀ words' q', Session P q words' q' →
      q.1.tape.size ≤ q'.1.tape.size ∧ q.1.phase.rank ≤ q'.1.phase.rank) ∧
    (q.1.phase = .halted →
      q.1.demand = .silent ∧ q.1.step P q.2 = (.idle, q.1, q.2) ∧
        ∀ fuel, q.1.run P (fuel + 1) q.2 = some (.idle, q.1, P.close q.2)) := by
  obtain ⟨hcells, hdecoded, hsteps⟩ := h.sound
  refine ⟨hcells, ⟨hdecoded, hsteps⟩, ⟨rfl, fun slot => rfl⟩, ⟨?_, ?_⟩, ?_, ?_⟩
  · intro hcontinued
    have hip : ((afterStep P q).1.ip : Int) = q.1.aim :=
      ((q.1.stride_resume _).ip).trans (if_pos hcontinued)
    exact ⟨hip ▸ Int.natCast_nonneg _, hip⟩
  · intro hstays
    have hip : ((afterStep P q).1.ip : Int) = q.1.ip :=
      ((q.1.stride_resume _).ip).trans (if_neg hstays)
    exact Int.ofNat.inj hip
  · intro words' q' hlater
    exact ⟨hlater.later.size, hlater.later.phase⟩
  · intro hhalted
    have hstep := step_of_halted P hhalted q.2
    refine ⟨demand_of_halted hhalted, hstep, fun fuel => ?_⟩
    rw [run, hstep]

/-- A machine that takes an input and stores its double behind the program. -/
def doubler : Machine := load {} [3, 0, 1, 0, 0, 9, 99]

/-- It is called before there is an input, its tape is written to below zero and behind its end, and
    then it is fed and run. -/
theorem doubler_session :
    ∃ q q' : Machine × Buffer,
      Session Buffer.port (doubler, .ofInputs []) [3] q ∧
      outcome Buffer.port (doubler, .ofInputs []) = .failed (.port .exhausted) ∧
      Session Buffer.port (doubler, .ofInputs []) [3, 3, 1, 99] q' ∧
      q'.1.tape.toList = [5, 0, 1, 0, 0, 9, 99, 1, 0, 10] ∧
      q.1.steps = 1 ∧ q'.1.steps = 4 ∧
      (q.1.tape.size ≤ q'.1.tape.size ∧ q.1.phase.rank ≤ q'.1.phase.rank) ∧
      q'.1.step Buffer.port q'.2 = (.idle, q'.1, q'.2) := by
  let q : Machine × Buffer := afterStep Buffer.port (doubler, .ofInputs [])
  let written : Machine := ((q.1.poke (-1) 7).2.poke 7 (2 ^ 64 + 1)).2
  let q' : Machine × Buffer := afterSteps Buffer.port 3 (written, q.2.feed [5])
  have hfirst : doubler.decoded = [3] := by decide +kernel
  have hrest : decodedIn Buffer.port 3 (written, q.2.feed [5]) = [3, 1, 99] := by decide +kernel
  have hrun : written.run Buffer.port 3 (q.2.feed [5]) = some (.halted, q') := by decide +kernel
  have hhalted : q'.1.phase = .halted := by decide +kernel
  have hcalled : Session Buffer.port (doubler, .ofInputs []) ([] ++ doubler.decoded) q := .step .start
  rw [hfirst] at hcalled
  have hgoes : ∀ {q₀ words}, Session Buffer.port q₀ words q →
      Session Buffer.port q₀ (words ++ [3, 1, 99]) q' := by
    intro q₀ words h
    have hrefused := h.poke (-1) 7
    have hwritten := hrefused.poke 7 (2 ^ 64 + 1)
    have hfed := hwritten.feed (q.2.feed [5])
    rw [← hrest]
    exact hfed.run hrun
  obtain ⟨-, ⟨-, hsteps⟩, -, -, hgrows, -⟩ := session_invariants hcalled
  obtain ⟨-, ⟨-, hsteps'⟩, -, -, -, hdone⟩ := session_invariants (hgoes hcalled)
  exact ⟨q, q', hcalled, by decide +kernel, hgoes hcalled, by decide +kernel, hsteps, hsteps',
    hgrows _ _ (hgoes .start), (hdone hhalted).2.1⟩

end Machine

end TapeNet
