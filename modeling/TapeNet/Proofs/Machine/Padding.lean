import TapeNet.Proofs.Machine.Lockstep

/-! # Zeros at the end of a tape

    A tape reads 0 past its end and grows when it is written there, so it
    stands for a tape without end. How long it happens to be cannot be told
    from what a machine does.

    - `Tape.Padded w t t'`: `t'` holds the same words as `t`, and is at least
      `w` words long. Reads agree, and writes keep this.
    - `Machine.Padded w m m'`: `m'` is `m` on a padded tape. It has the same
      plan, and every step keeps this (`parallel_padded`).
    - `trailing_zeros_unobservable`: a program and the same program with zeros
      behind it, over any number of steps on the same port.
-/

namespace TapeNet

/-! ### Tapes -/

namespace Tape

variable {w : Nat} {t t' : Tape}

/-- The same words on a tape that is at least `w` words long. -/
structure Padded (w : Nat) (t t' : Tape) : Prop where
  get : ∀ a, t'.get a = t.get a
  size : t'.size = max t.size w

theorem padded_ofList (vs : List Int) (k : Nat) :
    (ofList vs).Padded (vs.length + k) (ofList (vs ++ List.replicate k 0)) where
  get a := by
    rw [get_ofList, get_ofList]
    rcases Nat.lt_or_ge a vs.length with ha | ha
    · rw [List.getElem?_append_left ha]
    · -- behind the program there are zeros on both tapes, whether they are stored or not
      rw [List.getElem?_append_right ha, List.getElem?_eq_none ha, List.getElem?_replicate]
      split
      · rfl
      · rfl
  size := by simp

theorem Padded.fetch (h : t.Padded w t') (a : Int) : t'.fetch a = t.fetch a := by
  cases a with
  | ofNat a => simp only [Tape.fetch, h.get]
  | negSucc n => rfl

theorem Padded.set (h : t.Padded w t') (a : Nat) (v : Int) : (t.set a v).Padded w (t'.set a v) where
  get b := by rw [get_set, get_set, h.get]
  size := by
    have hsize := h.size
    rw [size_set, size_set]
    omega

end Tape

namespace Machine

variable {w : Nat} {m m' : Machine}

/-- The same machine on a tape that is at least `w` words long. -/
structure Padded (w : Nat) (m m' : Machine) : Prop where
  config : m'.config = m.config
  tape : m.tape.Padded w m'.tape
  ip : m'.ip = m.ip
  base : m'.base = m.base
  steps : m'.steps = m.steps
  phase : m'.phase = m.phase

theorem padded_load (c : Config) (program : List Int) (k : Nat) :
    (load c program).Padded (program.length + k) (load c (program ++ List.replicate k 0)) :=
  ⟨rfl, Tape.padded_ofList program k, rfl, rfl, rfl, rfl⟩

namespace Padded

/-! ### Plans -/

theorem word (h : m.Padded w m') : m'.word = m.word := by
  rw [Machine.word, Machine.word, h.ip, h.tape.get]

theorem parameter (h : m.Padded w m') (slot : Slot) : m'.parameter slot = m.parameter slot := by
  rw [Machine.parameter, Machine.parameter, h.ip, h.tape.get]

theorem fetch (h : m.Padded w m') (a : Int) : m'.fetch a = m.fetch a := by
  rw [Machine.fetch, Machine.fetch, h.tape.fetch]

theorem operand (h : m.Padded w m') (modes : Modes) (slot : Slot) :
    m'.operand modes slot = m.operand modes slot := by
  simp only [Machine.operand, h.parameter, h.fetch, h.base]

theorem target (h : m.Padded w m') (modes : Modes) (slot : Slot) :
    m'.target modes slot = m.target modes slot := by
  simp only [Machine.target, h.parameter, h.word, h.base]

theorem effect (h : m.Padded w m') (i : Instruction) : m'.effect i = m.effect i := by
  simp only [Machine.effect, Machine.combine, Machine.branch, h.operand, h.target]

theorem plan (h : m.Padded w m') : m'.plan = m.plan := by
  simp only [Machine.plan, h.phase, h.word, h.effect]

end Padded

/-! ### Steps -/

/-- The length of the tape makes no difference to what a step does. -/
theorem parallel_padded (w : Nat) : Parallel (Padded w) where
  plan h := h.plan
  policy h := by rw [h.config]
  ip h := h.ip
  moved h _ := ⟨h.config, h.tape, rfl, h.base, h.steps, h.phase⟩
  written h a v := ⟨h.config, h.tape.set a v, h.ip, h.base, h.steps, h.phase⟩
  adjusted h d := ⟨h.config, h.tape, h.ip, congrArg (· + d) h.base, h.steps, h.phase⟩
  entered h _ := ⟨h.config, h.tape, h.ip, h.base, h.steps, rfl⟩
  stepped h := ⟨h.config, h.tape, h.ip, h.base, congrArg (· + 1) h.steps, h.phase⟩

/-- A program and the same program with zeros behind it cannot be told apart: after any number of
    steps on the same port the machines agree in all but the length of their tapes, which is known,
    their ports are in the same state, and the next step asks and hears the same and comes to the
    same, failures included. -/
theorem trailing_zeros_unobservable {σ : Type} (P : Port σ) (c : Config) (program : List Int)
    (k n : Nat) (s : σ) :
    let q := afterSteps P n (load c program, s)
    let q' := afterSteps P n (load c (program ++ List.replicate k 0), s)
    q.1.Padded (program.length + k) q'.1 ∧ q'.2 = q.2 ∧ exchange P q' = exchange P q ∧
      outcome P q' = outcome P q := by
  intro q q'
  have hparallel := parallel_padded (program.length + k)
  have hstart : Parallel.OnePort (Padded (program.length + k)) (load c program, s)
      (load c (program ++ List.replicate k 0), s) := ⟨padded_load c program k, rfl⟩
  obtain ⟨⟨hmachine, hport⟩, houtcome⟩ := (hparallel.lockstep P).afterSteps hstart n
  refine ⟨hmachine, hport, ?_, houtcome⟩
  rw [exchange, exchange, hparallel.demand hmachine, hport]

end Machine

end TapeNet
