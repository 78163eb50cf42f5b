import TapeNet.Proofs.Camera.Crossings
import TapeNet.Proofs.Machine.Steps
import TapeNet.Proofs.Search.Fuel

/-! # Programs that print

    A program without jumps that gives some values and halts. It is a camera
    for any text.

    - `printing vs` is the listing, `Prints vs m` that the machine still has
      it in front of it. One instruction prints one value
      (`Prints.step`), and the machine halts behind the last
      (`Prints.run_eq`).
    - A camera takes the line feeds off both ends of what was printed, which
      does not change the rows of a view: to calibrate it is to align the
      text (`calibrate_of_printing`).
-/

namespace TapeNet

open Machine

/-- Gives the values one after the other, then halts. -/
def printing (vs : List Int) : List Int := vs.flatMap (fun v => [104, v]) ++ [99]

example : printing [7, -1] = [104, 7, 104, -1, 99] := rfl

theorem printing_cons (v : Int) (vs : List Int) :
    printing (v :: vs) = 104 :: v :: printing vs := rfl

/-- A machine in front of a program that prints: this is what it reads from its instruction pointer
    on. -/
structure Prints (vs : List Int) (m : Machine) : Prop where
  get_eq (j : Nat) : m.tape.get (m.ip + j) = (Tape.ofList (printing vs)).get j
  not_halted : m.phase ≠ .halted

namespace Prints

variable {m : Machine} {v : Int} {vs : List Int} {b : Buffer} {fuel : Nat}

theorem load (c : Config) (vs : List Int) : Prints vs (load c (printing vs)) where
  get_eq j := by
    show (Tape.ofList (printing vs)).get (0 + j) = _
    rw [Nat.zero_add]
  not_halted := Phase.noConfusion

theorem plan_cons (h : Prints (v :: vs) m) : m.plan = .perform 2 (.output (wrap v)) := by
  have hword : m.word = 104 := (h.get_eq 0).trans (Tape.get_ofList _ 0)
  have hfirst : m.parameter .first = wrap v := (h.get_eq 1).trans (Tape.get_ofList _ 1)
  have heffect : m.effect ⟨.output, .immediate, .position, .position⟩ = .ok (.output (wrap v)) := by
    rw [← hfirst]
    rfl
  exact plan_of_effect h.not_halted (by rw [hword]; rfl) heffect

theorem plan_nil (h : Prints [] m) : m.plan = .perform 1 .halt := by
  have hword : m.word = 99 := (h.get_eq 0).trans (Tape.get_ofList _ 0)
  exact plan_of_effect (i := ⟨.halt, .position, .position, .position⟩) h.not_halted
    (by rw [hword]; rfl) rfl

/-- One step prints the first value. -/
theorem step (h : Prints (v :: vs) m) (b : Buffer) : ∃ m', Prints vs m' ∧
    m.step Buffer.port b =
      (Outcome.continued, m', { b with outputs := b.outputs.push (wrap v) }) := by
  refine ⟨{ m.counted with ip := m.ip + 2 }, ⟨?_, Phase.noConfusion⟩, ?_⟩
  · -- two words on, the tape reads the rest of the listing
    intro j
    have hget := h.get_eq (j + 2)
    rw [Tape.get_ofList, printing_cons, List.getElem?_cons_succ, List.getElem?_cons_succ,
      ← Tape.get_ofList, Nat.add_comm j, ← Nat.add_assoc] at hget
    exact hget
  · rw [step_eq, demand, h.plan_cons]
    show ((m.resume (.ok 0)).1, (m.resume (.ok 0)).2, _) = _
    rw [resume_of_output h.plan_cons]
    rfl

/-- Behind the last value, the machine halts. -/
theorem step_nil (h : Prints [] m) (b : Buffer) :
    ∃ m', m.step Buffer.port b = (Outcome.halted, m', b) := by
  refine ⟨{ m.counted with phase := .halted }, ?_⟩
  rw [step_eq, demand, resume, h.plan_nil]
  rfl

/-- All values are printed, in their order. -/
theorem run_eq (h : Prints vs m) (b : Buffer) (hfuel : vs.length < fuel) :
    ∃ m', m.run Buffer.port fuel b =
      some (.halted, m', { b with outputs := b.outputs ++ (vs.map wrap).toArray }) := by
  induction vs generalizing m b fuel with
  | nil =>
    obtain ⟨fuel, rfl⟩ : ∃ n, fuel = n + 1 := ⟨fuel - 1, by omega⟩
    obtain ⟨m', hstep⟩ := h.step_nil b
    refine ⟨m', ?_⟩
    rw [run, hstep, List.map_nil, Array.append_empty]
    rfl
  | cons v vs ih =>
    obtain ⟨fuel, rfl⟩ : ∃ n, fuel = n + 1 := ⟨fuel - 1, by omega⟩
    obtain ⟨m₁, hprints, hstep⟩ := h.step b
    obtain ⟨m', hrun⟩ := ih hprints { b with outputs := b.outputs.push (wrap v) }
      (Nat.lt_of_succ_lt_succ hfuel)
    refine ⟨m', ?_⟩
    rw [run, hstep]
    simp only
    rw [hrun]
    simp

end Prints

/-- A program that prints some values outputs them, as words. -/
theorem run_printing (vs inputs : List Int) :
    ComesTo (runProgram · (printing vs) inputs) (.ok (vs.map wrap)) := by
  refine ⟨vs.length + 1, ?_⟩
  intro fuel hfuel
  obtain ⟨m', hrun⟩ := (Prints.load {} vs).run_eq (.ofInputs inputs) hfuel
  have hfinish : (Machine.load {} (printing vs)).finish Buffer.port fuel (.ofInputs inputs) =
      some (.ok (m', ⟨inputs, (vs.map wrap).toArray⟩)) := by
    rw [finish, hrun]
    simp [Buffer.ofInputs]
  show (runProgram fuel (printing vs) inputs).run = _
  rw [runProgram, hfinish]
  rfl

/-! ### Cameras -/

namespace Scaffold

open Text (codes code? Trimmed)

/-- Prints a text. -/
def printingText (s : String) : List Int := printing ((codes s).map Int.ofNat)

theorem le_of_mem_codes {s : String} {c : Nat} (hc : c ∈ codes s) : c ≤ 0x10FFFF := by
  obtain ⟨ch, -, rfl⟩ := List.mem_map.mp hc
  show ch.val.toNat ≤ _
  rcases ch.valid with hlow | ⟨-, hhigh⟩
  · omega
  · omega

/-- A number that is a character code passes through a machine as it is. -/
theorem code?_wrap {c : Nat} (hc : c ≤ 0x10FFFF) : code? (wrap c) = some c := by
  have hword : IsWord c := by
    simp only [IsWord, minWord, maxWord]
    omega
  rw [wrap_eq_self hword]
  exact if_pos hc

theorem mapM_code? {cs : List Nat} (h : ∀ c ∈ cs, c ≤ 0x10FFFF) :
    ((cs.map Int.ofNat).map wrap).mapM code? = some cs := by
  induction cs with
  | nil => rfl
  | cons c cs ih =>
    obtain ⟨hc, hcs⟩ := List.forall_mem_cons.mp h
    have hcode : code? (wrap (Int.ofNat c)) = some c := code?_wrap hc
    rw [List.map_cons, List.map_cons, List.mapM_cons, hcode, ih hcs]
    rfl

theorem view_of_printing (s : String) :
    ComesTo (cameraView · (printingText s)) (.ok (Text.trim (· == 0x0A) (codes s))) := by
  refine ((run_printing _ []).adapt CameraError.fault).bind ?_
  simp only [mapM_code? fun c hc => le_of_mem_codes hc]
  exact comesTo_const _

theorem calibrate_of_printing (s : String) :
    ComesTo (calibrate · (printingText s)) ((alignment (codes s)).mapError .picture) := by
  have hbreak : ∀ c, (c == 0x0A) → Text.isBreak c := by
    intro c hc
    rw [beq_iff_eq.mp hc]
    rfl
  have hrows := pictureRows_trim hbreak (codes s)
  refine (view_of_printing s).bind ?_
  rw [alignment_congr hrows]
  exact comesTo_const _

/-- A program that prints some values outputs them as words, whatever its inputs are. One that
    prints a text shows a camera that text without line feeds at its ends, and calibrating the
    camera gives what the alignment of the text itself gives, be it a sum or an error. -/
theorem printing_programs_print :
    (∀ vs inputs, ComesTo (runProgram · (printing vs) inputs) (.ok (vs.map wrap))) ∧
      ∀ s : String,
        (∃ view, ComesTo (cameraView · (printingText s)) (.ok view) ∧
          Trimmed (· == 0x0A) (codes s) view) ∧
        ComesTo (calibrate · (printingText s)) ((alignment (codes s)).mapError .picture) := by
  refine ⟨run_printing, ?_⟩
  intro s
  have htrimmed := Text.trimmed_trim (· == 0x0A) (codes s)
  exact ⟨⟨_, view_of_printing s, htrimmed⟩, calibrate_of_printing s⟩

end Scaffold

end TapeNet
