import TapeNet.RepairDroid
import TapeNet.Proofs.Machine.Atomicity
import TapeNet.Proofs.Net.Dialogue
import TapeNet.Proofs.Net.Standalone
import TapeNet.Proofs.Survey.Maze

/-! # Exploring over channels

    A droid program that tells of a maze what is true, whatever it is
    commanded, is explored as the maze itself is surveyed.

    - `statuses d cs`: what a droid in the maze tells about the commands `cs`.
      `IsDroid program`: the program tells the same, run alone on any
      commands.
    - `OnCourse cs zs p`: a pilot that gave the commands `cs` and heard `zs`
      is where the survey in the maze is. As long as it hears what is true,
      it stays on course (`onCourse_of_flow`).
    - Such a program never ends of its own accord (`IsDroid.patient`), so its
      pilot is never refused, in any interleaving.
    - A program is one if it comes back to a like state after each command
      (`isDroid_of_laps`), as the droid in a corridor of two cells does.
-/

namespace TapeNet

open Machine TapeNet.System

namespace Maze

variable {M : Maze}

/-! ### What a droid tells -/

/-- What a droid tells about some commands. -/
def statuses (M : Maze) : Explorer → List Int → List Int
  | _, [] => []
  | d, c :: cs => (M.move c d).1 :: M.statuses (M.move c d).2 cs

/-- The droid after some commands. -/
def explored (M : Maze) (d : Explorer) (cs : List Int) : Explorer :=
  cs.foldl (fun d c => (M.move c d).2) d

theorem statuses_append (d : Explorer) (cs cs' : List Int) :
    M.statuses d (cs ++ cs') = M.statuses d cs ++ M.statuses (M.explored d cs) cs' := by
  induction cs generalizing d with
  | nil => rfl
  | cons c cs ih =>
    rw [List.cons_append, statuses, statuses, ih]
    rfl

theorem explored_concat (d : Explorer) (cs : List Int) (c : Int) :
    M.explored d (cs ++ [c]) = (M.move c (M.explored d cs)).2 := by
  rw [explored, explored, List.foldl_append]
  rfl

/-- A surveyor understands all that a droid in a maze tells. -/
theorem exists_learn (s : Surveyor) (d : Explorer) (h : Heading) :
    ∃ s', s.learn (M.move h.command d).1 = .ok s' := by
  rw [move_command]
  split
  · exact ⟨_, by rw [Surveyor.learn, if_pos rfl]⟩
  · next hwall => exact ⟨_, learn_of_floor s hwall⟩

/-- A program that, run alone on any movement commands, tells what is true in the maze, and waits
    for more. -/
def IsDroid (M : Maze) (program : List Int) : Prop :=
  ∀ cs : List Int, (∀ c ∈ cs, ∃ h : Heading, h.command = c) →
    RunsAlone program cs (M.statuses M.explorer cs) (.stopped .exhausted)

/-! ### The pilot -/

/-- The command that a pilot gives is a movement. -/
theorem exists_heading {s : Surveyor} {v : Int} (h : s.command? = some v) :
    ∃ g : Heading, g.command = v := by
  unfold Surveyor.command? at h
  split at h
  · cases h
  · exact ⟨s.pose.heading, Option.some.inj h⟩

theorem intent_eq_send {p : DroidPilot} {v : Int} (h : Pilot.intent p = .send v) :
    p.stage = .commanding ∧ p.surveyor.command? = some v := by
  obtain ⟨s, stage⟩ := p
  have hintent : DroidPilot.intent ⟨s, stage⟩ = .send v := h
  cases stage with
  | commanding =>
    cases hc : s.command? with
    | none => simp [DroidPilot.intent, hc] at hintent
    | some command => simpa [DroidPilot.intent, hc] using hintent
  | _ => cases hintent

theorem intent_eq_receive {p : DroidPilot} (h : Pilot.intent p = .receive) :
    p.stage = .awaiting := by
  obtain ⟨s, stage⟩ := p
  have hintent : DroidPilot.intent ⟨s, stage⟩ = .receive := h
  cases stage with
  | commanding => cases hc : s.command? <;> simp [DroidPilot.intent, hc] at hintent
  | awaiting => rfl
  | _ => cases hintent

theorem givesUp_droidPilot : Pilot.GivesUp DroidPilot := fun _ _ => rfl

/-- A pilot only gives movement commands. -/
theorem commands_of_flow {cs zs : List Int} {p : DroidPilot}
    (h : Pilot.Flow DroidPilot.start cs zs p) : ∀ c ∈ cs, ∃ g : Heading, g.command = c := by
  induction h with
  | start => exact fun c hc => absurd hc List.not_mem_nil
  | say _ hi ih =>
    intro c hc
    rcases List.mem_append.mp hc with hold | hnew
    · exact ih c hold
    · obtain rfl := List.mem_singleton.mp hnew
      exact exists_heading (intent_eq_send hi).2
  | hear _ _ _ ih => exact ih

/-! ### On course -/

/-- The survey in the maze gets to a surveyor, by some commands that the droid has told about. -/
structure Gets (M : Maze) (cs zs : List Int) (s : Surveyor) : Prop where
  told : zs = M.statuses M.explorer cs
  run_eq : ∀ fuel, Surveyor.run M.move (cs.length + fuel) .start M.explorer =
    Surveyor.run M.move fuel s (M.explored M.explorer cs)

/-- A pilot is where the survey in the maze is, or it waits to hear about its last command. -/
def OnCourse (M : Maze) (cs zs : List Int) (p : DroidPilot) : Prop :=
  (p.stage = .commanding ∧ Gets M cs zs p.surveyor) ∨
    (p.stage = .awaiting ∧ ∃ cs' c, cs = cs' ++ [c] ∧ p.surveyor.command? = some c ∧
      Gets M cs' zs p.surveyor)

theorem gets_start (M : Maze) : Gets M [] [] .start where
  told := rfl
  run_eq fuel := by rw [List.length_nil, Nat.zero_add]; rfl

/-- Once the pilot hears what is true, the survey has made one more move. -/
theorem Gets.learn {cs zs : List Int} {s : Surveyor} (h : Gets M cs zs s) {c : Int}
    (hc : s.command? = some c) {s' : Surveyor}
    (hlearn : s.learn (M.move c (M.explored M.explorer cs)).1 = .ok s') :
    Gets M (cs ++ [c]) (zs ++ [(M.move c (M.explored M.explorer cs)).1]) s' where
  told := by
    rw [statuses_append, h.told]
    rfl
  run_eq fuel := by
    have hlength : (cs ++ [c]).length + fuel = cs.length + (fuel + 1) := by
      rw [List.length_append, List.length_singleton]
      omega
    rw [hlength, h.run_eq, Surveyor.run, hc]
    simp only
    rw [hlearn, explored_concat]

/-- A pilot that hears a first part of what is true stays on course. -/
theorem onCourse_of_flow {cs zs full : List Int} {p : DroidPilot}
    (h : Pilot.Flow DroidPilot.start cs zs p) (hcs : cs <+: full)
    (hzs : zs <+: M.statuses M.explorer full) : OnCourse M cs zs p := by
  -- by induction on the flow; commands and statuses alternate
  induction h with
  | start => exact .inl ⟨rfl, gets_start M⟩
  | @say cs zs p v _ hi ih =>
    obtain ⟨hstage, hcommand⟩ := intent_eq_send hi
    have hbefore := ih ((List.prefix_append _ _).trans hcs) hzs
    obtain ⟨s, stage⟩ := p
    obtain rfl : stage = .commanding := hstage
    rcases hbefore with ⟨-, hgets⟩ | ⟨hawaiting, -⟩
    · exact .inr ⟨rfl, cs, v, rfl, hcommand, hgets⟩
    · cases hawaiting
  | @hear cs zs p v _ hi ih =>
    have hstage := intent_eq_receive hi
    have hbefore := ih hcs ((List.prefix_append _ _).trans hzs)
    obtain ⟨s, stage⟩ := p
    obtain rfl : stage = .awaiting := hstage
    rcases hbefore with ⟨hcommanding, -⟩ | ⟨-, cs, c, rfl, hcommand, hgets⟩
    · cases hcommanding
    · -- what it hears is the status that comes next
      obtain ⟨rest, rfl⟩ := hcs
      have hv : v = (M.move c (M.explored M.explorer cs)).1 := by
        rw [List.append_assoc, statuses_append, ← hgets.told, List.prefix_append_right_inj] at hzs
        exact (List.cons_prefix_cons.mp hzs).1
      obtain ⟨g, rfl⟩ := exists_heading hcommand
      obtain ⟨s', hlearn⟩ := exists_learn (M := M) s (M.explored M.explorer cs) g
      rw [← hv] at hlearn
      have hpilot : Pilot.hear (⟨s, .awaiting⟩ : DroidPilot) (.ok v) = ⟨s', .commanding⟩ := by
        show DroidPilot.hear ⟨s, .awaiting⟩ (.ok v) = _
        simp [DroidPilot.hear, hlearn]
      rw [hpilot]
      rw [hv] at hlearn ⊢
      exact .inl ⟨rfl, hgets.learn hcommand hlearn⟩

/-- A pilot on course that wants to stop has made the survey. -/
theorem OnCourse.survey {cs zs : List Int} {p : DroidPilot} (h : OnCourse M cs zs p)
    (hi : Pilot.intent p = .stop) :
    p.stage = .commanding ∧ ∀ fuel, Surveyor.run M.move (cs.length + (fuel + 1)) .start M.explorer =
      some (.ok p.surveyor, M.explored M.explorer cs) := by
  obtain ⟨s, stage⟩ := p
  have hintent : DroidPilot.intent ⟨s, stage⟩ = .stop := hi
  rcases h with ⟨rfl, hgets⟩ | ⟨rfl, -⟩
  · refine ⟨rfl, fun fuel => ?_⟩
    cases hc : s.command? with
    | some c => simp [DroidPilot.intent, hc] at hintent
    | none =>
      rw [hgets.run_eq, Surveyor.run, hc]
  · cases hintent

/-! ### The droid -/

namespace IsDroid

variable {program : List Int}

/-- On movement commands a droid starves. -/
theorem starves (hdroid : M.IsDroid program) {cs : List Int}
    (hcs : ∀ c ∈ cs, ∃ h : Heading, h.command = c) (name : String) :
    ∃ n q, Flow (Remote.machine name program) n cs (M.statuses M.explorer cs) q ∧
      q.demand = .get := by
  rcases (hdroid cs hcs).cases { name } with ⟨xs, -, hends⟩ | ⟨n, q, hflow, hget, -⟩
  · -- no machine is stopped that is not refused anything
    cases hends with
    | step _ _ hresume _ => cases (resume_stopped hresume).2.2
  · exact ⟨n, q, hflow, hget⟩

theorem patient (hdroid : M.IsDroid program) (name : String) :
    Remote.Patient name program DroidPilot.start := by
  intro cs zs p hflow xs ys o hxs hends
  obtain ⟨n, q, hstarved, hget⟩ := hdroid.starves
    (fun c hc => commands_of_flow hflow c (hxs.subset hc)) name
  exact hends.not_starved List.prefix_rfl hstarved hget

/-- What the droid has given so far is true of what it was commanded. -/
theorem given_le (hdroid : M.IsDroid program) {name : String} {log : List Exchange}
    {s : System (Station ⊕ Remote DroidPilot)} {w : Station} {r : Remote DroidPilot}
    (D : Remote.Dialogue name program DroidPilot.start log s w r)
    (hsaid : ∀ c ∈ Remote.said log, ∃ h : Heading, h.command = c) :
    Remote.given log <+: M.statuses M.explorer (Remote.said log) := by
  obtain ⟨n, xs, m, hflow, hxs⟩ := D.account.flow
  rw [← D.given_eq] at hflow
  rw [← D.caught_eq] at hxs
  obtain ⟨-, hmost⟩ := (hdroid _ hsaid).yields { name }
  exact hmost n xs _ m hflow (hxs.trans D.caught_le)

/-- At the end of any interleaving the pilot has made the survey, and the droid has halted. -/
theorem end_of_dialogue (hdroid : M.IsDroid program) {name : String} {log : List Exchange}
    {s : System (Station ⊕ Remote DroidPilot)} {w : Station} {r : Remote DroidPilot}
    (D : Remote.Dialogue name program DroidPilot.start log s w r) (hf : s.finished = true) :
    r.pilot.stage = .commanding ∧ w.fault = none ∧ w.machine.phase = .halted ∧
      ∃ n d, ∀ fuel, Surveyor.run M.move (n + (fuel + 1)) .start M.explorer =
        some (.ok r.pilot.surveyor, d) := by
  -- the pilot was never refused, and all that it heard is true
  have hflow := Remote.going_of_patient givesUp_droidPilot (hdroid.patient name) D.records D
  have hsaid := commands_of_flow hflow
  have hcourse : OnCourse M (Remote.said log) (Remote.taken log) r.pilot :=
    onCourse_of_flow hflow List.prefix_rfl (D.taken_le.trans (hdroid.given_le D hsaid))
  obtain ⟨hstopped, hi⟩ := D.stopped_of_finished hf givesUp_droidPilot
  obtain ⟨hstage, hsurvey⟩ := hcourse.survey hi
  have hfault : w.fault = none := D.fault_eq_none
    (fun o => hdroid.patient name _ _ _ hflow _ _ o D.caught_le) hstopped
  have hconsistent := Station.consistent_story D.station (D.records.plain 0)
  exact ⟨hstage, hfault, (hconsistent.halted_iff hstopped).mpr hfault, _, _, hsurvey⟩

end IsDroid

/-- A program is a droid if it comes back to a state of the same kind after each command, having told
    what is true of it. -/
theorem isDroid_of_laps {program : List Int} {R : Explorer → Machine → Prop}
    (hstart : R M.explorer (load { haltOnExhaustedInput := true } program))
    (hlap : ∀ d m, R d m → ∀ (h : Heading) (rest : List Int) (outputs : Array Int),
      ∃ n m', (∀ fuel, m.run Buffer.port (fuel + n) ⟨h.command :: rest, outputs⟩ =
          m'.run Buffer.port fuel ⟨rest, outputs.push (M.move h.command d).1⟩) ∧
        R (M.move h.command d).2 m')
    (hwait : ∀ d m, R d m → m.demand = .get ∧ m.config.haltOnExhaustedInput = true) :
    M.IsDroid program := by
  -- by induction on the commands that are left, from any state that the droid comes back to
  have hruns : ∀ cs : List Int, (∀ c ∈ cs, ∃ h : Heading, h.command = c) → ∀ d m, R d m →
      ∀ outputs : Array Int, ∃ fuel m' b, m.run Buffer.port fuel ⟨cs, outputs⟩ =
        some (.stopped .exhausted, m', b) ∧ b.outputs.toList = outputs.toList ++ M.statuses d cs := by
    intro cs
    induction cs with
    | nil =>
      intro _ d m hm outputs
      obtain ⟨hget, hpolicy⟩ := hwait d m hm
      refine ⟨1, { m.counted with phase := .halted }, ⟨[], outputs⟩, ?_,
        (List.append_nil _).symm⟩
      have hanswer : Buffer.port.answer .get ⟨[], outputs⟩ = (.error .exhausted, ⟨[], outputs⟩) :=
        rfl
      rw [Machine.run, step_eq, hget, hanswer, resume_exhausted hget, if_pos hpolicy]
      rfl
    | cons c cs ih =>
      intro hcs d m hm outputs
      obtain ⟨h, rfl⟩ := hcs c List.mem_cons_self
      obtain ⟨n, m', hgoes, hm'⟩ := hlap d m hm h cs outputs
      obtain ⟨fuel, m'', b, hrun, houtputs⟩ :=
        ih (fun c hc => hcs c (List.mem_cons_of_mem _ hc)) _ m' hm' (outputs.push _)
      refine ⟨fuel + n, m'', b, ?_, ?_⟩
      · rw [hgoes, hrun]
      · rw [houtputs, statuses, Array.toList_push, List.append_assoc, List.singleton_append]
  intro cs hcs
  obtain ⟨fuel, m, b, hrun, houtputs⟩ := hruns cs hcs M.explorer _ hstart #[]
  exact ⟨fuel, m, b, hrun, houtputs⟩

end Maze

namespace RepairDroid

/-- A droid that tells what is true of a maze is explored, in every interleaving that comes to its
    end, as the maze is surveyed: the area is the same and nothing is raised, and the droid has
    halted and all endpoints are closed. -/
theorem explored_as_surveyed (M : Maze) (hfinite : M.region.Finite) (program : List Int)
    (hdroid : M.IsDroid program) :
    ∃ survey d, (∀ fuel, 4 * M.region.ncard < fuel →
        Surveyor.run M.move fuel .start M.explorer = some (.ok survey, d)) ∧
      (∀ fuel result, (explore fuel program).run = some result → result = .ok survey.area) ∧
      ∀ s, Reaches (Remote.system "repair-droid" program DroidPilot.start) s →
        s.finished = true → ∃ droid pilot, Remote.outcome? s = some (droid, pilot) ∧
          verdict droid pilot = .ok survey.area ∧ droid.machine.isHalted = true ∧
          (∀ t < 2, (s.board.sender t).isOpen = false) ∧
          ∀ c < 2, (s.board.channel c).receiverOpen = false := by
  have := hfinite.to_subtype
  obtain ⟨survey, d, -, -, hrun⟩ := M.exists_survey
  have hend : ∀ s, Reaches (Remote.system "repair-droid" program DroidPilot.start) s →
      s.finished = true → ∃ droid pilot, Remote.outcome? s = some (droid, pilot) ∧
        verdict droid pilot = .ok survey.area ∧ droid.machine.isHalted = true ∧
        (∀ t < 2, (s.board.sender t).isOpen = false) ∧
        ∀ c < 2, (s.board.channel c).receiverOpen = false := by
    intro s hs hf
    obtain ⟨log, hlog⟩ := exists_records_of_reaches hs
    obtain ⟨w, r, D⟩ := Remote.exists_dialogue hlog
    obtain ⟨hstage, hfault, hhalted, n, d', hsurvey⟩ := hdroid.end_of_dialogue D hf
    -- with enough fuel, the survey of the maze is the pilot's
    have hsame : some (Except.ok r.pilot.surveyor, d') = some (.ok survey, d) :=
      (hsurvey M.lap).symm.trans (hrun _ (by omega))
    obtain ⟨hsurveyor, -⟩ := Prod.mk.inj (Option.some.inj hsame)
    obtain ⟨hsenders, hreceivers⟩ := D.all_closed hf
    refine ⟨w, r.pilot, D.outcome, ?_, ?_, fun t _ => hsenders t, hreceivers⟩
    · simp [verdict, hstage, hfault, Except.ok.inj hsurveyor]
    · simp [isHalted, hhalted]
  refine ⟨survey, d, fun fuel hfuel => hrun fuel (Nat.lt_of_le_of_lt M.lap_le hfuel), ?_, hend⟩
  intro fuel result hresult
  obtain ⟨⟨w, p⟩, htalk, rfl⟩ := Option.map_eq_some_iff.mp hresult
  obtain ⟨s, hreaches, hf, houtcome⟩ := Remote.reaches_of_talk htalk
  obtain ⟨w', p', houtcome', hverdict, -⟩ := hend s hreaches hf
  obtain ⟨rfl, rfl⟩ := Prod.mk.inj (Option.some.inj (houtcome.symm.trans houtcome'))
  exact hverdict

/-! ### A corridor -/

open Machine

/-- Two cells, one south of the other; the start is the northern one. -/
def corridor : Maze := .ofCells [(⟨0, 0⟩, .open), (⟨0, 1⟩, .open)] ⟨0, 0⟩ (by decide)

/-- A droid in the corridor. It has a loop for each cell: south is the only way from the first, and
    north from the second. -/
def corridorProgram : List Int :=
  [3, 25, 1008, 25, 2, 26, 4, 26, 1006, 26, 0,
    3, 25, 1008, 25, 1, 26, 4, 26, 1006, 26, 11, 1106, 0, 0, 0, 0]

/-- The droid at an address of its program, with its last command and whether it moved. -/
def corridorAt (ip : Nat) (command moved : Int) (steps : Nat) (phase : Phase) : Machine where
  config := { haltOnExhaustedInput := true }
  tape := .ofCells #[3, 25, 1008, 25, 2, 26, 4, 26, 1006, 26, 0,
    3, 25, 1008, 25, 1, 26, 4, 26, 1006, 26, 11, 1106, 0, 0, command, moved]
  ip
  base := 0
  steps
  phase

/-- Once through a loop. The droid leaves it if it has moved. -/
theorem corridorAt_loop {start : Nat} {way : Int}
    (hloop : (start = 0 ∧ way = 2) ∨ (start = 11 ∧ way = 1)) {phase : Phase}
    (hphase : phase ≠ .halted) (c e : Int) (n : Nat) (h : Heading) (rest : List Int)
    (outputs : Array Int) (fuel : Nat) :
    (corridorAt start c e n phase).run Buffer.port (fuel + 4) ⟨h.command :: rest, outputs⟩ =
      (corridorAt (if h.command = way then start + 11 else start) h.command
        (if h.command = way then 1 else 0) (n + 4) .running).run Buffer.port fuel
          ⟨rest, outputs.push (if h.command = way then 1 else 0)⟩ := by
  have hread : (corridorAt start c e n phase).step Buffer.port ⟨h.command :: rest, outputs⟩ =
      (.continued, corridorAt (start + 2) h.command e (n + 1) .running, ⟨rest, outputs⟩) := by
    rcases hloop with ⟨rfl, rfl⟩ | ⟨rfl, rfl⟩
    · cases phase with
      | halted => exact absurd rfl hphase
      | _ => cases h <;> rfl
    · cases phase with
      | halted => exact absurd rfl hphase
      | _ => cases h <;> rfl
  have hcompare : (corridorAt (start + 2) h.command e (n + 1) .running).step Buffer.port
      ⟨rest, outputs⟩ = (.continued, corridorAt (start + 6) h.command
        (if h.command = way then 1 else 0) (n + 2) .running, ⟨rest, outputs⟩) := by
    rcases hloop with ⟨rfl, rfl⟩ | ⟨rfl, rfl⟩ <;> cases h <;> rfl
  have htell : ∀ e, (corridorAt (start + 6) h.command e (n + 2) .running).step Buffer.port
      ⟨rest, outputs⟩ =
        (.continued, corridorAt (start + 8) h.command e (n + 3) .running,
          ⟨rest, outputs.push e⟩) := by
    intro e
    rcases hloop with ⟨rfl, rfl⟩ | ⟨rfl, rfl⟩ <;> rfl
  have htest : ∀ b, (corridorAt (start + 8) h.command (if h.command = way then 1 else 0) (n + 3)
      .running).step Buffer.port b =
        (.continued, corridorAt (if h.command = way then start + 11 else start) h.command
          (if h.command = way then 1 else 0) (n + 4) .running, b) := by
    intro b
    rcases hloop with ⟨rfl, rfl⟩ | ⟨rfl, rfl⟩ <;> cases h <;> rfl
  simp only [Machine.run, hread, hcompare, htell, htest]

/-- The loop that the droid is in is that of its cell. -/
inductive InCorridor : Explorer → Machine → Prop
  | north (commands : List Int) (c e : Int) (n : Nat) {phase : Phase} : phase ≠ .halted →
      InCorridor ⟨⟨0, 0⟩, commands⟩ (corridorAt 0 c e n phase)
  | south (commands : List Int) (c e : Int) (n : Nat) {phase : Phase} : phase ≠ .halted →
      InCorridor ⟨⟨0, 1⟩, commands⟩ (corridorAt 11 c e n phase)

theorem isDroid_corridor : corridor.IsDroid corridorProgram := by
  -- each of the two loops is read off for each of the four commands
  refine Maze.isDroid_of_laps (R := InCorridor) (.north _ 0 0 0 Phase.noConfusion) ?_ ?_
  · intro d m hm h rest outputs
    cases hm with
    | north commands c e n hphase =>
      have hloop := corridorAt_loop (.inl ⟨rfl, rfl⟩) hphase c e n h rest outputs
      cases h with
      | south => exact ⟨4, _, hloop, .south _ _ _ _ Phase.noConfusion⟩
      | _ => exact ⟨4, _, hloop, .north _ _ _ _ Phase.noConfusion⟩
    | south commands c e n hphase =>
      have hloop := corridorAt_loop (.inr ⟨rfl, rfl⟩) hphase c e n h rest outputs
      cases h with
      | north =>
        -- it leaves the last loop, so it goes back to the first
        exact ⟨5, _, fun fuel => hloop (fuel + 1), .north _ _ _ _ Phase.noConfusion⟩
      | _ => exact ⟨4, _, hloop, .south _ _ _ _ Phase.noConfusion⟩
  · intro d m hm
    cases hm with
    | @north commands c e n phase hphase =>
      cases phase with
      | halted => exact absurd rfl hphase
      | _ => exact ⟨rfl, rfl⟩
    | @south commands c e n phase hphase =>
      cases phase with
      | halted => exact absurd rfl hphase
      | _ => exact ⟨rfl, rfl⟩

/-- The corridor is explored. With turns round by round this takes 37 rounds. -/
theorem corridor_explored :
    corridor.region.Finite ∧ corridor.IsDroid corridorProgram ∧
      ∃ survey d, Surveyor.run corridor.move 9 .start corridor.explorer = some (.ok survey, d) ∧
        (explore 38 corridorProgram).run = some (.ok survey.area) := by
  have hfinite : corridor.region.Finite := Maze.finite_region_ofCells
  have hcard : corridor.region.ncard ≤ 2 := Maze.ncard_region_ofCells
  obtain ⟨survey, d, hsurvey, hexplore, -⟩ :=
    explored_as_surveyed corridor hfinite corridorProgram isDroid_corridor
  have hends : (explore 38 corridorProgram).run.isSome = true := by decide +kernel
  obtain ⟨result, hresult⟩ := Option.isSome_iff_exists.mp hends
  refine ⟨hfinite, isDroid_corridor, survey, d, hsurvey 9 (by omega), ?_⟩
  rw [hresult, hexplore 38 result hresult]

end RepairDroid

end TapeNet
