import TapeNet.HullRobot
import TapeNet.Proofs.Net.Dialogue

/-! # Painting over channels

    What a robot has painted when the painting ends, in any interleaving with
    its brain.

    - `obeyAll orders`: a robot after some orders, each a colour and a turn.
    - `Obedient start cs zs r`: a robot that reported the colours `cs` and
      heard `zs` has obeyed all orders in `zs`. What it is doing tells how
      many values it heard for its reports.
    - The robot reports before it receives. If it is a receive that fails, the
      robot has obeyed all that its brain ordered; if it is a report, the
      brain may have ordered more before it halted (`taken_cases`).
-/

namespace TapeNet

open TapeNet.System History

namespace HullRobot

/-! ### Orders -/

/-- A robot after some orders, each a colour and a turn. A last one without its turn is ignored. -/
def obeyAll : HullRobot → List Int → HullRobot
  | r, colour :: turn :: orders => (r.obey colour turn).obeyAll orders
  | r, _ => r

theorem obeyAll_append (r : HullRobot) {zs : List Int} (hzs : zs.length % 2 = 0)
    (orders : List Int) : r.obeyAll (zs ++ orders) = (r.obeyAll zs).obeyAll orders := by
  induction r, zs using obeyAll.induct with
  | case1 r colour turn zs ih =>
    rw [List.cons_append, List.cons_append, obeyAll, obeyAll]
    exact ih (by simp only [List.length_cons] at hzs; omega)
  | case2 zs r hshort =>
    match zs, hshort, hzs with
    | [], _, _ => rfl
    | [_], _, hodd => cases hodd
    | colour :: turn :: zs, hshort, _ => exact absurd rfl (hshort colour turn zs)

/-- A colour changes nothing until its turn is there. -/
theorem obeyAll_concat (r : HullRobot) {zs : List Int} (hzs : zs.length % 2 = 0) (colour : Int) :
    r.obeyAll (zs ++ [colour]) = r.obeyAll zs := by
  rw [obeyAll_append r hzs]
  rfl

theorem obeyAll_order (r : HullRobot) {zs : List Int} (hzs : zs.length % 2 = 0)
    (colour turn : Int) : r.obeyAll (zs ++ [colour, turn]) = (r.obeyAll zs).obey colour turn := by
  rw [obeyAll_append r hzs]
  rfl

/-- What a robot makes of an order does not depend on what it is doing. -/
theorem obey_withStage (r : HullRobot) (stage : Stage) (colour turn : Int) :
    { r with stage }.obey colour turn = r.obey colour turn := rfl

/-- An order is carried out or refused. -/
theorem stage_obey (r : HullRobot) (colour turn : Int) :
    (r.obey colour turn).stage = .reporting ∨
      ∃ order, (r.obey colour turn).stage = .refusing order := by
  unfold obey
  split
  · exact .inr ⟨_, rfl⟩
  · split
    · exact .inl rfl
    · split
      · exact .inl rfl
      · exact .inr ⟨_, rfl⟩

/-! ### The pilot -/

theorem intent_eq_send {r : HullRobot} {v : Int} (h : Pilot.intent r = .send v) :
    r.stage = .reporting := by
  obtain ⟨panels, position, heading, stage⟩ := r
  cases stage with
  | reporting => rfl
  | _ => cases h

theorem intent_eq_receive {r : HullRobot} (h : Pilot.intent r = .receive) :
    r.stage = .awaitingColour ∨ ∃ colour, r.stage = .awaitingTurn colour := by
  obtain ⟨panels, position, heading, stage⟩ := r
  cases stage with
  | awaitingColour => exact .inl rfl
  | awaitingTurn colour => exact .inr ⟨colour, rfl⟩
  | _ => cases h

theorem intent_eq_stop {r : HullRobot} (h : Pilot.intent r = .stop) :
    r.stage = .stopped ∨ ∃ order, r.stage = .refusing order := by
  obtain ⟨panels, position, heading, stage⟩ := r
  cases stage with
  | stopped => exact .inl rfl
  | refusing order => exact .inr ⟨order, rfl⟩
  | _ => cases h

theorem hear_reporting {r : HullRobot} (h : r.stage = .reporting) (v : Int) :
    Pilot.hear r (.ok v) = { r with stage := .awaitingColour } := by
  show r.hear (.ok v) = _
  rw [HullRobot.hear, h]

theorem hear_colour {r : HullRobot} (h : r.stage = .awaitingColour) (v : Int) :
    Pilot.hear r (.ok v) = { r with stage := .awaitingTurn v } := by
  show r.hear (.ok v) = _
  rw [HullRobot.hear, h]

theorem hear_turn {r : HullRobot} {colour : Int} (h : r.stage = .awaitingTurn colour) (v : Int) :
    Pilot.hear r (.ok v) = r.obey colour v := by
  show r.hear (.ok v) = _
  rw [HullRobot.hear, h]

theorem givesUp_hullRobot : Pilot.GivesUp HullRobot := fun _ _ => rfl

/-- What a robot that was not refused is doing, by what it reported and heard. -/
def Stage.Fits (cs zs : List Int) : Stage → Prop
  | .reporting => zs.length = 2 * cs.length
  | .awaitingColour => zs.length + 2 = 2 * cs.length
  | .awaitingTurn colour => zs.length + 1 = 2 * cs.length ∧ zs.getLast? = some colour
  | .stopped => False
  | .refusing _ => zs.length = 2 * cs.length

/-- A robot has obeyed all orders that it heard, and is doing what comes next. -/
structure Obedient (start : HullRobot) (cs zs : List Int) (r : HullRobot) : Prop where
  eq_obeyAll : r = { start.obeyAll zs with stage := r.stage }
  fits : r.stage.Fits cs zs

theorem Obedient.panels {start : HullRobot} {cs zs : List Int} {r : HullRobot}
    (h : Obedient start cs zs r) : r.panels = (start.obeyAll zs).panels := by
  rw [h.eq_obeyAll]

/-- The value that completes an order makes the robot obey it. -/
theorem Obedient.turn {start : HullRobot} {cs zs : List Int} {r : HullRobot}
    (h : Obedient start cs zs r) {colour : Int} (hstage : r.stage = .awaitingTurn colour)
    (turn : Int) : Obedient start cs (zs ++ [turn]) (r.obey colour turn) := by
  have hfits := h.fits
  rw [hstage] at hfits
  obtain ⟨hlength, hlast⟩ := hfits
  obtain ⟨zs, rfl⟩ := List.getLast?_eq_some_iff.mp hlast
  rw [List.length_append, List.length_singleton] at hlength
  have heven : zs.length % 2 = 0 := by omega
  have hobey : r.obey colour turn = start.obeyAll (zs ++ [colour] ++ [turn]) := by
    rw [List.append_assoc, List.singleton_append, obeyAll_order start heven, h.eq_obeyAll,
      obeyAll_concat start heven, obey_withStage]
  refine ⟨by rw [hobey], ?_⟩
  have hlength' : (zs ++ [colour] ++ [turn]).length = 2 * cs.length := by
    simp only [List.length_append, List.length_singleton]
    omega
  rcases stage_obey r colour turn with hreporting | ⟨order, hrefusing⟩
  · rw [hreporting]
    exact hlength'
  · rw [hrefusing]
    exact hlength'

/-- A robot that was never refused is obedient. -/
theorem obedient_of_flow {start r : HullRobot} {cs zs : List Int} (hstart : start.stage = .reporting)
    (h : Pilot.Flow start cs zs r) : Obedient start cs zs r := by
  -- by induction on the flow: a report asks for two more values, and each value is one of them
  induction h with
  | start => exact ⟨rfl, by rw [hstart]; rfl⟩
  | @say cs zs r v _ hi ih =>
    have hstage := intent_eq_send hi
    have hfits := ih.fits
    rw [hstage] at hfits
    rw [hear_reporting hstage]
    refine ⟨by rw [ih.eq_obeyAll], ?_⟩
    show zs.length + 2 = 2 * (cs ++ [v]).length
    rw [List.length_append, List.length_singleton]
    exact congrArg (· + 2) hfits
  | @hear cs zs r v _ hi ih =>
    rcases intent_eq_receive hi with hstage | ⟨colour, hstage⟩
    · -- a colour, which waits for its turn
      have hfits : zs.length + 2 = 2 * cs.length := by
        have hfits := ih.fits
        rwa [hstage] at hfits
      rw [hear_colour hstage]
      refine ⟨by rw [obeyAll_concat start (by omega), ih.eq_obeyAll], ?_, by simp⟩
      rw [List.length_append, List.length_singleton]
      omega
    · -- a turn, which completes the order
      rw [hear_turn hstage]
      exact ih.turn hstage v

/-- The panels are those of the orders that the robot heard, also after it was refused. -/
theorem panels_of_account {start r : HullRobot} {t c : Nat} {h : History}
    (hstart : start.stage = .reporting) (ha : Remote.Account start t c h r) :
    r.panels = (start.obeyAll (received c h)).panels := by
  cases ha with
  | going hflow => exact (obedient_of_flow hstart hflow).panels
  | refused _ hflow _ _ => exact (obedient_of_flow hstart hflow).panels
  | ended _ hflow _ _ => exact (obedient_of_flow hstart hflow).panels

/-- A robot stops at the end of what it can hear, or at a report that is refused, when all its
    reports before were answered. -/
theorem stop_cases {start r : HullRobot} {t c : Nat} {h : History}
    (hstart : start.stage = .reporting) (ha : Remote.Account start t c h r)
    (hstopped : r.stage = .stopped) :
    Ended c h ∨ (received c h).length = 2 * (sent (· == t) h).length := by
  cases ha with
  | going hflow =>
    -- no robot stops that was not refused
    have hfits := (obedient_of_flow hstart hflow).fits
    rw [hstopped] at hfits
    cases hfits
  | refused _ hflow hi _ =>
    have hfits := (obedient_of_flow hstart hflow).fits
    rw [intent_eq_send hi] at hfits
    exact .inr hfits
  | ended _ _ _ he => exact .inl he

/-! ### The end of the painting -/

theorem verdict_eq_ok {brain : Station} {r : HullRobot} {panels : Sparse Int}
    (h : verdict brain r = .ok panels) :
    panels = r.panels ∧ ∀ order, r.stage ≠ .refusing order := by
  unfold verdict at h
  split at h
  · cases h
  · cases h
  · next hrefusing => exact ⟨(Except.ok.inj h).symm, hrefusing⟩

/-- An interleaving of a robot with its brain in which the painting ends well: its log, and the panels
    that are painted. -/
def Painting (program : List Int) (start : Int) (log : List Exchange) (panels : Sparse Int) : Prop :=
  ∃ s brain r, Records (Remote.system "hull-robot" program (onPanel start)) log s ∧
    s.finished = true ∧ Remote.outcome? s = some (brain, r) ∧ verdict brain r = .ok panels

theorem exists_painting {fuel : Nat} {program : List Int} {start : Int} {panels : Sparse Int}
    {r : HullRobot} (h : paint fuel program start = some (.ok panels, r)) :
    ∃ log, Painting program start log panels := by
  obtain ⟨⟨brain, r'⟩, htalk, hresult⟩ := Option.bind_eq_some_iff.mp h
  obtain ⟨hok, rfl⟩ := Prod.mk.inj (Option.some.inj hresult)
  obtain ⟨s, hreaches, hf, houtcome⟩ := Remote.reaches_of_talk htalk
  obtain ⟨log, hlog⟩ := exists_records_of_reaches hreaches
  exact ⟨log, s, brain, r', hlog, hf, houtcome, hok⟩

/-- The robot takes all that its brain gave, or it stops at a report, when it has one order for each
    report that it made. -/
theorem taken_cases {program : List Int} {start : Int} {log : List Exchange} {panels : Sparse Int}
    (h : Painting program start log panels) :
    panels = ((onPanel start).obeyAll (Remote.taken log)).panels ∧
      (Remote.taken log = Remote.given log ∨
        (Remote.taken log).length = 2 * (Remote.said log).length) := by
  obtain ⟨s, brain, r, hlog, hf, houtcome, hok⟩ := h
  obtain ⟨w, remote, D⟩ := Remote.exists_dialogue hlog
  obtain ⟨rfl, rfl⟩ := Prod.mk.inj (Option.some.inj (D.outcome.symm.trans houtcome))
  obtain ⟨hpanels, hrefusing⟩ := verdict_eq_ok hok
  obtain ⟨ha, -⟩ := Remote.remote_story givesUp_hullRobot D.remote (D.records.plain 1)
  -- a robot that refused an order does not end well
  have hstopped : remote.pilot.stage = .stopped := by
    rcases intent_eq_stop (D.stopped_of_finished hf givesUp_hullRobot).2 with hs | ⟨order, hs⟩
    · exact hs
    · exact absurd hs (hrefusing order)
  rw [hpanels, panels_of_account rfl ha, D.taken_eq]
  refine ⟨rfl, ?_⟩
  rcases stop_cases rfl ha hstopped with hended | hreported
  · rw [← D.taken_eq]
    exact .inl (D.taken_of_ended hended)
  · rw [D.said_eq]
    exact .inr hreported

/-- A painting is one of the interleavings. When it ends well, the panels come of the orders that the
    robot took, which are the first that the brain gave. They are all, unless the robot stopped at a
    report: then they are one for each report that it made. So the robot obeys all orders of a brain
    that gives at most one for each report that it takes. -/
theorem orders_taken (program : List Int) (start : Int) :
    (∀ fuel panels r, paint fuel program start = some (.ok panels, r) →
      ∃ log, Painting program start log panels) ∧
    ∀ log panels, Painting program start log panels →
      panels = ((onPanel start).obeyAll (Remote.taken log)).panels ∧
        Remote.taken log <+: Remote.given log ∧
        (Remote.taken log = Remote.given log ∨
          (Remote.taken log).length = 2 * (Remote.said log).length) ∧
        ((Remote.given log).length ≤ 2 * (Remote.caught log).length →
          panels = ((onPanel start).obeyAll (Remote.given log)).panels) := by
  refine ⟨fun fuel panels r h => exists_painting h, fun log panels h => ?_⟩
  obtain ⟨hpanels, hcases⟩ := taken_cases h
  obtain ⟨s, brain, r, hlog, -⟩ := h
  obtain ⟨w, remote, D⟩ := Remote.exists_dialogue hlog
  refine ⟨hpanels, D.taken_le, hcases, fun hfew => ?_⟩
  have hall : Remote.taken log = Remote.given log := by
    rcases hcases with hall | hreported
    · exact hall
    · -- the brain took no more reports than the robot made
      have hcaught := D.caught_le.length_le
      exact D.taken_le.eq_of_length_le (by omega)
  rw [hpanels, hall]

/-- A brain that gives an order for each of two reports. -/
def twoOrders : List Int := [3, 100, 104, 1, 104, 0, 3, 100, 104, 0, 104, 1, 99]

/-- The brain waits for each report, and the robot for each order. -/
def twoOrdersSchedule : List Nat := [1, 0, 0, 0, 1, 1, 1, 0, 0, 0, 1, 1, 1, 0, 0, 0, 1, 1, 1]

theorem exists_ok_of_isOk {ε α : Type} {x : Except ε α} (h : x.isOk = true) : ∃ a, x = .ok a := by
  cases x with
  | ok a => exact ⟨a, rfl⟩
  | error e => cases h

/-- Both orders are obeyed. -/
theorem two_orders_taken :
    (∃ panels r, paint 20 twoOrders black = some (.ok panels, r) ∧
      ∃ log, Painting twoOrders black log panels) ∧
    ∃ log panels, Painting twoOrders black log panels ∧ Remote.given log = [1, 0, 0, 1] ∧
      panels = ((onPanel black).obeyAll [1, 0, 0, 1]).panels := by
  obtain ⟨hpaint, horders⟩ := orders_taken twoOrders black
  constructor
  · have hok : ((paint 20 twoOrders black).map fun e => e.1.isOk) = some true := by decide +kernel
    obtain ⟨⟨result, r⟩, hresult, hok⟩ := Option.map_eq_some_iff.mp hok
    obtain ⟨panels, rfl⟩ := exists_ok_of_isOk hok
    exact ⟨panels, r, hresult, hpaint 20 panels r hresult⟩
  · have h := records_transcript (Remote.system "hull-robot" twoOrders (onPanel black))
      twoOrdersSchedule
    have hf : ((Remote.system "hull-robot" twoOrders (onPanel black)).follow
        twoOrdersSchedule).finished = true := by decide +kernel
    have hok : ((Remote.outcome? ((Remote.system "hull-robot" twoOrders (onPanel black)).follow
        twoOrdersSchedule)).map fun e => (verdict e.1 e.2).isOk) = some true := by decide +kernel
    have hgiven : Remote.given ((Remote.system "hull-robot" twoOrders (onPanel black)).transcript
        twoOrdersSchedule) = [1, 0, 0, 1] := by decide +kernel
    have hcaught : Remote.caught ((Remote.system "hull-robot" twoOrders (onPanel black)).transcript
        twoOrdersSchedule) = [0, 0] := by decide +kernel
    obtain ⟨⟨brain, r⟩, houtcome, hok⟩ := Option.map_eq_some_iff.mp hok
    obtain ⟨panels, hverdict⟩ := exists_ok_of_isOk hok
    have hpainting : Painting twoOrders black _ panels := ⟨_, brain, r, h, hf, houtcome, hverdict⟩
    obtain ⟨-, -, -, hall⟩ := horders _ panels hpainting
    refine ⟨_, panels, hpainting, hgiven, ?_⟩
    rw [hall (by rw [hgiven, hcaught]; decide), hgiven]

/-! ### Orders that are lost -/

/-- Whenever the painting ends well, all that the brain ordered is painted. -/
def PaintsAll (program : List Int) (start : Int) : Prop :=
  ∀ log panels, Painting program start log panels →
    panels = ((onPanel start).obeyAll (Remote.given log)).panels

/-- A brain that gives an order and halts before the first report is sent: nothing is painted. -/
theorem not_paintsAll : ¬PaintsAll [104, 1, 104, 0, 99] black := by
  intro hall
  have h := records_transcript (Remote.system "hull-robot" [104, 1, 104, 0, 99] (onPanel black))
    [0, 0, 0, 0, 0, 1, 1, 1]
  have hpanels := hall _ _ ⟨_, _, _, h, by decide +kernel, rfl, rfl⟩
  -- there is a panel to paint, and none was painted
  have hsize := congrArg Std.TreeMap.size hpanels
  revert hsize
  decide +kernel

end HullRobot

end TapeNet
