import TapeNet.Proofs.Net.Line
import TapeNet.Proofs.Net.Shutdown
import TapeNet.Proofs.Net.Standalone

/-! # A line is the composition of its stages

    What comes out of a line of machines is what comes out of the last one if
    they are run one after the other, each alone on its preload and the
    outputs of the one before.

    - `supply_stage`: a stage is supplied by the one before it only.
    - In a line that has finished, every stage is faithful to what it gives
      alone; this is handed on from stage to stage (`Wiring.faithful_stage`).
    - The last stage feeds the sink, so it is not cut off.
-/

namespace TapeNet

namespace Network

open History Process Machine TapeNet.System

/-- What the stage before gives; there is none before the first one. -/
def upstream (out : Nat → List Int) : Nat → List Int
  | 0 => []
  | i + 1 => out i

variable {net : Network} {pairs : List (List Int × List Int)} {i j : Nat}
  {s : System (Station ⊕ Relay)} {log : List Exchange} {out : Nat → List Int}
  {ending : Nat → Outcome} {p : List Int × List Int}

/-! ### The stages of a line -/

/-- Only the stage before it feeds a stage. -/
theorem feeder_of_stage (hsites : net.sites = lineSites (lineExits false pairs.length) pairs)
    (hfeeds : net.Feeds i j) : i + 1 = j := by
  rcases ((feeds_iff_of_lineSites hsites).mp hfeeds).2.2 with hnext | ⟨hloop, -⟩
  · exact hnext
  · cases hloop

/-- A stage is supplied with its preload and with what the stage before it gives. -/
theorem supply_stage (hsites : net.sites = lineSites (lineExits false pairs.length) pairs)
    (hp : pairs[i]? = some p) (out : Nat → List Int) :
    net.supply out (i - 1) i = p.2 ++ upstream out i := by
  obtain ⟨m, -, hm, -, -, hpreload, hinbox, -⟩ := exists_stage hsites hp
  obtain ⟨hi, -⟩ := List.getElem?_eq_some_iff.mp hp
  cases i with
  | zero =>
    have hfirst : ¬net.Feeds (0 - 1) 0 := fun hfeeds => by
      have := feeder_of_stage hsites hfeeds
      omega
    rw [supply_of_no_source hm hfirst, hpreload]
    exact (List.append_nil _).symm
  | succ i =>
    have hlt : i < pairs.length := by omega
    obtain ⟨-, x, -, hx, -, -, -, hexits⟩ :=
      exists_stage hsites (List.getElem?_eq_getElem hlt)
    have hcount : x.exits.count m.inbox = 1 := by
      rw [hexits, hinbox]
      exact count_lineExits_next hlt
    rw [Nat.add_sub_cancel, supply_of_exit hm hx hcount, hpreload]
    rfl

/-- In a line that has finished, every stage is faithful to what it gives alone. -/
theorem Wiring.faithful_stage (W : Wiring net) (h : Records net.system log s)
    (hf : s.finished = true)
    (hsites : net.sites = lineSites (lineExits false pairs.length) pairs)
    (hstages : ∀ i p, pairs[i]? = some p → RunsAlone p.1 (p.2 ++ upstream out i) (out i) (ending i))
    (hp : pairs[i]? = some p) : net.Faithful log i (out i) := by
  -- by induction along the line: each stage hands it on to the next one
  induction i generalizing p with
  | zero =>
    obtain ⟨m, -, hm, -, hload, -⟩ := exists_stage hsites hp
    have hnone : ∀ k, ¬net.Feeds k 0 := fun k hfeeds => by
      have := feeder_of_stage hsites hfeeds
      omega
    have hyields := (hstages 0 p hp).yields { name := lineName 0 }
    rw [← supply_stage hsites hp, ← hload] at hyields
    exact W.faithful h hf hm (fun k hk => absurd hk (hnone k)) (fun hk => absurd hk (hnone _))
      hyields
  | succ i ih =>
    obtain ⟨m, -, hm, -, hload, -⟩ := exists_stage hsites hp
    have hlt := (List.getElem?_eq_some_iff.mp hp).1
    have hsource := ih (List.getElem?_eq_getElem (Nat.lt_of_succ_lt hlt))
    have hyields := (hstages (i + 1) p hp).yields { name := lineName (i + 1) }
    rw [← supply_stage hsites hp, ← hload] at hyields
    refine W.faithful h hf hm (fun k hk => ?_) (fun _ => hsource) hyields
    have := feeder_of_stage hsites hk
    omega

/-! ### What comes out -/

/-- In a line that has finished, the sink holds what the last stage gives alone, and the run reports
    a fault if that one fails alone. -/
theorem Wiring.last_stage (W : Wiring net) (h : Records net.system log s) (hf : s.finished = true)
    (hsites : net.sites = lineSites (lineExits false pairs.length) pairs)
    (hstages : ∀ i p, pairs[i]? = some p → RunsAlone p.1 (p.2 ++ upstream out i) (out i) (ending i))
    {x : Sink} (hx : x ∈ net.sinks) (hchannel : x.channel = 2 * pairs.length)
    (hi : i + 1 = pairs.length) :
    (s.board.channel x.channel).queue = out i ∧
      ∀ f, ending i = .failed f → ∃ f', verdict s = .error (.fault f') := by
  have hp := List.getElem?_eq_getElem (show i < pairs.length by omega)
  obtain ⟨m, y, hm, hy, hload, -, -, hexits⟩ := exists_stage hsites hp
  have hcount : y.exits.count x.channel = 1 := by
    rw [hexits, hchannel, ← hi]
    exact count_lineExits_next (Nat.lt_succ_self i)
  -- the sink keeps its receiver open, so the last stage is not cut off
  obtain ⟨hqueue, hcut⟩ := W.queue_of_exit h hf hy hx hcount
  constructor
  · rw [hqueue, (W.faithful_stage h hf hsites hstages hp).eq_of_not_cut hcut]
  · intro f hfailed
    have halone := hstages i _ hp
    rw [hfailed, ← supply_stage hsites hp] at halone
    have hsource : net.Feeds (i - 1) i → net.Faithful log (i - 1) (out (i - 1)) := by
      intro hfeeds
      have hlt := ((feeds_iff_of_lineSites hsites).mp hfeeds).1
      exact W.faithful_stage h hf hsites hstages (List.getElem?_eq_getElem hlt)
    have hfeeder : ∀ k, net.Feeds k i → k = i - 1 := fun k hk => by
      have := feeder_of_stage hsites hk
      omega
    obtain ⟨w, hw, hfault⟩ := W.fault_of_alone h hf hm hfeeder hsource hcut hload halone
    exact verdict_of_fault hw hfault

/-- In every interleaving of a line that finishes, the sink gets exactly what the last machine gives
    if the machines are run alone, one after the other, and if that one fails alone, then the run
    reports a fault. -/
theorem pipeline_computes_composition {programs preloads : List (List Int)} (hne : programs ≠ [])
    (hlen : preloads.length = programs.length) (maxWorkers : Option Int)
    (hstages : ∀ i p v, programs[i]? = some p → preloads[i]? = some v →
      RunsAlone p (v ++ upstream out i) (out i) (ending i)) :
    ∃ net, (line false programs (some preloads)).on (.empty maxWorkers) = (.ok "output", net) ∧
      ∀ s, Reaches net.system s → s.finished = true →
        ((({ net with started := true } : Network).settle s).values "output").1 =
            out (programs.length - 1) ∧
          ((∃ f, ending (programs.length - 1) = .failed f) →
            ∃ f, verdict s = .error (.fault f)) := by
  have hlen' : ((some preloads).getD (programs.map fun _ => [])).length = programs.length := hlen
  obtain ⟨net, hok, hbuilt, hsinks, hsites⟩ := on_line false hne hlen' maxWorkers
  refine ⟨net, hok, fun s hs hf => ?_⟩
  obtain ⟨W⟩ := hbuilt.wiring
  obtain ⟨log, h⟩ := exists_records_of_reaches hs
  have hlength : (programs.zip preloads).length = programs.length := by
    rw [List.length_zip, hlen, Nat.min_self]
  have hpos : 0 < programs.length := List.length_pos_iff.mpr hne
  have halone : ∀ i p, (programs.zip preloads)[i]? = some p →
      RunsAlone p.1 (p.2 ++ upstream out i) (out i) (ending i) := by
    intro i p hp
    obtain ⟨hprogram, hpreload⟩ := List.getElem?_zip_eq_some.mp hp
    exact hstages i p.1 p.2 hprogram hpreload
  have hsink : (⟨"output", 2 * programs.length, []⟩ : Sink) ∈ net.sinks := by
    rw [hsinks]
    exact List.mem_singleton_self _
  have hchannel : 2 * programs.length = 2 * (programs.zip preloads).length := by rw [hlength]
  have hlast : programs.length - 1 + 1 = (programs.zip preloads).length := by omega
  obtain ⟨hqueue, hverdict⟩ := W.last_stage h hf hsites halone hsink hchannel hlast
  refine ⟨?_, fun ⟨f, hfailed⟩ => hverdict f hfailed⟩
  have hfound : ({ net with started := true } : Network).sink? "output" =
      some ⟨"output", 2 * programs.length, []⟩ := by
    rw [sink?, hsinks]
    rfl
  rw [values_settle, hfound]
  show [] ++ _ = _
  rw [List.nil_append, hqueue]

/-- The first machine gives two values, and the second one takes its preload and the first of them,
    gives that and fails. -/
theorem failing_line_values :
    ∃ net, (line false [[104, 1, 104, 2, 99], [3, 9, 3, 10, 4, 10, 98]] (some [[], [7]])).on
        (.empty none) = (.ok "output", net) ∧
      ∃ s, Reaches net.system s ∧ s.finished = true ∧
        ((({ net with started := true } : Network).settle s).values "output").1 = [1] ∧
        ∃ f, verdict s = .error (.fault f) := by
  have hfirst : RunsAlone [104, 1, 104, 2, 99] ([] ++ []) [1, 2] .halted :=
    ⟨9, _, _, rfl, rfl⟩
  have hsecond : RunsAlone [3, 9, 3, 10, 4, 10, 98] ([7] ++ [1, 2]) [1]
      (.failed (.decode ⟨98, .unknownOpcode 98⟩)) := ⟨9, _, _, rfl, rfl⟩
  let out : Nat → List Int := fun i => if i = 0 then [1, 2] else [1]
  let ending : Nat → Outcome := fun i =>
    if i = 0 then .halted else .failed (.decode ⟨98, .unknownOpcode 98⟩)
  have hstages : ∀ i p v, [[104, 1, 104, 2, 99], [3, 9, 3, 10, 4, 10, 98]][i]? = some p →
      [[], [7]][i]? = some v → RunsAlone p (v ++ upstream out i) (out i) (ending i) := by
    intro i p v hp hv
    match i with
    | 0 => cases hp; cases hv; exact hfirst
    | 1 => cases hp; cases hv; exact hsecond
    | i + 2 => cases hp
  have hne : ([[104, 1, 104, 2, 99], [3, 9, 3, 10, 4, 10, 98]] : List (List Int)) ≠ [] :=
    List.cons_ne_nil _ _
  have hlen : ([[], [7]] : List (List Int)).length =
      [[104, 1, 104, 2, 99], [3, 9, 3, 10, 4, 10, 98]].length := rfl
  obtain ⟨net, hok, hall⟩ := pipeline_computes_composition hne hlen none hstages
  have hnet : net = ((line false [[104, 1, 104, 2, 99], [3, 9, 3, 10, 4, 10, 98]]
      (some [[], [7]])).on (.empty none)).2 := by rw [hok]
  obtain ⟨hvalues, hverdict⟩ := hall
    (net.system.follow (List.replicate 20 [0, 1, 2, 3]).flatten) (reaches_follow _ _)
    (by rw [hnet]; decide +kernel)
  exact ⟨net, hok, _, reaches_follow _ _, by rw [hnet]; decide +kernel, hvalues,
    hverdict ⟨_, rfl⟩⟩

end Network

end TapeNet
