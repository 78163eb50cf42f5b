import TapeNet.Proofs.Machine.LoopAmplifier
import TapeNet.Proofs.Net.Circuit
import TapeNet.Proofs.Net.Shutdown

/-! # A ring of amplifiers

    Amplifiers with a counter, wired in a loop, send a signal round five
    times. The last one also feeds the sink.

    - An amplifier gives what it makes of the first signals
      (`Wiring.outputs_of_amplifier`), so if one gave five values, then so did
      the one before it.
    - The last amplifier gave five values. If it had starved before, then so
      had all others, back to the first one, and each would have given as many
      values as the one before it; but the first one got one signal more than
      the last one gave (`Wiring.last_gave_five`).
    - After five values an amplifier only stops at its halt instruction.
-/

namespace TapeNet

namespace Network

open History Process Machine TapeNet.System Amplifier

variable {net : Network} {s : System (Station ⊕ Relay)} {log : List Exchange}
  {phases : List Int} {signal : Int} {i : Nat} {p : Int}

/-! ### What the amplifiers give -/

namespace Wiring

/-- An amplifier gives what it makes of its first signals. -/
theorem outputs_of_amplifier (W : Wiring net) (h : Records net.system log s)
    (hsites : net.sites = circuitSites true feedbackProgram phases signal)
    (hp : phases[i]? = some p) :
    net.outputs log i = ((signals true phases.length signal (net.outputs log) i).take
        (net.outputs log i).length).map (amplify p) ∧ (net.outputs log i).length ≤ 5 := by
  obtain ⟨hi, -⟩ := List.getElem?_eq_some_iff.mp hp
  obtain ⟨m, -, hm, -, hload, -⟩ := exists_amplifier hsites hp
  obtain ⟨w, -, hstory, -⟩ := exists_station h hm
  obtain ⟨n, xs, q, hflow, hx⟩ := (Station.station_story hstory (h.plain _)).flow
  have hle := W.inputs_le h hm fun k hk => ((feeds_circuit_iff hsites hi).mp hk).1
  rw [supply_circuit hsites hp] at hle
  rw [← outputs_eq hm, hload] at hflow
  rw [← inputs_eq hm] at hx
  exact (amplifying_of_flow hflow).given_eq (hx.trans hle)

/-- An amplifier that was not cut off and gave less than five values has starved: so the one before
    it was not cut off, and all signals that it gave have been amplified. -/
theorem starved_amplifier (W : Wiring net) (h : Records net.system log s)
    (hf : s.finished = true) (hsites : net.sites = circuitSites true feedbackProgram phases signal)
    (hp : phases[i]? = some p) (hcut : ¬net.CutOff log i)
    (hfive : (net.outputs log i).length ≠ 5) :
    ¬net.CutOff log (before phases.length i) ∧
      (net.outputs log i).length =
        (signals true phases.length signal (net.outputs log) i).length := by
  obtain ⟨hi, -⟩ := List.getElem?_eq_some_iff.mp hp
  obtain ⟨m, -, hm, -, hload, -⟩ := exists_amplifier hsites hp
  rcases W.station_end h hf hm fun k hk => ((feeds_circuit_iff hsites hi).mp hk).1 with
    hcut' | ⟨hall, hbefore, q, n, hflow, hget⟩ | ⟨o, w, hends, -⟩
  · exact absurd hcut' hcut
  · rw [hall, supply_circuit hsites hp, hload] at hflow
    obtain ⟨hlen, -⟩ := (amplifying_of_flow hflow).starved hget
    exact ⟨hbefore ((feeds_circuit_iff hsites hi).mpr ⟨rfl, fun _ => rfl⟩), hlen⟩
  · rw [hload] at hends
    exact absurd (five_of_ends hends) hfive

/-- If an amplifier starved early, then the amplifiers from the first one up to it gave equally
    many values. -/
theorem starved_back (W : Wiring net) (h : Records net.system log s) (hf : s.finished = true)
    (hsites : net.sites = circuitSites true feedbackProgram phases signal) {j : Nat} (hij : i ≤ j)
    (hj : j < phases.length) (hcut : ¬net.CutOff log j)
    (hfive : (net.outputs log j).length ≠ 5) :
    ¬net.CutOff log i ∧ (net.outputs log i).length = (net.outputs log j).length := by
  induction hij using Nat.decreasingInduction with
  | self => exact ⟨hcut, rfl⟩
  | of_succ k hk ih =>
    obtain ⟨hcut', hlen⟩ := ih
    have hp := List.getElem?_eq_getElem (show k + 1 < phases.length by omega)
    obtain ⟨hbefore, hlen'⟩ := W.starved_amplifier h hf hsites hp hcut' (by omega)
    exact ⟨hbefore, hlen'.symm.trans hlen⟩

/-- The last amplifier gave five values. -/
theorem last_gave_five (W : Wiring net) (h : Records net.system log s) (hf : s.finished = true)
    (hsites : net.sites = circuitSites true feedbackProgram phases signal) (hne : phases ≠ [])
    (hcut : ¬net.CutOff log (phases.length - 1)) :
    (net.outputs log (phases.length - 1)).length = 5 := by
  have hpos := List.length_pos_iff.mpr hne
  by_contra hfive
  obtain ⟨hcut₀, hlen₀⟩ :=
    W.starved_back h hf hsites (Nat.zero_le _) (Nat.sub_lt hpos Nat.one_pos) hcut hfive
  -- the first amplifier starved too, but it got one signal more than the last one gave
  obtain ⟨-, hlen⟩ := W.starved_amplifier h hf hsites (List.getElem?_eq_getElem hpos) hcut₀
    (by omega)
  rw [signals, cond_true, List.length_cons] at hlen
  omega

/-- All amplifiers gave five values. -/
theorem gave_five (W : Wiring net) (h : Records net.system log s)
    (hsites : net.sites = circuitSites true feedbackProgram phases signal) {j : Nat} (hij : i ≤ j)
    (hj : j < phases.length) (hfive : (net.outputs log j).length = 5) :
    (net.outputs log i).length = 5 := by
  induction hij using Nat.decreasingInduction with
  | self => exact hfive
  | of_succ k hk ih =>
    -- the amplifier after this one made five values of what this one gave
    have hp := List.getElem?_eq_getElem (show k + 1 < phases.length by omega)
    have hp' := List.getElem?_eq_getElem (show k < phases.length by omega)
    obtain ⟨hgiven, -⟩ := W.outputs_of_amplifier h hsites hp
    obtain ⟨-, hle⟩ := W.outputs_of_amplifier h hsites hp'
    have hlen := congrArg List.length hgiven
    rw [List.length_map, List.length_take, signals, ih] at hlen
    omega

/-- What an amplifier gave is what the amplifiers up to it make of the signals of the first one. -/
theorem outputs_eq_chain (W : Wiring net) (h : Records net.system log s)
    (hsites : net.sites = circuitSites true feedbackProgram phases signal) (hi : i < phases.length)
    (hfive : ∀ j, j < phases.length → (net.outputs log j).length = 5) :
    net.outputs log i = ((signal :: net.outputs log (phases.length - 1)).take 5).map
      (chain (phases.take (i + 1))) := by
  induction i with
  | zero =>
    obtain ⟨hgiven, -⟩ := W.outputs_of_amplifier h hsites (List.getElem?_eq_getElem hi)
    rw [hfive 0 hi] at hgiven
    rw [hgiven, signals]
    exact List.map_congr_left fun v _ => (chain_take_succ hi v).symm
  | succ i ih =>
    have hlt : i < phases.length := by omega
    obtain ⟨hgiven, -⟩ := W.outputs_of_amplifier h hsites (List.getElem?_eq_getElem hi)
    rw [hfive _ hi, signals, List.take_of_length_le (hfive i hlt).le, ih hlt] at hgiven
    rw [hgiven, List.map_map]
    exact List.map_congr_left fun v _ => (chain_take_succ hi v).symm

end Wiring

/-- After five values, the machine of an amplifier has halted at its halt instruction. -/
theorem amplifier_halted (h : Records net.system log s) (hf : s.finished = true)
    (hsites : net.sites = circuitSites true feedbackProgram phases signal)
    (hp : phases[i]? = some p)
    (hfive : (net.outputs log i).length = 5) :
    ∃ w, s.workers[2 * i]? = some (.inl w) ∧ AtHalt w.machine ∧ w.fault = none := by
  obtain ⟨m, -, hm, -, hload, -⟩ := exists_amplifier hsites hp
  obtain ⟨w, hw, hstory, -⟩ := exists_station h hm
  have hstage := Station.not_working_of_request_eq_none (request_of_finished hf hw)
  obtain ⟨n, xs, q, reply, o, hflow, hresume, ho, hfault, -⟩ :=
    Station.exists_last_step hstory (h.plain _) hstage
  rw [← outputs_eq hm, hload] at hflow
  obtain ⟨rfl, hhalt⟩ := (amplifying_of_flow hflow).halt_of_five hfive hresume ho
  exact ⟨w, hw, hhalt, hfault⟩

/-! ### What comes out -/

/-- A list that is made of a value and of the list itself, up to a length, is a list of iterates. -/
theorem eq_iterates {f : Int → Int} {v : Int} {n : Nat} {ys : List Int}
    (h : ys = ((v :: ys).take n).map f) : ys = (List.range n).map fun t => f^[t + 1] v := by
  have hlen : ys.length = n := by
    have := congrArg List.length h
    rw [List.length_map, List.length_take, List.length_cons] at this
    omega
  -- by induction on the place: each entry is made of the one before it
  have hentry : ∀ t, t < n → ys[t]? = some (f^[t + 1] v) := by
    have htake : ∀ t, t < n → ys[t]? = (v :: ys)[t]?.map f := by
      intro t ht
      conv_lhs => rw [h]
      rw [List.getElem?_map, List.getElem?_take_of_lt ht]
    intro t ht
    induction t with
    | zero => exact htake 0 ht
    | succ t ih =>
      rw [htake _ ht, List.getElem?_cons_succ, ih (by omega),
        Function.iterate_succ_apply' f (t + 1) v]
      rfl
  refine List.ext_getElem? fun t => ?_
  rw [List.getElem?_map]
  by_cases ht : t < n
  · rw [hentry t ht, List.getElem?_range ht]
    rfl
  · rw [List.getElem?_eq_none (by omega), List.getElem?_eq_none (by rw [List.length_range]; omega)]
    rfl

/-- In the end the sink holds what the last amplifier gave, and all of them gave five values. -/
theorem Wiring.queue_of_ring (W : Wiring net) (h : Records net.system log s)
    (hf : s.finished = true)
    (hsites : net.sites = circuitSites true feedbackProgram phases signal) (hne : phases ≠ [])
    (hsinks : net.sinks = [⟨"output", 2 * phases.length, []⟩]) :
    (s.board.channel (2 * phases.length)).queue = net.outputs log (phases.length - 1) ∧
      ∀ j, j < phases.length → (net.outputs log j).length = 5 := by
  have hlast : phases.length - 1 < phases.length :=
    Nat.sub_lt (List.length_pos_iff.mpr hne) Nat.one_pos
  -- the sink keeps its receiver open, so the last amplifier is not cut off
  obtain ⟨hqueue, hcut⟩ := W.queue_of_circuit h hf hsites hne hsinks
  refine ⟨hqueue, fun j hj => ?_⟩
  exact W.gave_five h hsites (Nat.le_sub_one_of_lt hj) hlast
    (W.last_gave_five h hf hsites hne hcut)

/-- What the last amplifier gave are the iterates of the affine map. -/
theorem Wiring.outputs_of_last (W : Wiring net) (h : Records net.system log s)
    (hsites : net.sites = circuitSites true feedbackProgram phases signal) (hne : phases ≠ [])
    (hfive : ∀ j, j < phases.length → (net.outputs log j).length = 5) :
    net.outputs log (phases.length - 1) =
      (List.range 5).map fun t => wrap ((gain phases)^[t + 1] signal) := by
  have hpos := List.length_pos_iff.mpr hne
  have hring := W.outputs_eq_chain h hsites (Nat.sub_lt hpos Nat.one_pos) hfive
  rw [Nat.sub_add_cancel hpos, List.take_length] at hring
  rw [eq_iterates hring]
  exact List.map_congr_left fun t _ => iterate_chain hne signal t

/-- In every interleaving of the ring that finishes, the run succeeds, all machines have halted at
    their halt instruction, and the sink holds five values: the iterates of the affine map of the
    amplifiers, as words. -/
theorem feedback_ring_amplifies (hne : phases ≠ []) (signal : Int) (maxWorkers : Option Int) :
    ∃ net, (line true (phases.map fun _ => feedbackProgram) (some (preloads signal phases))).on
        (.empty maxWorkers) = (.ok "output", net) ∧
      ∀ s, Reaches net.system s → s.finished = true →
        verdict s = .ok () ∧
        (({ net with started := true } : Network).settle s).nodes.length = phases.length ∧
        (∀ n ∈ (({ net with started := true } : Network).settle s).nodes, AtHalt n.machine) ∧
        ((({ net with started := true } : Network).settle s).values "output").1 =
          (List.range 5).map fun t => wrap ((gain phases)^[t + 1] signal) := by
  obtain ⟨net, hok, hbuilt, hsinks, hsites⟩ :=
    on_circuit true feedbackProgram hne signal maxWorkers
  refine ⟨net, hok, fun s hs hf => ?_⟩
  obtain ⟨W⟩ := hbuilt.wiring
  obtain ⟨log, h⟩ := exists_records_of_reaches hs
  obtain ⟨hqueue, hfive⟩ := W.queue_of_ring h hf hsites hne hsinks
  have hnodes := length_nodes_circuit hsites
  have hhalted : ∀ i m, net.nodes[i]? = some m →
      ∃ w, s.workers[2 * i]? = some (.inl w) ∧ AtHalt w.machine ∧ w.fault = none := by
    intro i m hm
    have hi : i < phases.length := by
      rw [← hnodes]
      exact (List.getElem?_eq_some_iff.mp hm).1
    exact amplifier_halted h hf hsites (List.getElem?_eq_getElem hi) (hfive i hi)
  refine ⟨?_, List.length_mapIdx.trans hnodes, ?_, ?_⟩
  · apply verdict_ok h
    intro i m hm
    obtain ⟨w, hw, -, hfault⟩ := hhalted i m hm
    exact ⟨w, hw, hfault⟩
  · intro n hn
    obtain ⟨i, m, w, hm, hw, hmachine⟩ := exists_of_mem_settle h hn
    obtain ⟨w', hw', hhalt, -⟩ := hhalted i m hm
    rw [hw] at hw'
    obtain rfl := Sum.inl.inj (Option.some.inj hw')
    rwa [hmachine]
  · have hfound : ({ net with started := true } : Network).sink? "output" =
        some ⟨"output", 2 * phases.length, []⟩ := by
      rw [sink?, hsinks]
      rfl
    rw [values_settle, hfound]
    show [] ++ _ = _
    rw [List.nil_append, hqueue, W.outputs_of_last h hsites hne hfive]

/-- Two amplifiers make `4 * v + 14` of a signal, which is more than a word in the first round. -/
theorem overflowingRing_values :
    ∃ net, (line true [feedbackProgram, feedbackProgram]
        (some [[9, 9223372036854775807], [8]])).on (.empty none) = (.ok "output", net) ∧
      ∃ s, Reaches net.system s ∧ s.finished = true ∧ verdict s = .ok () ∧
        (({ net with started := true } : Network).settle s).nodes.length = 2 ∧
        (∀ n ∈ (({ net with started := true } : Network).settle s).nodes, AtHalt n.machine) ∧
        ((({ net with started := true } : Network).settle s).values "output").1 =
          [10, 54, 230, 934, 3750] := by
  have hne : ([9, 8] : List Int) ≠ [] := List.cons_ne_nil _ _
  obtain ⟨net, hok, hall⟩ := feedback_ring_amplifies hne 9223372036854775807 none
  have hnet : net = ((line true [feedbackProgram, feedbackProgram]
      (some [[9, 9223372036854775807], [8]])).on (.empty none)).2 :=
    (congrArg Prod.snd hok).symm
  have hfinished :
      (net.system.follow (List.replicate 60 [0, 1, 2, 3]).flatten).finished = true := by
    rw [hnet]
    decide +kernel
  obtain ⟨hverdict, hlen, hhalted, hvalues⟩ := hall _ (reaches_follow _ _) hfinished
  have hwords : ((List.range 5).map fun t => wrap ((gain [9, 8])^[t + 1] 9223372036854775807)) =
      [10, 54, 230, 934, 3750] := by
    decide +kernel
  exact ⟨net, hok, _, reaches_follow _ _, hfinished, hverdict, hlen, hhalted,
    hvalues.trans hwords⟩

end Network

end TapeNet
