import TapeNet.Proofs.Net.Line
import TapeNet.Proofs.Net.Traffic

/-! # Schedule independence

    If every node is fed by one node at most, then the sinks of a network hold
    the same values in the end, whatever the interleaving.

    - The machines themselves may end in different states: one that is cut off
      stops earlier in one interleaving than in another.
    - Against an interleaving that has finished, every output of any other one
      is comparable at any time, and it is no longer unless the node was cut
      off (`Wiring.outputs_behind`). This goes through the run step by
      step, so that cycles in the graph do no harm.
    - The nodes of sinks are never cut off.
-/

namespace TapeNet

namespace Network

open History Process Machine TapeNet.System

/-- Every node is fed by one node at most. -/
def FedByOne (net : Network) : Prop :=
  ∀ i i' j, net.Feeds i j → net.Feeds i' j → i = i'

theorem FedByOne.exists_source {net : Network} (h : net.FedByOne) (j : Nat) :
    ∃ k, ∀ i, net.Feeds i j → i = k := by
  by_cases hfed : ∃ k, net.Feeds k j
  · obtain ⟨k, hk⟩ := hfed
    exact ⟨k, fun i hi => h i k j hi hk⟩
  · exact ⟨0, fun i hi => absurd ⟨i, hi⟩ hfed⟩

/-- Where a run stands against one that has finished: what its node `j` gave is comparable with
    what node `j` gave there, and it is no longer if node `j` was not cut off there. -/
structure Behind (net : Network) (j : Nat) (ys : List Int) (log : List Exchange) : Prop where
  comparable : ys <+: net.outputs log j ∨ net.outputs log j <+: ys
  le_of_not_cut : ¬net.CutOff log j → ys <+: net.outputs log j

variable {net : Network} {s t : System (Station ⊕ Relay)} {log log' : List Exchange} {j k : Nat}
  {m : Node}

namespace Wiring

/-- Two runs whose source nodes are comparable took their inputs from one stream. -/
theorem exists_stream (W : Wiring net) (h : Records net.system log s)
    (h' : Records net.system log' t) (hm : net.nodes[j]? = some m)
    (hk : ∀ i, net.Feeds i j → i = k)
    (hcomparable : net.outputs log k <+: net.outputs log' k ∨
      net.outputs log' k <+: net.outputs log k) :
    ∃ zs, net.inputs log j <+: zs ∧ net.inputs log' j <+: zs := by
  have hle := W.inputs_le h hm hk
  have hle' := W.inputs_le h' hm hk
  rcases hcomparable with hout | hout
  · exact ⟨_, hle.trans (supply_mono hout), hle'⟩
  · exact ⟨_, hle, hle'.trans (supply_mono hout)⟩

/-- What a machine gives on inputs that it took is behind a run that has finished, if its source
    is. -/
theorem behind_of_flow (W : Wiring net) (h : Records net.system log s)
    (h' : Records net.system log' t) (hf : t.finished = true) (hm : net.nodes[j]? = some m)
    (hk : ∀ i, net.Feeds i j → i = k) (hsource : net.Behind k (net.outputs log k) log')
    {n : Nat} {xs ys : List Int} {q : Machine} (hflow : Flow m.machine n xs ys q)
    (hx : xs <+: net.inputs log j) : net.Behind j ys log' := by
  obtain ⟨zs, hz, hz'⟩ := W.exists_stream h h' hm hk hsource.comparable
  have hbehind : ¬net.CutOff log' j → ys <+: net.outputs log' j := by
    intro hcut
    rcases W.station_end h' hf hm hk with hcut' | ⟨hall, hkcut, q', l, hflow', hget⟩ |
      ⟨o, w, hends, -, -⟩
    · exact absurd hcut' hcut
    · -- the machine starved there, so it took all that it could ever get
      have hsupply : net.supply (net.outputs log) k j <+: net.inputs log' j := by
        rw [hall]
        by_cases hfeeds : net.Feeds k j
        · exact supply_mono (hsource.le_of_not_cut (hkcut hfeeds))
        · rw [supply_of_not_feeds hfeeds (net.outputs log) (net.outputs log')]
      have hyields := hflow'.yields_of_starved hget
      exact hyields.2 n xs ys q hflow ((hx.trans (W.inputs_le h hm hk)).trans hsupply)
    · -- the machine ended there, so it cannot give more on the same stream
      exact (hends.yields hz').2 n xs ys q hflow (hx.trans hz)
  refine ⟨?_, hbehind⟩
  obtain ⟨w, -, hstory, -⟩ := exists_station h' hm
  obtain ⟨n', xs', q', hflow', hx'⟩ := (Station.station_story hstory (h'.plain _)).flow
  rw [← outputs_eq hm] at hflow'
  rw [← inputs_eq hm] at hx'
  exact hflow.comparable hflow' (hx.trans hz) (hx'.trans hz')

/-- At any time, what the nodes gave is behind a run that has finished. -/
theorem outputs_behind (W : Wiring net) (hsingle : net.FedByOne) (h : Records net.system log s)
    (h' : Records net.system log' t) (hf : t.finished = true) (j : Nat) :
    net.Behind j (net.outputs log j) log' := by
  -- by induction on the run, for all nodes at once: a node that gives a value has taken its inputs
  -- before, when its source was behind
  induction h generalizing j with
  | start =>
    have hempty : net.outputs [] j = [] := by
      unfold outputs
      split
      · rfl
      · rfl
    rw [hempty]
    exact ⟨.inl List.nil_prefix, fun _ => List.nil_prefix⟩
  | @serve log s i r hrec hreq hb ih =>
    have hnext := Records.serve hrec hreq hb
    cases hm : net.nodes[j]? with
    | none =>
      have hempty : ∀ l, net.outputs l j = [] := fun l => by rw [outputs, hm]
      rw [hempty]
      exact ⟨.inl List.nil_prefix, fun _ => List.nil_prefix⟩
    | some m =>
      by_cases hi : 2 * j = i
      · cases hsent : sentIn (· == m.outlet) (r, (s.board.serve r).1) with
        | none =>
          have hsame : net.outputs (log ++ [⟨i, r, (s.board.serve r).1⟩]) j =
              net.outputs log j := by
            rw [outputs_eq hm, outputs_eq hm, ← hi, heard_concat_self, sent_concat, hsent]
            exact List.append_nil _
          rw [hsame]
          exact ih j
        | some v =>
          -- the machine gives a value, and has taken nothing since the step before
          obtain ⟨u, w, he, -⟩ := sentIn_eq_some hsent
          have hinputs : net.inputs (log ++ [⟨i, r, (s.board.serve r).1⟩]) j =
              net.inputs log j := by
            rw [inputs_eq hm, inputs_eq hm, ← hi, heard_concat_self, he, received_concat]
            exact List.append_nil _
          obtain ⟨k, hk⟩ := hsingle.exists_source j
          obtain ⟨x, -, hstory, -⟩ := exists_station hnext hm
          obtain ⟨n, xs, q, hflow, hx⟩ := (Station.station_story hstory (hnext.plain _)).flow
          rw [← outputs_eq hm] at hflow
          rw [← inputs_eq hm, hinputs] at hx
          exact W.behind_of_flow hrec h' hf hm hk (ih k) hflow hx
      · have hsame : net.outputs (log ++ [⟨i, r, (s.board.serve r).1⟩]) j =
            net.outputs log j := by
          rw [outputs_eq hm, outputs_eq hm, heard_concat_of_ne _ hi]
        rw [hsame]
        exact ih j

/-- A node that was not cut off in either of two finished runs gave the same in both. -/
theorem outputs_eq_of_not_cut (W : Wiring net) (hsingle : net.FedByOne)
    (h : Records net.system log s) (hf : s.finished = true) (h' : Records net.system log' t)
    (hf' : t.finished = true) (hcut : ¬net.CutOff log j) (hcut' : ¬net.CutOff log' j) :
    net.outputs log j = net.outputs log' j := by
  have hle := (W.outputs_behind hsingle h h' hf' j).le_of_not_cut hcut'
  have hge := (W.outputs_behind hsingle h' h hf j).le_of_not_cut hcut
  exact hle.eq_of_length_le hge.length_le

/-- Two finished runs leave the same in every sink. -/
theorem queue_eq (W : Wiring net) (hsingle : net.FedByOne) (h : Records net.system log s)
    (hf : s.finished = true) (h' : Records net.system log' t) (hf' : t.finished = true)
    {x : Sink} (hx : x ∈ net.sinks) :
    (s.board.channel x.channel).queue = (t.board.channel x.channel).queue := by
  by_cases hfed : ∃ n ∈ net.nodes, ∃ u ∈ n.relay.targets,
      (net.board.sender u).channel = x.channel
  · obtain ⟨n, hn, u, hu, hc⟩ := hfed
    obtain ⟨i, hi⟩ := List.mem_iff_getElem?.mp hn
    obtain ⟨hqueue, hcut⟩ := W.queue_of_sink h hf hx hi hu hc
    obtain ⟨hqueue', hcut'⟩ := W.queue_of_sink h' hf' hx hi hu hc
    rw [hqueue, hqueue', W.outputs_eq_of_not_cut hsingle h hf h' hf' hcut hcut']
  · have hlone : ∀ n ∈ net.nodes, ∀ u ∈ n.relay.targets,
        (net.board.sender u).channel ≠ x.channel :=
      fun n hn u hu hc => hfed ⟨n, hn, u, hu, hc⟩
    rw [W.queue_of_lone_sink h hx hlone, W.queue_of_lone_sink h' hx hlone]

end Wiring

/-- Two interleavings of the same network, both of which have finished, leave the same values in
    every sink, provided that every node is fed by one node at most. -/
theorem sink_values_schedule_independent {net : Network} (hbuilt : net.Built)
    (hsingle : net.FedByOne) {s t : System (Station ⊕ Relay)}
    (hs : Reaches net.system s) (hsf : s.finished = true)
    (ht : Reaches net.system t) (htf : t.finished = true) (name : String) :
    ((({ net with started := true } : Network).settle s).values name).1 =
      ((({ net with started := true } : Network).settle t).values name).1 := by
  obtain ⟨W⟩ := hbuilt.wiring
  obtain ⟨log, h⟩ := exists_records_of_reaches hs
  obtain ⟨log', h'⟩ := exists_records_of_reaches ht
  have hsink : ({ net with started := true } : Network).sink? name = net.sink? name := rfl
  rw [values_settle, values_settle, hsink]
  cases hx : net.sink? name with
  | none => rfl
  | some x =>
    have hmem : x ∈ net.sinks := List.mem_of_find?_eq_some hx
    show x.collected ++ _ = x.collected ++ _
    rw [W.queue_eq hsingle h hsf h' htf hmem]

/-- In a line and in a loop every node is fed by one node at most. -/
theorem fedByOne_line (loop : Bool) (programs : List (List Int))
    (preloads : Option (List (List Int))) (maxWorkers : Option Int) :
    ((line loop programs preloads).on (.empty maxWorkers)).2.FedByOne := by
  intro i i' j hi hi'
  by_cases h : programs ≠ [] ∧
      (preloads.getD (programs.map fun _ => [])).length = programs.length
  · have hsites := sites_line loop h.1 h.2 maxWorkers
    obtain ⟨-, -, hij⟩ := (feeds_iff_of_lineSites hsites).mp hi
    obtain ⟨-, -, hij'⟩ := (feeds_iff_of_lineSites hsites).mp hi'
    rcases hij with hnext | ⟨-, hlast, hfirst⟩ <;> rcases hij' with hnext' | ⟨-, hlast', hfirst'⟩
    · omega
    · omega
    · omega
    · omega
  · obtain ⟨e, herror⟩ := on_line_of_mismatch loop h (.empty maxWorkers)
    rw [herror] at hi
    obtain ⟨n, -, hn, -⟩ := hi
    exact absurd (List.mem_of_getElem? hn) List.not_mem_nil

/-- A machine that would give three values, wired to one that takes only one. -/
def shortPipeline : Network :=
  ((line false [[104, 1, 104, 2, 104, 3, 99], [3, 0, 4, 0, 99]] none).on (.empty none)).2

/-- In one interleaving the first machine gives all its values, in another one it is cut off. -/
theorem shortPipeline_values :
    let early := shortPipeline.system.follow
      (List.replicate 8 0 ++ (List.replicate 16 [1, 2, 3]).flatten)
    let late := shortPipeline.system.follow
      ([0, 1, 1, 2, 2, 2, 2, 0, 1, 1, 1, 1] ++ (List.replicate 10 [0, 1, 2, 3]).flatten)
    early.workers ≠ late.workers ∧
      ((({ shortPipeline with started := true } : Network).settle early).values "output").1 =
        ((({ shortPipeline with started := true } : Network).settle late).values "output").1 := by
  intro early late
  exact ⟨by decide +kernel, sink_values_schedule_independent (built_line _ _ _ _)
    (fedByOne_line _ _ _ _) (reaches_follow _ _) (by decide +kernel)
    (reaches_follow _ _) (by decide +kernel) "output"⟩

end Network

end TapeNet
