import TapeNet.Proofs.Net.Layout
import TapeNet.Proofs.Net.Traffic

/-! # Machines of a network and machines run alone

    A machine of a network that is fed by one node at most gives what it
    gives alone on its supply, as far as it is let.

    - `RunsAlone`: a program run to its end on preset inputs.
    - `Faithful net log k ys`: node `k` gave a first part of `ys`, and all of
      it unless it was cut off.
    - `Wiring.faithful`: in a network that has finished, a node whose source
      is faithful is faithful itself. Along a network without cycles this
      goes from the first nodes to the sinks.
    - A sink keeps its receiver open, so the node that feeds it is never cut
      off, and the sink holds what that node gave (`Wiring.queue_of_exit`).
-/

namespace TapeNet

/-- A program run alone on preset inputs, which stops when they are used up: what it puts out and
    how it stops. -/
def RunsAlone (program inputs outputs : List Int) (ending : Outcome) : Prop :=
  ∃ fuel m b, (Machine.load { haltOnExhaustedInput := true } program).run Buffer.port fuel
    (.ofInputs inputs) = some (ending, m, b) ∧ b.outputs.toList = outputs

namespace RunsAlone

open Machine

variable {program zs ys : List Int} {o : Outcome}

/-- A program that is run alone ends of its own accord or starves, and under any name it does the
    same. -/
theorem cases (h : RunsAlone program zs ys o) (c : Config) :
    (∃ xs, xs <+: zs ∧ Ends (load c program) xs ys o) ∨
    (∃ n q, Flow (load c program) n zs ys q ∧ q.demand = .get ∧ o = .stopped .exhausted) := by
  obtain ⟨fuel, m, b, hrun, rfl⟩ := h
  have hflow : Flow (load c program) 0 [] (Buffer.ofInputs zs).outputs.toList
      (load c program) := .start
  have hname : (load c program).withConfig { haltOnExhaustedInput := true } =
      load { haltOnExhaustedInput := true } program := rfl
  rw [← hname] at hrun
  rcases hflow.run_cases hrun with ⟨xs, hx, hends⟩ | ⟨n, q, hstarved, hget, ho⟩
  · exact .inl ⟨xs, hx, hends⟩
  · exact .inr ⟨n, q, hstarved, hget, ho⟩

theorem yields (h : RunsAlone program zs ys o) (c : Config) : Yields (load c program) zs ys := by
  rcases h.cases c with ⟨xs, hx, hends⟩ | ⟨n, q, hflow, hget, -⟩
  · exact hends.yields hx
  · exact hflow.yields_of_starved hget

end RunsAlone

namespace Network

open History Process Machine TapeNet.System

/-- What node `k` gave is a first part of `ys`, and it is all of it if the node was not cut off. -/
structure Faithful (net : Network) (log : List Exchange) (k : Nat) (ys : List Int) : Prop where
  le : net.outputs log k <+: ys
  eq_of_not_cut : ¬net.CutOff log k → net.outputs log k = ys

variable {net : Network} {s : System (Station ⊕ Relay)} {log : List Exchange} {i j k : Nat}
  {m : Node} {out : Nat → List Int}

/-! ### A node and its source -/

namespace Wiring

/-- A node took a first part of what a faithful source supplies. -/
theorem inputs_le_supply (W : Wiring net) (h : Records net.system log s)
    (hm : net.nodes[j]? = some m) (hk : ∀ i, net.Feeds i j → i = k)
    (hsource : net.Feeds k j → net.Faithful log k (out k)) :
    net.inputs log j <+: net.supply out k j := by
  have hle := W.inputs_le h hm hk
  by_cases hfeeds : net.Feeds k j
  · exact hle.trans (supply_mono (hsource hfeeds).le)
  · rwa [supply_of_not_feeds hfeeds (net.outputs log) out] at hle

/-- A node that was not cut off starved after all that a faithful source supplies, or it ended. -/
theorem end_of_not_cut (W : Wiring net) (h : Records net.system log s) (hf : s.finished = true)
    (hm : net.nodes[j]? = some m) (hk : ∀ i, net.Feeds i j → i = k)
    (hsource : net.Feeds k j → net.Faithful log k (out k)) (hcut : ¬net.CutOff log j) :
    (∃ n q, Flow m.machine n (net.supply out k j) (net.outputs log j) q ∧ q.demand = .get) ∨
    ∃ o w, Ends m.machine (net.inputs log j) (net.outputs log j) o ∧
      s.workers[2 * j]? = some (.inl w) ∧ w.fault = o.fault? := by
  rcases W.station_end h hf hm hk with hcut' | ⟨hall, hkcut, q, n, hflow, hget⟩ | hended
  · exact absurd hcut' hcut
  · -- it starved, so its source was not cut off and gave all that it gives alone
    have hsupply : net.inputs log j = net.supply out k j := by
      rw [hall]
      by_cases hfeeds : net.Feeds k j
      · unfold supply
        rw [(hsource hfeeds).eq_of_not_cut (hkcut hfeeds)]
      · exact supply_of_not_feeds hfeeds _ _
    rw [hsupply] at hflow
    exact .inl ⟨n, q, hflow, hget⟩
  · exact .inr hended

/-- In a network that has finished, a node is faithful to what its machine yields on the supply from
    a faithful source. -/
theorem faithful (W : Wiring net) (h : Records net.system log s) (hf : s.finished = true)
    (hm : net.nodes[j]? = some m) (hk : ∀ i, net.Feeds i j → i = k)
    (hsource : net.Feeds k j → net.Faithful log k (out k)) {ys : List Int}
    (hyields : Yields m.machine (net.supply out k j) ys) : net.Faithful log j ys := by
  have hinputs := W.inputs_le_supply h hm hk hsource
  constructor
  · -- on a first part of its inputs it gave a first part of its outputs
    obtain ⟨w, -, hstory, -⟩ := exists_station h hm
    obtain ⟨n, xs, q, hflow, hx⟩ := (Station.station_story hstory (h.plain _)).flow
    rw [← outputs_eq hm] at hflow
    rw [← inputs_eq hm] at hx
    exact hyields.2 n xs _ q hflow (hx.trans hinputs)
  · -- however it came to stop, it gave all that its inputs yield
    intro hcut
    rcases W.end_of_not_cut h hf hm hk hsource hcut with ⟨n, q, hflow, hget⟩ | ⟨o, w, hends, -⟩
    · exact (hflow.yields_of_starved hget).unique hyields
    · exact (hends.yields hinputs).unique hyields

/-- A node that was not cut off and that fails when it is run alone has failed. -/
theorem fault_of_alone (W : Wiring net) (h : Records net.system log s) (hf : s.finished = true)
    (hm : net.nodes[j]? = some m) (hk : ∀ i, net.Feeds i j → i = k)
    (hsource : net.Feeds k j → net.Faithful log k (out k)) (hcut : ¬net.CutOff log j)
    {c : Config} {program ys : List Int} (hload : m.machine = .load c program) {f : Fault}
    (halone : RunsAlone program (net.supply out k j) ys (.failed f)) :
    ∃ w, s.workers[2 * j]? = some (.inl w) ∧ w.fault = some f := by
  rcases halone.cases c with ⟨xs, hx, hends⟩ | ⟨n, q, -, -, ho⟩
  · rw [← hload] at hends
    rcases W.end_of_not_cut h hf hm hk hsource hcut with
      ⟨n, q, hflow, hget⟩ | ⟨o', w, hends', hw, hfault⟩
    · exact absurd hget (hends.not_starved hx hflow)
    · obtain rfl := hends'.outcome_eq hends (W.inputs_le_supply h hm hk hsource) hx
      exact ⟨w, hw, hfault⟩
  · cases ho

end Wiring

/-! ### Copies, read off the layout -/

/-- As many copies of a value go to a channel as it has places among the exits. -/
theorem copiesTo_eq_replicate {x : Site} (hx : net.sites[i]? = some x) (c : Nat) (v : Int) :
    net.copiesTo i c v = List.replicate (x.exits.count c) v := by
  rw [getElem?_sites] at hx
  obtain ⟨n, hn, rfl⟩ := Option.map_eq_some_iff.mp hx
  rw [copiesTo, hn]
  show (n.relay.targets.filter fun t => (net.board.sender t).channel == c).map (fun _ => v) =
    List.replicate ((n.relay.targets.map fun t => (net.board.sender t).channel).count c) v
  rw [List.map_const', List.count_eq_length_filter, List.filter_map, List.length_map]
  rfl

/-- One copy of each value is the values themselves. -/
theorem flatMap_copiesTo {x : Site} (hx : net.sites[i]? = some x) {c : Nat}
    (hc : x.exits.count c = 1) (vs : List Int) : vs.flatMap (net.copiesTo i c) = vs := by
  have hcopies : net.copiesTo i c = fun v => [v] := by
    funext v
    rw [copiesTo_eq_replicate hx, hc]
    rfl
  rw [hcopies]
  exact List.flatMap_singleton' vs

/-- What a node is supplied with by a node that has its inbox among the exits once. -/
theorem supply_of_exit (hm : net.nodes[j]? = some m) {x : Site} (hx : net.sites[k]? = some x)
    (hc : x.exits.count m.inbox = 1) (out : Nat → List Int) :
    net.supply out k j = m.preload ++ out k := by
  rw [supply_eq hm, flatMap_copiesTo hx hc]

theorem supply_of_no_source (hm : net.nodes[j]? = some m) (hfeeds : ¬net.Feeds k j)
    (out : Nat → List Int) : net.supply out k j = m.preload := by
  rw [supply_eq hm, flatMap_copiesTo_eq_nil hfeeds hm, List.append_nil]

/-- In the end, a sink that is an exit of a node holds what that node gave, and the node was not cut
    off. -/
theorem Wiring.queue_of_exit (W : Wiring net) (h : Records net.system log s)
    (hf : s.finished = true) {x : Site} (hx : net.sites[i]? = some x) {k : Sink}
    (hk : k ∈ net.sinks) (hc : x.exits.count k.channel = 1) :
    (s.board.channel k.channel).queue = net.outputs log i ∧ ¬net.CutOff log i := by
  have hexit : k.channel ∈ x.exits := by
    rw [← List.count_pos_iff, hc]
    exact Nat.one_pos
  obtain ⟨n, hn, rfl⟩ := Option.map_eq_some_iff.mp ((getElem?_sites net i).symm.trans hx)
  obtain ⟨t, ht, htc⟩ := List.mem_map.mp hexit
  obtain ⟨hqueue, hcut⟩ := W.queue_of_sink h hf hk hn ht htc
  rw [hqueue, flatMap_copiesTo hx hc]
  exact ⟨rfl, hcut⟩

end Network

end TapeNet
