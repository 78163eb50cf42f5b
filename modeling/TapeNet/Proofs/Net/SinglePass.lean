import TapeNet.Proofs.Machine.Footprint
import TapeNet.Proofs.Net.Circuit
import TapeNet.Proofs.Net.RelayDelivery
import TapeNet.Proofs.Net.Shutdown

/-! # One pass through a circuit

    An amplifier that answers its phase and one signal with one value, and
    then halts, does not care whether the circuit is a chain or a loop: it
    never gets to what comes back.

    - `Wiring.gave_of_cutOff`: a relay closes its channel only once it has
      lost its targets over a value, so a node that is cut off has given one.
    - `Wiring.halts_as_alone`: so a node that gives one value alone, and halts,
      does the same in a network, whatever else it is supplied with.
    - `Wiring.single_pass`: this goes from each amplifier to the next one.
    - `chain_and_loop_agree`: so both circuits answer what the last amplifier
      answers.
-/

namespace TapeNet

/-! ### Halt instructions -/

namespace Machine

/-- A machine that has halted at a halt instruction, and not because a port has refused it. -/
def RestsAtHalt (m : Machine) : Prop :=
  m.phase = .halted ∧ ∃ i, Instruction.ofWord m.word = .ok i ∧ i.opcode = .halt

theorem restsAtHalt_of_resume {m m' : Machine} {reply : Reply}
    (h : m.resume reply = (.halted, m')) : m'.RestsAtHalt := by
  unfold resume at h
  cases hp : m.plan with
  | perform length e =>
    rw [hp] at h
    have happly : m.counted.apply length e reply = (.halted, m') := h
    rcases m.counted.apply_cases length e reply with ⟨_, hc⟩ | ⟨rfl, hc⟩ | ⟨cause, -, -, hc⟩ |
      ⟨_, -, hc, -⟩
    · cases hc.symm.trans happly
    · -- nothing is written in this step, so the instruction is still there
      obtain ⟨i, hdecode, heffect, -⟩ := effect_of_perform hp
      obtain ⟨-, rfl⟩ := Prod.mk.inj (hc.symm.trans happly)
      cases does_of_effect heffect with
      | halt hopcode => exact ⟨rfl, i, hdecode, hopcode⟩
    · rcases m.counted.refused_cases cause with hr | hr
      · cases hr.symm.trans (hc.symm.trans happly)
      · cases hr.symm.trans (hc.symm.trans happly)
    · cases hc.symm.trans happly
  | _ =>
    rw [hp] at h
    cases h

end Machine

/-- A program that answers a phase and a signal with one value and then reaches its halt
    instruction. -/
def AnswersOnce (program : List Int) (phase v w : Int) : Prop :=
  ∃ config fuel m b, (Machine.load config program).run Buffer.port fuel (.ofInputs [phase, v]) =
    some (.halted, m, b) ∧ b.outputs.toList = [w]

/-- It does so under any name and policy. -/
theorem AnswersOnce.ends {program : List Int} {phase v w : Int}
    (h : AnswersOnce program phase v w) (c : Config) :
    ∃ xs, xs <+: [phase, v] ∧ Machine.Ends (.load c program) xs [w] .halted := by
  obtain ⟨config, fuel, m, b, hrun, hout⟩ := h
  have hflow : Machine.Flow (.load c program) 0 [] (Buffer.ofInputs [phase, v]).outputs.toList
      (.load c program) := .start
  have hname : (Machine.load c program).withConfig config = .load config program := rfl
  rw [← hname] at hrun
  rcases hflow.run_cases hrun with ⟨xs, hx, hends⟩ | ⟨-, -, -, -, ho⟩
  · rw [hout] at hends
    exact ⟨xs, hx, hends⟩
  · split at ho <;> cases ho

namespace Network

open History Process Machine TapeNet.System Amplifier

variable {net : Network} {s : System (Station ⊕ Relay)} {log : List Exchange} {loop : Bool}
  {program phases : List Int} {signal : Int} {i k : Nat} {p : Int} {m : Node}

/-! ### Nodes that answer once -/

theorem targets_ne_nil (hm : net.nodes[i]? = some m) {x : Site} (hx : net.sites[i]? = some x)
    {c : Nat} (hc : c ∈ x.exits) : m.relay.targets ≠ [] := by
  rw [getElem?_sites, hm] at hx
  obtain rfl := Option.some.inj hx
  obtain ⟨t, ht, -⟩ := List.mem_map.mp hc
  exact List.ne_nil_of_mem ht

namespace Wiring

/-- A node that was cut off has given a value before, unless it has no targets. -/
theorem gave_of_cutOff (W : Wiring net) (h : Records net.system log s)
    (hm : net.nodes[i]? = some m) (htargets : m.relay.targets ≠ []) (hcut : net.CutOff log i) :
    net.outputs log i ≠ [] := by
  intro hnone
  obtain ⟨r, hr, hstory, hinbound⟩ := exists_relay h hm
  -- nothing was given, so the relay got nothing
  have htaken := (h.fifo m.relay.inbound).received_le
  rw [W.received_outbox h hm, W.arrived_outbox h hm, hnone] at htaken
  have hnothing := List.prefix_nil.mp htaken
  obtain ⟨hwaits, -, hkept, -⟩ := Relay.story_without_values hstory rfl hnothing
  rcases hwaits with rfl | hclosing
  · -- it still waits, so its channel is open and refuses nothing
    have hopen : (s.board.channel m.relay.inbound).receiverOpen = true :=
      (h.tidy W.tidy_system).receiverOpen hr List.mem_cons_self
    obtain ⟨m', hm', hrefused⟩ := hcut
    rw [hm] at hm'
    obtain rfl := Option.some.inj hm'
    refine W.none_refused h hopen (2 * i) m.outlet ?_ hrefused
    rw [W.leadsTo_system, beq_iff_eq]
    exact (W.placed m (List.mem_of_getElem? hm)).outlet_channel
  · rcases (Relay.relay_story hstory rfl).closes hclosing with hended | hempty
    · exact (W.outputs_of_ended h hm hended).2 hcut
    · rw [hkept] at hempty
      exact htargets hempty

/-- A node that alone gives one value and halts, on a first part of what it is supplied with, does
    the same in the network. -/
theorem halts_as_alone (W : Wiring net) (h : Records net.system log s) (hf : s.finished = true)
    (hm : net.nodes[i]? = some m) (hk : ∀ j, net.Feeds j i → j = k)
    (htargets : m.relay.targets ≠ []) {xs : List Int} {v : Int}
    (hends : Ends m.machine xs [v] .halted) (hx : xs <+: net.supply (net.outputs log) k i) :
    net.outputs log i = [v] ∧ ∃ w, s.workers[2 * i]? = some (.inl w) ∧
      w.machine.RestsAtHalt ∧ w.fault = none := by
  obtain ⟨w, hw, hstory, -⟩ := exists_station h hm
  have hstage := Station.not_working_of_request_eq_none (request_of_finished hf hw)
  -- the last step is the one that decides: the machine was served, it starved or it was refused
  obtain ⟨n, ys, q, reply, o, hflow, hresume, ho, hfault, hword⟩ :=
    Station.exists_last_step hstory (h.plain _) hstage
  have hyields := hends.yields hx
  have hle := W.inputs_le h hm hk
  rw [← outputs_eq hm] at hflow
  rw [inputs_eq hm] at hle
  cases hword with
  | @served r hadmits htaken =>
    rw [htaken] at hle
    have hends' : Ends m.machine (ys ++ q.demand.taken r) (net.outputs log i) o :=
      .step hflow hadmits hresume ho
    obtain rfl := hends'.outcome_eq hends hle hx
    exact ⟨(hends'.yields hle).unique hyields, w, hw, restsAtHalt_of_resume hresume, hfault⟩
  | starved cause hget htaken hended =>
    -- it would have waited for more than its supply, but it halts on it
    obtain ⟨hall, -⟩ := W.supply_of_ended h hm hk hended
    rw [inputs_eq hm, htaken] at hall
    rw [hall] at hflow
    exact absurd hget (hends.not_starved hx hflow)
  | @refused cause u hput htaken hrefused =>
    -- it would have given a value before the one that was refused, and that makes two
    have hgave := W.gave_of_cutOff h hm htargets ⟨m, hm, hrefused⟩
    have hadmits : q.demand.Admits 0 := fun _ => rfl
    have hnothing : q.demand.taken 0 = [] := by rw [hput]; rfl
    have hnext := hflow.step hadmits (Prod.ext (continued_of_put hput 0) rfl)
    rw [hnothing, List.append_nil, hput] at hnext
    rw [htaken] at hle
    have hmore := hyields.2 _ _ _ _ hnext hle
    have hlen := hmore.length_le
    rw [List.length_append] at hlen
    simp only [Demand.given, List.length_singleton] at hlen
    exact absurd (List.length_eq_zero_iff.mp (by omega)) hgave

/-! ### From one amplifier to the next one -/

/-- An amplifier that is supplied with the signal that it answers gives its answer, and halts at its
    halt instruction. -/
theorem answers_as_alone (W : Wiring net) (h : Records net.system log s) (hf : s.finished = true)
    (hsites : net.sites = circuitSites loop program phases signal) (hp : phases[i]? = some p)
    {v w : Int} (honce : AnswersOnce program p v w)
    (hsignal : [v] <+: signals loop phases.length signal (net.outputs log) i) :
    net.outputs log i = [w] ∧ ∃ q, s.workers[2 * i]? = some (.inl q) ∧
      q.machine.RestsAtHalt ∧ q.fault = none := by
  obtain ⟨hi, -⟩ := List.getElem?_eq_some_iff.mp hp
  obtain ⟨m, x, hm, hx, hload, -, -, hexits⟩ := exists_amplifier hsites hp
  obtain ⟨xs, hle, hends⟩ := honce.ends { name := lineName i }
  rw [← hload] at hends
  have hsupply : xs <+: net.supply (net.outputs log) (before phases.length i) i := by
    rw [supply_circuit hsites hp]
    exact hle.trans (List.cons_prefix_cons.mpr ⟨rfl, hsignal⟩)
  have htargets : m.relay.targets ≠ [] := by
    apply targets_ne_nil hm hx
    rw [← List.count_pos_iff, hexits, count_lineExits_next hi]
    exact Nat.one_pos
  exact W.halts_as_alone h hf hm (fun k hk => ((feeds_circuit_iff hsites hi).mp hk).1) htargets
    hends hsupply

/-- Each amplifier answers what the one before it gave, and halts at its halt instruction. -/
theorem single_pass (W : Wiring net) (h : Records net.system log s) (hf : s.finished = true)
    {out : Nat → Int} (hsites : net.sites = circuitSites loop program phases (out 0))
    (honce : ∀ i p, phases[i]? = some p → AnswersOnce program p (out i) (out (i + 1)))
    (hp : phases[i]? = some p) :
    net.outputs log i = [out (i + 1)] ∧ ∃ q, s.workers[2 * i]? = some (.inl q) ∧
      q.machine.RestsAtHalt ∧ q.fault = none := by
  induction i generalizing p with
  | zero =>
    -- in a loop more is fed back to the first one, but the signal comes first
    refine W.answers_as_alone h hf hsites hp (honce 0 p hp) ?_
    exact List.cons_prefix_cons.mpr ⟨rfl, List.nil_prefix⟩
  | succ i ih =>
    obtain ⟨hi, -⟩ := List.getElem?_eq_some_iff.mp hp
    obtain ⟨hgave, -⟩ := ih (List.getElem?_eq_getElem (Nat.lt_of_succ_lt hi))
    refine W.answers_as_alone h hf hsites hp (honce (i + 1) p hp) ?_
    rw [signals, hgave]

end Wiring

/-! ### What comes out -/

/-- If each amplifier answers once, alone, the signal that the one before it answers, then a chain
    and a loop of them both answer what the last one does, in every interleaving that finishes,
    and leave every machine at its halt instruction. -/
theorem chain_and_loop_agree (hne : phases ≠ []) {out : Nat → Int}
    (honce : ∀ i p, phases[i]? = some p → AnswersOnce program p (out i) (out (i + 1)))
    (loop : Bool) :
    ∃ net, circuit loop program phases (out 0) = (.ok "output", net) ∧
      (∀ s, Reaches net.system s → s.finished = true →
        verdict s = .ok () ∧
        ((({ net with started := true } : Network).settle s).last "output").1 =
          .ok (out phases.length) ∧
        (({ net with started := true } : Network).settle s).nodes.length = phases.length ∧
        ∀ n ∈ (({ net with started := true } : Network).settle s).nodes, n.machine.RestsAtHalt) ∧
      ∀ fuel answer, (Amplifier.run fuel loop program phases (out 0)).run = some answer →
        answer = .ok (out phases.length) := by
  obtain ⟨net, hcircuit, hbuilt, hfree, hsinks, hsites⟩ := exists_circuit loop program hne (out 0)
  obtain ⟨W⟩ := hbuilt.wiring
  have hnodes := length_nodes_circuit hsites
  have hall : ∀ s, Reaches net.system s → s.finished = true →
      verdict s = .ok () ∧
      ((({ net with started := true } : Network).settle s).last "output").1 =
        .ok (out phases.length) ∧
      ∀ n ∈ (({ net with started := true } : Network).settle s).nodes,
        n.machine.RestsAtHalt := by
    intro s hs hf
    obtain ⟨log, h⟩ := exists_records_of_reaches hs
    have hpass : ∀ i m, net.nodes[i]? = some m → net.outputs log i = [out (i + 1)] ∧
        ∃ q, s.workers[2 * i]? = some (.inl q) ∧ q.machine.RestsAtHalt ∧ q.fault = none := by
      intro i m hm
      have hi : i < phases.length := hnodes ▸ (List.getElem?_eq_some_iff.mp hm).1
      exact W.single_pass h hf hsites honce (List.getElem?_eq_getElem hi)
    obtain ⟨hverdict, hrests⟩ := verdict_and_machines h fun i m hm => (hpass i m hm).2
    refine ⟨hverdict, ?_, hrests⟩
    -- the sink holds the answer of the last amplifier
    have hpos := List.length_pos_iff.mpr hne
    have hlast : phases.length - 1 < net.nodes.length := by omega
    obtain ⟨hgave, -⟩ := hpass _ _ (List.getElem?_eq_getElem hlast)
    obtain ⟨hqueue, -⟩ := W.queue_of_circuit h hf hsites hne hsinks
    rw [Nat.sub_add_cancel hpos] at hgave
    apply last_of_values
    rw [values_of_only_sink hsinks, hqueue, hgave]
    rfl
  refine ⟨net, hcircuit, fun s hs hf => ?_, fun fuel answer hrun => ?_⟩
  · obtain ⟨hverdict, hlast, hrests⟩ := hall s hs hf
    exact ⟨hverdict, hlast, List.length_mapIdx.trans hnodes, hrests⟩
  · obtain ⟨s, hs, hf, rfl⟩ := exists_of_run hcircuit hne hfree hrun
    obtain ⟨hverdict, hlast, -⟩ := hall s hs hf
    rw [hverdict]
    show Except.mapError _ (last "output" _).1 = _
    rw [hlast]
    rfl

/-- Two amplifiers that give ten times the signal plus the phase. In the loop, `743` comes back to
    the first one. -/
theorem decimal_chain_and_loop :
    (Amplifier.run 200 false [3, 15, 3, 16, 1002, 16, 10, 16, 1, 16, 15, 15, 4, 15, 99, 0, 0]
        [4, 3] 7).run = some (.ok 743) ∧
      ∃ net, circuit true [3, 15, 3, 16, 1002, 16, 10, 16, 1, 16, 15, 15, 4, 15, 99, 0, 0]
          [4, 3] 7 = (.ok "output", net) ∧
        ∃ s, Reaches net.system s ∧ s.finished = true ∧ verdict s = .ok () ∧
          ((({ net with started := true } : Network).settle s).last "output").1 = .ok 743 ∧
          (({ net with started := true } : Network).settle s).nodes.length = 2 ∧
          ∀ n ∈ (({ net with started := true } : Network).settle s).nodes,
            n.machine.RestsAtHalt := by
  let out : Nat → Int := fun i => if i = 0 then 7 else if i = 1 then 74 else 743
  have honce : ∀ i p, ([4, 3] : List Int)[i]? = some p →
      AnswersOnce [3, 15, 3, 16, 1002, 16, 10, 16, 1, 16, 15, 15, 4, 15, 99, 0, 0] p (out i)
        (out (i + 1)) := by
    intro i p hp
    match i with
    | 0 => cases hp; exact ⟨{}, 9, _, _, rfl, rfl⟩
    | 1 => cases hp; exact ⟨{}, 9, _, _, rfl, rfl⟩
    | i + 2 => cases hp
  have hne : ([4, 3] : List Int) ≠ [] := List.cons_ne_nil _ _
  constructor
  · have hstops : (Amplifier.run 200 false
        [3, 15, 3, 16, 1002, 16, 10, 16, 1, 16, 15, 15, 4, 15, 99, 0, 0] [4, 3] 7).run.isSome =
          true := by
      decide +kernel
    obtain ⟨answer, hanswer⟩ := Option.isSome_iff_exists.mp hstops
    obtain ⟨-, -, -, hruns⟩ := chain_and_loop_agree hne honce false
    rwa [hruns _ _ hanswer] at hanswer
  · obtain ⟨net, hcircuit, hall, -⟩ := chain_and_loop_agree hne honce true
    have hnet : net = (circuit true
        [3, 15, 3, 16, 1002, 16, 10, 16, 1, 16, 15, 15, 4, 15, 99, 0, 0] [4, 3] 7).2 :=
      (congrArg Prod.snd hcircuit).symm
    have hfinished :
        (net.system.follow (List.replicate 20 [0, 1, 2, 3]).flatten).finished = true := by
      rw [hnet]
      decide +kernel
    obtain ⟨hverdict, hlast, hlength, hrests⟩ := hall _ (reaches_follow _ _) hfinished
    exact ⟨net, hcircuit, _, reaches_follow _ _, hfinished, hverdict, hlast, hlength, hrests⟩

end Network

end TapeNet
