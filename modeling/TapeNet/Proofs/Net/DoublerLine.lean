import TapeNet.Proofs.Machine.Doubler
import TapeNet.Proofs.Net.Composition

/-! # A line of doublers

    Doublers go round until they are refused, so a line of them only comes
    to an end because the first one finds the end of its inbox, and closes
    the inbox of the next one.

    - `halted_by_closure`: a machine that never ends of its own accord has
      been halted by a closed channel.
    - The sink keeps its receiver open, so the last doubler starved. Then so
      did the one before it, and all of them (`Wiring.none_cut_off`), each
      after it had doubled all that it was supplied with.
    - `doublers_scale`: the sink holds what was preloaded, times a power of
      two.
-/

namespace TapeNet

namespace Network

open History Process Machine Doubler TapeNet.System

variable {net : Network} {s : System (Station ⊕ Relay)} {log : List Exchange} {i k : Nat}
  {m : Node} {xs : List Int}

/-! ### Machines that never end -/

/-- In the end, a machine that never ends of its own accord has been halted by a closed channel,
    without a fault. -/
theorem halted_by_closure (h : Records net.system log s) (hf : s.finished = true)
    (hm : net.nodes[i]? = some m) (hnever : ∀ xs ys o, ¬Ends m.machine xs ys o) :
    ∃ w, s.workers[2 * i]? = some (.inl w) ∧ w.machine.phase = .halted ∧ w.fault = none := by
  obtain ⟨w, hw, hstory, -⟩ := exists_station h hm
  have hstage := Station.not_working_of_request_eq_none (request_of_finished hf hw)
  obtain ⟨n, ys, q, reply, o, hflow, hresume, ho, hfault, hword⟩ :=
    Station.exists_last_step hstory (h.plain _) hstage
  -- a machine that was served in its last step would have ended of its own accord
  have hclosed : ∃ cause, reply = .error (.closed cause) ∧ q.demand ≠ .silent := by
    cases hword with
    | served hadmits _ => exact absurd (.step hflow hadmits hresume ho) (hnever _ _ _)
    | starved cause hget _ _ => exact ⟨cause, rfl, by rw [hget]; exact Demand.noConfusion⟩
    | refused cause hput _ _ => exact ⟨cause, rfl, by rw [hput]; exact Demand.noConfusion⟩
  obtain ⟨cause, rfl, hasks⟩ := hclosed
  rw [resume_closed hasks] at hresume
  obtain ⟨rfl, hmachine⟩ := Prod.mk.inj hresume
  exact ⟨w, hw, by rw [← hmachine], hfault⟩

/-! ### The stages -/

/-- The programs of a line of doublers and their preloads: only the first one has any. -/
def doublerPairs (k : Nat) (xs : List Int) : List (List Int × List Int) :=
  (List.replicate k doubleProgram).zip (xs :: List.replicate (k - 1) [])

/-- The layout of a line of doublers. -/
def doublerSites (k : Nat) (xs : List Int) : List Site :=
  lineSites (lineExits false (doublerPairs k xs).length) (doublerPairs k xs)

theorem getElem?_doublerPairs (xs : List Int) (hi : i < k) :
    (doublerPairs k xs)[i]? = some (doubleProgram, if i = 0 then xs else []) := by
  refine List.getElem?_zip_eq_some.mpr ⟨List.getElem?_replicate_of_lt hi, ?_⟩
  cases i with
  | zero => rfl
  | succ i =>
    rw [List.getElem?_cons_succ, List.getElem?_replicate_of_lt (by omega)]
    rfl

theorem length_doublerPairs (k : Nat) (xs : List Int) : (doublerPairs k xs).length = k := by
  rw [doublerPairs, List.length_zip, List.length_replicate, List.length_cons,
    List.length_replicate]
  omega

/-- A doubler as a node, and that it never ends of its own accord. -/
theorem exists_doubler (hsites : net.sites = doublerSites k xs) (hi : i < k) :
    ∃ m x, net.nodes[i]? = some m ∧ net.sites[i]? = some x ∧
      m.machine = .load { name := lineName i } doubleProgram ∧
      x.exits = lineExits false k i ∧
      ∀ xs ys o, ¬Ends m.machine xs ys o := by
  obtain ⟨m, x, hm, hx, hload, -, -, hexits⟩ := exists_stage hsites (getElem?_doublerPairs xs hi)
  rw [length_doublerPairs] at hexits
  refine ⟨m, x, hm, hx, hload, hexits, fun xs ys o hends => ?_⟩
  rw [hload] at hends
  exact never_ends _ hends

namespace Wiring

/-- A doubler that was not cut off has starved: so the one before it was not cut off, and all that
    it was supplied with has been doubled. -/
theorem starved_doubler (W : Wiring net) (h : Records net.system log s) (hf : s.finished = true)
    (hsites : net.sites = doublerSites k xs) (hi : i < k) (hcut : ¬net.CutOff log i) :
    net.outputs log i = (net.supply (net.outputs log) (i - 1) i).map double ∧
      (net.Feeds (i - 1) i → ¬net.CutOff log (i - 1)) := by
  obtain ⟨m, -, hm, -, hload, -, hnever⟩ := exists_doubler hsites hi
  have hfeeder : ∀ j, net.Feeds j i → j = i - 1 := fun j hj => by
    have := feeder_of_stage hsites hj
    omega
  rcases W.station_end h hf hm hfeeder with hcut' | ⟨hall, hbefore, q, n, hflow, hget⟩ |
    ⟨o, w, hends, -⟩
  · exact absurd hcut' hcut
  · rw [hload] at hflow
    rw [← hall]
    exact ⟨(doubling_of_flow hflow).given_of_starved hget, hbefore⟩
  · exact absurd hends (hnever _ _ _)

/-- No doubler was cut off if the last one was not. -/
theorem none_cut_off (W : Wiring net) (h : Records net.system log s) (hf : s.finished = true)
    (hsites : net.sites = doublerSites k xs) {j : Nat} (hij : i ≤ j) (hj : j < k)
    (hcut : ¬net.CutOff log j) : ¬net.CutOff log i := by
  -- from the last one back: a doubler that starved found all that fed it closed
  induction hij using Nat.decreasingInduction with
  | self => exact hcut
  | of_succ i hi ih =>
    have hfeeds : net.Feeds i (i + 1) := by
      rw [feeds_iff_of_lineSites hsites, length_doublerPairs]
      exact ⟨by omega, by omega, .inl rfl⟩
    exact (W.starved_doubler h hf hsites (show i + 1 < k by omega) ih).2 hfeeds

/-- Each doubler gave the values that the line was supplied with, doubled once more than by the one
    before it. -/
theorem outputs_of_doubler (W : Wiring net) (h : Records net.system log s) (hf : s.finished = true)
    (hsites : net.sites = doublerSites k xs) (hi : i < k)
    (hcut : ∀ j, j < k → ¬net.CutOff log j) :
    net.outputs log i = xs.map fun x => wrap (2 ^ (i + 1) * x) := by
  induction i with
  | zero =>
    obtain ⟨hgave, -⟩ := W.starved_doubler h hf hsites hi (hcut 0 hi)
    rw [hgave, supply_stage hsites (getElem?_doublerPairs xs hi), if_pos rfl, upstream,
      List.append_nil]
    rfl
  | succ i ih =>
    obtain ⟨hgave, -⟩ := W.starved_doubler h hf hsites hi (hcut _ hi)
    rw [hgave, supply_stage hsites (getElem?_doublerPairs xs hi), if_neg (Nat.succ_ne_zero i),
      upstream, List.nil_append, ih (by omega), List.map_map]
    exact List.map_congr_left fun x _ => double_wrap_pow (i + 1) x

end Wiring

/-! ### What comes out -/

/-- In the end, the sink holds what the last doubler gave, and no doubler was cut off. -/
theorem Wiring.queue_of_doublers (W : Wiring net) (h : Records net.system log s)
    (hf : s.finished = true) (hsites : net.sites = doublerSites k xs) (hk : k ≠ 0)
    (hsinks : net.sinks = [⟨"output", 2 * k, []⟩]) :
    (s.board.channel (2 * k)).queue = net.outputs log (k - 1) ∧
      ∀ j, j < k → ¬net.CutOff log j := by
  have hlast : k - 1 < k := by omega
  obtain ⟨-, x, -, hx, -, hexits, -⟩ := exists_doubler hsites hlast
  have hsink : (⟨"output", 2 * k, []⟩ : Sink) ∈ net.sinks := by
    rw [hsinks]
    exact List.mem_singleton_self _
  have hcount : x.exits.count (2 * k) = 1 := by
    have hone := @count_lineExits_next false k _ hlast
    rwa [Nat.sub_add_cancel (Nat.one_le_iff_ne_zero.mpr hk), ← hexits] at hone
  obtain ⟨hqueue, hcut⟩ := W.queue_of_exit h hf hx hsink hcount
  exact ⟨hqueue, fun j hj => W.none_cut_off h hf hsites (Nat.le_sub_one_of_lt hj) hlast hcut⟩

/-- A line of doublers is built, and it may be run. -/
theorem exists_doublers (hk : k ≠ 0) (xs : List Int) :
    ∃ net, (line false (List.replicate k doubleProgram)
        (some (xs :: List.replicate (k - 1) []))).on (.empty none) = (.ok "output", net) ∧
      net.Built ∧ net.obstacle = none ∧ net.sinks = [⟨"output", 2 * k, []⟩] ∧
      net.sites = doublerSites k xs ∧ net.nodes.length = k := by
  have hprograms : List.replicate k doubleProgram ≠ [] := by
    rwa [Ne, List.replicate_eq_nil_iff]
  have hlen : ((some (xs :: List.replicate (k - 1) ([] : List Int))).getD
      ((List.replicate k doubleProgram).map fun _ => [])).length =
      (List.replicate k doubleProgram).length := by
    rw [Option.getD_some, List.length_cons, List.length_replicate, List.length_replicate]
    omega
  obtain ⟨net, hok, hbuilt, hsinks, hsites⟩ := on_line false hprograms hlen none
  have hfree := obstacle_of_line false hprograms hlen
  rw [List.length_replicate] at hsinks
  rw [hok] at hfree
  have hnodes : net.nodes.length = k := by
    rw [← length_sites, hsites, length_lineSites]
    exact length_doublerPairs k xs
  exact ⟨net, hok, hbuilt, hfree, hsinks, hsites, hnodes⟩

/-- In every interleaving that finishes, a line of `k` doublers succeeds, all its machines have
    halted, and the sink holds the values that were preloaded into the first one, each multiplied
    by `2 ^ k` and wrapped. -/
theorem doublers_scale (hk : k ≠ 0) (xs : List Int) :
    ∃ net, (line false (List.replicate k doubleProgram)
        (some (xs :: List.replicate (k - 1) []))).on (.empty none) = (.ok "output", net) ∧
      (∀ s, Reaches net.system s → s.finished = true →
        verdict s = .ok () ∧
        ((({ net with started := true } : Network).settle s).values "output").1 =
          xs.map (fun x => wrap (2 ^ k * x)) ∧
        (({ net with started := true } : Network).settle s).nodes.length = k ∧
        ∀ n ∈ (({ net with started := true } : Network).settle s).nodes,
          n.machine.phase = .halted) ∧
      ∀ fuel r net', net.run fuel = some (r, net') → r = .ok () := by
  obtain ⟨net, hok, hbuilt, hfree, hsinks, hsites, hnodes⟩ := exists_doublers hk xs
  obtain ⟨W⟩ := hbuilt.wiring
  have hall : ∀ s, Reaches net.system s → s.finished = true →
      verdict s = .ok () ∧
      ((({ net with started := true } : Network).settle s).values "output").1 =
        xs.map (fun x => wrap (2 ^ k * x)) ∧
      ∀ n ∈ (({ net with started := true } : Network).settle s).nodes,
        n.machine.phase = .halted := by
    intro s hs hf
    obtain ⟨log, h⟩ := exists_records_of_reaches hs
    have hhalted : ∀ i m, net.nodes[i]? = some m →
        ∃ w, s.workers[2 * i]? = some (.inl w) ∧ w.machine.phase = .halted ∧ w.fault = none := by
      intro i m hm
      have hi : i < k := hnodes ▸ (List.getElem?_eq_some_iff.mp hm).1
      obtain ⟨m', -, hm', -, -, -, hnever⟩ := exists_doubler hsites hi
      rw [hm] at hm'
      obtain rfl := Option.some.inj hm'
      exact halted_by_closure h hf hm hnever
    obtain ⟨hverdict, hphases⟩ :=
      verdict_and_machines (P := fun q => q.phase = .halted) h hhalted
    refine ⟨hverdict, ?_, hphases⟩
    -- the sink holds what the last doubler gave
    obtain ⟨hqueue, hcut⟩ := W.queue_of_doublers h hf hsites hk hsinks
    have hgave := W.outputs_of_doubler h hf hsites (show k - 1 < k by omega) hcut
    rw [Nat.sub_add_cancel (Nat.one_le_iff_ne_zero.mpr hk)] at hgave
    rw [values_of_only_sink hsinks, hqueue, hgave]
  refine ⟨net, hok, fun s hs hf => ?_, fun fuel r net' hrun => ?_⟩
  · obtain ⟨hverdict, hvalues, hphases⟩ := hall s hs hf
    exact ⟨hverdict, hvalues, List.length_mapIdx.trans hnodes, hphases⟩
  · obtain ⟨s, hs, hf, rfl, -⟩ := reaches_of_run_eq_some hfree hrun
    exact (hall s hs hf).1

/-- Two doublers on the largest word, whose double is `-2`. -/
theorem largestWord_doubled_twice :
    ∃ net, (line false [doubleProgram, doubleProgram] (some [[3, maxWord], []])).on (.empty none) =
        (.ok "output", net) ∧
      ∃ s, Reaches net.system s ∧ s.finished = true ∧ verdict s = .ok () ∧
        ((({ net with started := true } : Network).settle s).values "output").1 = [12, -4] ∧
        (({ net with started := true } : Network).settle s).nodes.length = 2 ∧
        ∀ n ∈ (({ net with started := true } : Network).settle s).nodes,
          n.machine.phase = .halted := by
  obtain ⟨net, hok, hall, -⟩ := doublers_scale (Nat.succ_ne_zero 1) [3, maxWord]
  have hnet : net = ((line false [doubleProgram, doubleProgram] (some [[3, maxWord], []])).on
      (.empty none)).2 := (congrArg Prod.snd hok).symm
  have hfinished :
      (net.system.follow (List.replicate 20 [0, 1, 2, 3]).flatten).finished = true := by
    rw [hnet]
    decide +kernel
  obtain ⟨hverdict, hvalues, hlength, hphases⟩ := hall _ (reaches_follow _ _) hfinished
  exact ⟨net, hok, _, reaches_follow _ _, hfinished, hverdict, hvalues, hlength, hphases⟩

end Network

end TapeNet
