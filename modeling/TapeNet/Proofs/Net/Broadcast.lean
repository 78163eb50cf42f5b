import TapeNet.Proofs.Net.Standalone

/-! # Broadcasts

    One source feeds any number of consumers, each with a sink of its own.
    What one consumer does is no concern of the others: it may halt early,
    fail or never read.

    - `on_broadcast`: a broadcast to at least one consumer is always built,
      and its layout is `broadcastSites`.
    - `feeds_of_broadcastSites`: only the source feeds anybody.
    - The source is faithful to what it gives alone, and so is every consumer
      to what it gives alone on its preload and the outputs of the source
      (`Wiring.faithful_consumer`). This holds for each consumer by itself,
      also where the source was cut off because all of them had stopped.
-/

namespace TapeNet

namespace Network

open NetworkM

/-! ### The layout -/

/-- The name of the sink of a consumer. -/
def consumerSink (i : Nat) : String := numbered "consumer" i ++ ".sink"

theorem consumerSink_injective {i j : Nat} (h : consumerSink i = consumerSink j) : i = j := by
  have hlists := congrArg String.toList h
  simp only [consumerSink, String.toList_append, List.append_cancel_right_eq] at hlists
  exact numbered_injective (String.toList_injective hlists)

theorem source_ne_numbered (i : Nat) : "source" ≠ numbered "consumer" i := by
  intro h
  have hheads := congrArg (fun name : String => name.toList.head?) h
  simp [numbered, toString] at hheads

/-- The layout of a broadcast in which the source has the exits `exits₀` and consumer `i` the exits
    `exits i`. -/
def broadcastSites (source inputs : List Int) (exits₀ : List Nat) (exits : Nat → List Nat)
    (pairs : List (List Int × List Int)) : List Site :=
  ⟨"source", .load { name := "source" } source, inputs, 0, exits₀⟩ ::
    numberedSites "consumer" 2 exits pairs

/-- The inboxes of the consumers. -/
def consumerInboxes (n : Nat) : List Nat := (List.range n).map fun i => 2 + 2 * i

/-- The sinks of the first consumers. -/
def consumerSinks (n k : Nat) : List Sink :=
  (List.range k).map fun i => ⟨consumerSink i, 2 + 2 * n + i, []⟩

variable {source inputs : List Int} {pairs : List (List Int × List Int)} {net : Network}
  {exits₀ : List Nat} {exits : Nat → List Nat}

/-- One more exit of a consumer. -/
theorem map_extend_broadcastSites (k d : Nat) :
    (broadcastSites source inputs exits₀ exits pairs).map
        (Site.extend (numbered "consumer" k) [d]) =
      broadcastSites source inputs exits₀
        (fun i => if i = k then exits i ++ [d] else exits i) pairs := by
  unfold broadcastSites
  rw [List.map_cons, map_extend_numberedSites]
  refine congrArg (· :: _) ?_
  exact if_neg (source_ne_numbered k)

/-- More exits of the source. -/
theorem map_extend_source (cs : List Nat) :
    (broadcastSites source inputs [] exits pairs).map (Site.extend "source" cs) =
      broadcastSites source inputs cs exits pairs := by
  unfold broadcastSites
  rw [List.map_cons]
  refine congrArg _ ?_
  -- no consumer has the name of the source
  refine (List.map_congr_left fun x hx => ?_).trans (List.map_id _)
  obtain ⟨i, hi⟩ := List.mem_iff_getElem?.mp hx
  rw [getElem?_numberedSites] at hi
  obtain ⟨p, -, rfl⟩ := Option.map_eq_some_iff.mp hi
  exact if_neg (source_ne_numbered i).symm

/-! ### What is built -/

/-- The source and the consumers can be built from nothing. -/
theorem exists_consumers (maxWorkers : Option Int) (source inputs : List Int)
    (pairs : List (List Int × List Int)) :
    ∃ net₁ net₂,
      on (addMachine "source" source inputs) (.empty maxWorkers) = (.ok (), net₁) ∧
      on (addMachines "consumer" 0 pairs) net₁ =
        (.ok ((List.range' 0 pairs.length).map (numbered "consumer")), net₂) ∧
      Drawn (broadcastSites source inputs [] (fun _ => []) pairs) [] (2 + 2 * pairs.length)
        net₂ := by
  obtain ⟨net₁, hok₁, h₁⟩ := (drawn_empty maxWorkers).addMachine "source"
    (fun x hx => absurd hx List.not_mem_nil) source inputs
  obtain ⟨net₂, hok₂, h₂⟩ := h₁.addMachines "consumer" 0
    (fun x hx i _ => by rw [List.mem_singleton.mp hx]; exact source_ne_numbered i) pairs
  refine ⟨net₁, net₂, hok₁, hok₂, ?_⟩
  simp only [Nat.zero_add] at h₂
  exact h₂

/-- The source can be wired to all consumers at once. -/
theorem Drawn.connectConsumers {c : Nat} (hne : pairs ≠ [])
    (h : Drawn (broadcastSites source inputs [] exits pairs) [] c net) :
    ∃ net', on (Network.connect "source"
          ((List.range' 0 pairs.length).map (numbered "consumer"))) net = (.ok (), net') ∧
      Drawn (broadcastSites source inputs (consumerInboxes pairs.length) exits pairs) [] c
        net' := by
  have htargets : ∀ t ∈ (List.range pairs.length).map fun i => (numbered "consumer" i, 2 + 2 * i),
      ∃ y ∈ broadcastSites source inputs [] exits pairs, y.name = t.1 ∧ y.inbox = t.2 := by
    intro t ht
    obtain ⟨i, hi, rfl⟩ := List.mem_map.mp ht
    obtain ⟨y, hy, hname⟩ :=
      exists_numberedSite "consumer" 2 exits (List.mem_range.mp hi)
    exact ⟨y, List.mem_cons_of_mem _ hy, hname⟩
  have hsome :
      (List.range pairs.length).map (fun i => (numbered "consumer" i, 2 + 2 * i)) ≠ [] := by
    simpa using hne
  obtain ⟨net', hok, h'⟩ := h.connect "source" ⟨_, List.mem_cons_self, rfl⟩ hsome
    htargets
  rw [List.map_map] at hok h'
  rw [map_extend_source] at h'
  refine ⟨net', ?_, h'⟩
  rw [← List.range_eq_range']
  exact hok

/-- The consumers from number `k` on can be given their sinks. -/
theorem Drawn.addConsumerSinks {n k m : Nat} (hn : n = pairs.length) (hm : k + m = n)
    (h : Drawn (broadcastSites source inputs exits₀ exits pairs) (consumerSinks n k)
      (2 + 2 * n + k) net) :
    ∃ net', on (((List.range' k m).map (numbered "consumer")).mapM fun name =>
          Network.addSink name none) net = (.ok ((List.range' k m).map consumerSink), net') ∧
      Drawn (broadcastSites source inputs exits₀
          (fun i => if k ≤ i ∧ i < n then exits i ++ [2 + 2 * n + i] else exits i) pairs)
        (consumerSinks n n) (2 + 2 * n + n) net' := by
  -- by induction on the number of consumers that have no sink yet
  induction m generalizing k exits net with
  | zero =>
    obtain rfl : k = n := by omega
    have hnone : ∀ i, ¬(k ≤ i ∧ i < k) := fun i => by omega
    refine ⟨net, rfl, ?_⟩
    simpa only [hnone, if_false] using h
  | succ m ih =>
    obtain ⟨x, hx, hname, -⟩ :=
      exists_numberedSite "consumer" 2 exits (show k < pairs.length by omega)
    have hfresh : ∀ j ∈ consumerSinks n k, j.name ≠
        (none : Option String).getD (numbered "consumer" k ++ ".sink") := by
      intro j hj heq
      obtain ⟨i, hi, rfl⟩ := List.mem_map.mp hj
      obtain rfl := consumerSink_injective heq
      exact Nat.lt_irrefl _ (List.mem_range.mp hi)
    obtain ⟨net₁, hok₁, h₁⟩ :=
      h.addSink ⟨x, List.mem_cons_of_mem _ hx, hname⟩ none hfresh
    rw [map_extend_broadcastSites] at h₁
    have hsinks : consumerSinks n k ++ [⟨consumerSink k, 2 + 2 * n + k, []⟩] =
        consumerSinks n (k + 1) := by
      unfold consumerSinks
      rw [List.range_succ, List.map_append, List.map_singleton]
    have hdrawn : Drawn (broadcastSites source inputs exits₀
        (fun i => if i = k then exits i ++ [2 + 2 * n + k] else exits i) pairs)
        (consumerSinks n (k + 1)) (2 + 2 * n + (k + 1)) net₁ := by
      rw [← hsinks]
      exact h₁
    obtain ⟨net₂, hok₂, h₂⟩ := ih (k := k + 1) (by omega) hdrawn
    refine ⟨net₂, ?_, ?_⟩
    · rw [List.range'_succ, List.map_cons, List.map_cons, List.mapM_cons, on_bind_of_ok hok₁,
        on_bind_of_ok hok₂]
      rfl
    · -- the two steps add exits to different consumers
      have hexits : (fun i => if k + 1 ≤ i ∧ i < n then
            (if i = k then exits i ++ [2 + 2 * n + k] else exits i) ++ [2 + 2 * n + i]
          else if i = k then exits i ++ [2 + 2 * n + k] else exits i) =
          fun i => if k ≤ i ∧ i < n then exits i ++ [2 + 2 * n + i] else exits i := by
        funext i
        by_cases hik : i = k
        · subst hik
          rw [if_neg (by omega), if_pos rfl, if_pos (by omega)]
        · simp only [if_neg hik]
          by_cases hi : k + 1 ≤ i ∧ i < n
          · rw [if_pos hi, if_pos (by omega)]
          · rw [if_neg hi, if_neg (by omega)]
      rw [← hexits]
      exact h₂

/-- A broadcast to at least one consumer is always built, and this is its layout. -/
theorem on_broadcast {consumers : List (List Int)} (hne : consumers ≠ [])
    {preloads : Option (List (List Int))}
    (hlen : (preloads.getD (consumers.map fun _ => [])).length = consumers.length)
    (source inputs : List Int) (maxWorkers : Option Int)
    (hpairs : pairs = consumers.zip (preloads.getD (consumers.map fun _ => []))) :
    ∃ net, on (broadcast source inputs consumers preloads) (.empty maxWorkers) =
        (.ok ((List.range pairs.length).map consumerSink), net) ∧
      net.Built ∧ net.sinks = consumerSinks pairs.length pairs.length ∧
      net.sites = broadcastSites source inputs (consumerInboxes pairs.length)
        (fun i => [2 + 2 * pairs.length + i]) pairs := by
  have hpairsne : pairs ≠ [] := by
    intro hnil
    have hzero := congrArg List.length (hpairs.symm.trans hnil)
    rw [List.length_zip, hlen, Nat.min_self] at hzero
    exact hne (List.length_eq_zero_iff.mp hzero)
  obtain ⟨net₁, net₂, hok₁, hok₂, h₂⟩ := exists_consumers maxWorkers source inputs pairs
  obtain ⟨net₃, hok₃, h₃⟩ := h₂.connectConsumers hpairsne
  obtain ⟨net₄, hok₄, h₄⟩ :=
    Drawn.addConsumerSinks (k := 0) (m := pairs.length) rfl (Nat.zero_add _) h₃
  have hpair : on (pairUp .unmatchedConsumerPreloads consumers preloads) (.empty maxWorkers) =
      (.ok pairs, .empty maxWorkers) := by
    rw [on_pairUp, if_neg (by simpa using hlen), hpairs]
  have hempty : consumers.isEmpty = false := by simpa using hne
  refine ⟨net₄, ?_, h₄.built, h₄.sinks_eq, ?_⟩
  · unfold broadcast
    simp only [hempty, Bool.false_eq_true, if_false]
    rw [on_bind_of_ok hpair, on_bind_of_ok hok₁, on_bind_of_ok hok₂, on_bind_of_ok hok₃, hok₄,
      List.range_eq_range']
  · rw [h₄.sites_eq]
    unfold broadcastSites
    congr 1
    -- every consumer is among the first ones
    refine List.ext_getElem? fun i => ?_
    rw [getElem?_numberedSites, getElem?_numberedSites]
    cases hi : pairs[i]? with
    | none => rfl
    | some p =>
      have hlt := (List.getElem?_eq_some_iff.mp hi).1
      simp [hlt]

/-! ### The graph -/

/-- The layout of a finished broadcast. -/
def broadcastLayout (source inputs : List Int) (pairs : List (List Int × List Int)) : List Site :=
  broadcastSites source inputs (consumerInboxes pairs.length)
    (fun i => [2 + 2 * pairs.length + i]) pairs

/-- The source as a node. -/
theorem exists_source (hsites : net.sites = broadcastLayout source inputs pairs) :
    ∃ m x, net.nodes[0]? = some m ∧ net.sites[0]? = some x ∧
      m.machine = .load { name := "source" } source ∧ m.preload = inputs ∧ m.inbox = 0 ∧
      x.exits = consumerInboxes pairs.length := by
  have hsite : net.sites[0]? = some ⟨"source", .load { name := "source" } source, inputs, 0,
      consumerInboxes pairs.length⟩ := by
    rw [hsites]
    rfl
  have hnode := hsite
  rw [getElem?_sites] at hnode
  obtain ⟨m, hm, hx⟩ := Option.map_eq_some_iff.mp hnode
  exact ⟨m, _, hm, hsite, congrArg Site.machine hx, congrArg Site.preload hx,
    congrArg Site.inbox hx, rfl⟩

/-- A consumer as a node. -/
theorem exists_consumer (hsites : net.sites = broadcastLayout source inputs pairs) {i : Nat}
    {p : List Int × List Int} (hp : pairs[i]? = some p) :
    ∃ m x, net.nodes[i + 1]? = some m ∧ net.sites[i + 1]? = some x ∧
      m.machine = .load { name := numbered "consumer" i } p.1 ∧ m.preload = p.2 ∧
      m.inbox = 2 + 2 * i ∧ x.exits = [2 + 2 * pairs.length + i] := by
  have hsite := getElem?_numberedSites "consumer" 2 (fun i => [2 + 2 * pairs.length + i]) pairs i
  rw [hp, Option.map_some] at hsite
  have hsite' : net.sites[i + 1]? = _ := (congrArg (·[i + 1]?) hsites).trans hsite
  have hnode := hsite'
  rw [getElem?_sites] at hnode
  obtain ⟨m, hm, hx⟩ := Option.map_eq_some_iff.mp hnode
  exact ⟨m, _, hm, hsite', congrArg Site.machine hx, congrArg Site.preload hx,
    congrArg Site.inbox hx, rfl⟩

/-- Each consumer has its inbox among the exits of the source once. -/
theorem count_consumerInboxes {n i : Nat} (hi : i < n) :
    (consumerInboxes n).count (2 + 2 * i) = 1 := by
  refine List.count_eq_one_of_mem ?_ (List.mem_map.mpr ⟨i, List.mem_range.mpr hi, rfl⟩)
  refine List.Nodup.map (fun a b hab => ?_) List.nodup_range
  have heq : 2 + 2 * a = 2 + 2 * b := hab
  omega

/-- Only the source feeds anybody, and nobody feeds the source. -/
theorem feeds_of_broadcastLayout (hsites : net.sites = broadcastLayout source inputs pairs)
    {i j : Nat} (hfeeds : net.Feeds i j) : i = 0 ∧ j ≠ 0 := by
  obtain ⟨x, y, hx, hy, hmem⟩ := feeds_iff.mp hfeeds
  -- every inbox is the channel of twice the number of its node
  have hinbox : y.inbox = 2 * j ∧ j ≤ pairs.length := by
    rw [hsites] at hy
    cases j with
    | zero =>
      cases hy
      exact ⟨rfl, Nat.zero_le _⟩
    | succ j =>
      have hsite : (numberedSites "consumer" 2 _ pairs)[j]? = some y := hy
      rw [getElem?_numberedSites] at hsite
      obtain ⟨p, hp, rfl⟩ := Option.map_eq_some_iff.mp hsite
      have hlt := (List.getElem?_eq_some_iff.mp hp).1
      exact ⟨by simp only; omega, hlt⟩
  rw [hsites] at hx
  cases i with
  | zero =>
    cases hx
    obtain ⟨l, -, hl⟩ := List.mem_map.mp hmem
    exact ⟨rfl, by omega⟩
  | succ i =>
    -- a consumer only sends to its sink
    have hsite : (numberedSites "consumer" 2 _ pairs)[i]? = some x := hx
    rw [getElem?_numberedSites] at hsite
    obtain ⟨p, -, rfl⟩ := Option.map_eq_some_iff.mp hsite
    have hsink := List.mem_singleton.mp hmem
    omega

/-! ### What comes out -/

section

open TapeNet.System

variable {s : System (Station ⊕ Relay)} {log : List Exchange} {given : List Int}
  {out : Nat → List Int} {ending₀ : Outcome} {ending : Nat → Outcome}

/-- In a broadcast that has finished, the source is faithful to what it gives alone. -/
theorem Wiring.faithful_source (W : Wiring net) (h : Records net.system log s)
    (hf : s.finished = true) (hsites : net.sites = broadcastLayout source inputs pairs)
    (halone : RunsAlone source inputs given ending₀) : net.Faithful log 0 given := by
  obtain ⟨m, -, hm, -, hload, hpreload, -⟩ := exists_source hsites
  have hnone : ∀ k, ¬net.Feeds k 0 := fun k hk => (feeds_of_broadcastLayout hsites hk).2 rfl
  have hyields := halone.yields { name := "source" }
  rw [← hload, ← hpreload, ← supply_of_no_source hm (hnone 0) fun _ => []] at hyields
  exact W.faithful h hf hm (fun k hk => absurd hk (hnone k)) (fun hk => absurd hk (hnone 0))
    hyields

/-- In a broadcast that has finished, a consumer is faithful to what it gives alone on its preload
    and the outputs of the source. -/
theorem Wiring.faithful_consumer (W : Wiring net) (h : Records net.system log s)
    (hf : s.finished = true) (hsites : net.sites = broadcastLayout source inputs pairs)
    (hsource : RunsAlone source inputs given ending₀) {i : Nat} {p : List Int × List Int}
    (hp : pairs[i]? = some p) {ys : List Int} {o : Outcome}
    (halone : RunsAlone p.1 (p.2 ++ given) ys o) : net.Faithful log (i + 1) ys := by
  obtain ⟨-, x, -, hx, -, -, -, hexits⟩ := exists_source hsites
  obtain ⟨m, -, hm, -, hload, hpreload, hinbox, -⟩ := exists_consumer hsites hp
  have hcount : x.exits.count m.inbox = 1 := by
    rw [hexits, hinbox]
    exact count_consumerInboxes (List.getElem?_eq_some_iff.mp hp).1
  have hyields := halone.yields { name := numbered "consumer" i }
  rw [← hload, ← hpreload, ← supply_of_exit hm hx hcount fun _ => given] at hyields
  exact W.faithful h hf hm (fun k hk => (feeds_of_broadcastLayout hsites hk).1)
    (fun _ => W.faithful_source h hf hsites hsource) hyields

/-- In a broadcast that has finished, the sink of a consumer holds what the consumer gives alone. -/
theorem Wiring.queue_of_consumer (W : Wiring net) (h : Records net.system log s)
    (hf : s.finished = true) (hsites : net.sites = broadcastLayout source inputs pairs)
    (hsinks : net.sinks = consumerSinks pairs.length pairs.length)
    (hsource : RunsAlone source inputs given ending₀) {i : Nat} {p : List Int × List Int}
    (hp : pairs[i]? = some p) {ys : List Int} {o : Outcome}
    (halone : RunsAlone p.1 (p.2 ++ given) ys o) :
    (s.board.channel (2 + 2 * pairs.length + i)).queue = ys := by
  obtain ⟨-, x, -, hx, -, -, -, hexits⟩ := exists_consumer hsites hp
  have hlt := (List.getElem?_eq_some_iff.mp hp).1
  have hsink : (⟨consumerSink i, 2 + 2 * pairs.length + i, []⟩ : Sink) ∈ net.sinks := by
    rw [hsinks]
    exact List.mem_map.mpr ⟨i, List.mem_range.mpr hlt, rfl⟩
  have hcount : x.exits.count (2 + 2 * pairs.length + i) = 1 := by
    rw [hexits, List.count_singleton_self]
  -- the sink keeps its receiver open, so this consumer is not cut off, whatever the others do
  obtain ⟨hqueue, hcut⟩ := W.queue_of_exit h hf hx hsink hcount
  rw [hqueue]
  exact (W.faithful_consumer h hf hsites hsource hp halone).eq_of_not_cut hcut

/-- The sinks of a broadcast are found by their names. -/
theorem sink?_of_consumerSinks {n i : Nat} (hsinks : net.sinks = consumerSinks n n) (hi : i < n) :
    net.sink? (consumerSink i) = some ⟨consumerSink i, 2 + 2 * n + i, []⟩ := by
  have hmem : (⟨consumerSink i, 2 + 2 * n + i, []⟩ : Sink) ∈ net.sinks := by
    rw [hsinks]
    exact List.mem_map.mpr ⟨i, List.mem_range.mpr hi, rfl⟩
  cases hfound : net.sink? (consumerSink i) with
  | none =>
    have hnone := List.find?_eq_none.mp hfound _ hmem
    simp at hnone
  | some k =>
    have hname : k.name = consumerSink i := by simpa using List.find?_some hfound
    have hk := List.mem_of_find?_eq_some hfound
    rw [hsinks] at hk
    obtain ⟨j, -, rfl⟩ := List.mem_map.mp hk
    rw [consumerSink_injective hname]

/-- In every interleaving of a broadcast that finishes, the sink of each consumer holds exactly what
    that consumer gives if it is run alone on its preload and on what the source gives alone,
    whatever becomes of the other consumers. -/
theorem broadcast_isolates_consumers {consumers : List (List Int)} (hne : consumers ≠ [])
    {preloads : Option (List (List Int))}
    (hlen : (preloads.getD (consumers.map fun _ => [])).length = consumers.length)
    (maxWorkers : Option Int) (hsource : RunsAlone source inputs given ending₀)
    (hconsumers : ∀ i p v, consumers[i]? = some p →
      (preloads.getD (consumers.map fun _ => []))[i]? = some v →
        RunsAlone p (v ++ given) (out i) (ending i)) :
    ∃ names net,
      (broadcast source inputs consumers preloads).on (.empty maxWorkers) = (.ok names, net) ∧
      names.length = consumers.length ∧
      ∀ s, Reaches net.system s → s.finished = true → ∀ i name, names[i]? = some name →
        ((({ net with started := true } : Network).settle s).values name).1 = out i := by
  obtain ⟨net, hok, hbuilt, hsinks, hsites⟩ := on_broadcast hne hlen source inputs maxWorkers rfl
  generalize hpairs : consumers.zip (preloads.getD (consumers.map fun _ => [])) = pairs at *
  have hlength : pairs.length = consumers.length := by
    rw [← hpairs, List.length_zip, hlen, Nat.min_self]
  refine ⟨_, net, hok, ?_, fun s hs hf i name hname => ?_⟩
  · rw [List.length_map, List.length_range, hlength]
  · obtain ⟨W⟩ := hbuilt.wiring
    obtain ⟨log, h⟩ := exists_records_of_reaches hs
    have hlt : i < pairs.length := by
      have := (List.getElem?_eq_some_iff.mp hname).1
      rwa [List.length_map, List.length_range] at this
    obtain ⟨p, hp⟩ : ∃ p, pairs[i]? = some p := ⟨_, List.getElem?_eq_getElem hlt⟩
    have hzip := hp
    rw [← hpairs] at hzip
    obtain ⟨hprogram, hpreload⟩ := List.getElem?_zip_eq_some.mp hzip
    have hqueue := W.queue_of_consumer h hf hsites hsinks hsource hp
      (hconsumers i _ _ hprogram hpreload)
    have hfound : ({ net with started := true } : Network).sink? name =
        some ⟨consumerSink i, 2 + 2 * pairs.length + i, []⟩ := by
      rw [List.getElem?_map, List.getElem?_range hlt] at hname
      obtain rfl := Option.some.inj hname
      exact sink?_of_consumerSinks hsinks hlt
    rw [values_settle, hfound]
    show [] ++ _ = _
    rw [List.nil_append, hqueue]

/-- One consumer halts early, one fails after its preload, one reads all and one never reads. -/
theorem mixedBroadcast_values :
    ∃ names net, (broadcast [104, 3, 104, 4, 99] []
        [[3, 0, 4, 0, 99], [3, 9, 4, 9, 98], [3, 9, 4, 9, 1105, 1, 0], [99]]
        (some [[], [7], [], []])).on (.empty none) = (.ok names, net) ∧ names.length = 4 ∧
      ∃ s, Reaches net.system s ∧ s.finished = true ∧ ∀ i name, names[i]? = some name →
        ((({ net with started := true } : Network).settle s).values name).1 =
          [[3], [7], [3, 4], []].getD i [] := by
  have hsource : RunsAlone [104, 3, 104, 4, 99] [] [3, 4] .halted := ⟨9, _, _, rfl, rfl⟩
  have hearly : RunsAlone [3, 0, 4, 0, 99] ([] ++ [3, 4]) [3] .halted := ⟨9, _, _, rfl, rfl⟩
  have hfailing : RunsAlone [3, 9, 4, 9, 98] ([7] ++ [3, 4]) [7]
      (.failed (.decode ⟨98, .unknownOpcode 98⟩)) := ⟨9, _, _, rfl, rfl⟩
  have hwhole : RunsAlone [3, 9, 4, 9, 1105, 1, 0] ([] ++ [3, 4]) [3, 4] (.stopped .exhausted) :=
    ⟨9, _, _, rfl, rfl⟩
  have hmute : RunsAlone [99] ([] ++ [3, 4]) [] .halted := ⟨9, _, _, rfl, rfl⟩
  let ending : Nat → Outcome := fun i =>
    [.halted, .failed (.decode ⟨98, .unknownOpcode 98⟩), .stopped .exhausted].getD i .halted
  have hconsumers : ∀ i p v,
      [[3, 0, 4, 0, 99], [3, 9, 4, 9, 98], [3, 9, 4, 9, 1105, 1, 0], [99]][i]? = some p →
      [[], [7], [], []][i]? = some v →
        RunsAlone p (v ++ [3, 4]) ([[3], [7], [3, 4], []].getD i []) (ending i) := by
    intro i p v hp hv
    match i with
    | 0 => cases hp; cases hv; exact hearly
    | 1 => cases hp; cases hv; exact hfailing
    | 2 => cases hp; cases hv; exact hwhole
    | 3 => cases hp; cases hv; exact hmute
    | i + 4 => cases hp
  have hne : ([[3, 0, 4, 0, 99], [3, 9, 4, 9, 98], [3, 9, 4, 9, 1105, 1, 0], [99]] :
      List (List Int)) ≠ [] := List.cons_ne_nil _ _
  obtain ⟨names, net, hok, hlen, hall⟩ := @broadcast_isolates_consumers _ _ _ _ _ _ _ hne
    (some [[], [7], [], []]) rfl none hsource hconsumers
  have hnet : net = ((broadcast [104, 3, 104, 4, 99] []
      [[3, 0, 4, 0, 99], [3, 9, 4, 9, 98], [3, 9, 4, 9, 1105, 1, 0], [99]]
      (some [[], [7], [], []])).on (.empty none)).2 := by rw [hok]
  have hfinished : (net.system.follow (List.replicate 24 (List.range 10)).flatten).finished =
      true := by
    rw [hnet]
    decide +kernel
  exact ⟨names, net, hok, hlen, _, reaches_follow _ _, hfinished,
    hall _ (reaches_follow _ _) hfinished⟩

end

end Network

end TapeNet
