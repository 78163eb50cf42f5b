import TapeNet.Proofs.Net.Tidy
import TapeNet.Proofs.Net.Wiring

/-! # The launch of a network

    How a network stands when its workers start: every inbox holds what was
    preloaded, all feeds are closed, and everything else is open.

    - `system_station` and `system_relay` name the two workers of a node, and
      `system_worker` says that there are no others.
    - `Preloaded` is what preloading does to the switchboard.
    - `tidy_system`: a network with a wiring starts tidy.
    - `exists_station` and `exists_relay` are the workers of a node at any
      later time.
    - `reaches_of_run_eq_some`: a run that nothing forbids ends in one of the
      interleavings.
-/

namespace TapeNet

/-! ### The workers of a node -/

/-- The station of a node at the start. -/
def Node.station (n : Node) : Station := .start n.machine n.inbox n.outlet

namespace Network

open Tenant

theorem getElem?_flatMap_pair {α β : Type} (f g : β → α) (l : List β) (i : Nat) :
    (l.flatMap fun x => [f x, g x])[2 * i]? = l[i]?.map f ∧
      (l.flatMap fun x => [f x, g x])[2 * i + 1]? = l[i]?.map g := by
  -- two at a time: the head of the list goes with the places 0 and 1
  induction l generalizing i with
  | nil => exact ⟨by simp, by simp⟩
  | cons x l ih =>
    cases i with
    | zero => exact ⟨rfl, rfl⟩
    | succ i =>
      obtain ⟨hf, hg⟩ := ih i
      constructor
      · rw [List.getElem?_cons_succ, ← hf]
        rfl
      · rw [List.getElem?_cons_succ, ← hg]
        rfl

variable {net : Network}

theorem getElem?_workers_system (j : Nat) :
    net.system.workers[j]? =
      (net.nodes.flatMap fun n =>
        [(Sum.inl n.station : Station ⊕ Relay), .inr n.relay.restart])[j]? :=
  List.getElem?_toArray

theorem system_station {i : Nat} {n : Node} (h : net.nodes[i]? = some n) :
    net.system.workers[2 * i]? = some (.inl n.station) := by
  rw [getElem?_workers_system, (getElem?_flatMap_pair _ _ _ i).1, h]
  rfl

theorem system_relay {i : Nat} {n : Node} (h : net.nodes[i]? = some n) :
    net.system.workers[2 * i + 1]? = some (.inr n.relay.restart) := by
  rw [getElem?_workers_system, (getElem?_flatMap_pair _ _ _ i).2, h]
  rfl

/-- Every worker is the station or the relay of a node. -/
theorem system_worker {j : Nat} {p : Station ⊕ Relay} (h : net.system.workers[j]? = some p) :
    ∃ i n, net.nodes[i]? = some n ∧
      ((j = 2 * i ∧ p = .inl n.station) ∨ (j = 2 * i + 1 ∧ p = .inr n.relay.restart)) := by
  rw [getElem?_workers_system] at h
  rcases Nat.mod_two_eq_zero_or_one j with hj | hj
  · have heven : j = 2 * (j / 2) := by omega
    rw [heven, (getElem?_flatMap_pair _ _ _ _).1] at h
    obtain ⟨n, hn, hp⟩ := Option.map_eq_some_iff.mp h
    exact ⟨j / 2, n, hn, .inl ⟨heven, hp.symm⟩⟩
  · have hodd : j = 2 * (j / 2) + 1 := by omega
    rw [hodd, (getElem?_flatMap_pair _ _ _ _).2] at h
    obtain ⟨n, hn, hp⟩ := Option.map_eq_some_iff.mp h
    exact ⟨j / 2, n, hn, .inr ⟨hodd, hp.symm⟩⟩

/-! ### Preloading -/

/-- What the preloading of some nodes does: their inputs are queued and their feeds are closed. -/
structure Preloaded (b : Switchboard) (nodes : List Node) (b' : Switchboard) : Prop where
  counted : b'.Counted
  channel_sender : ∀ t, (b'.sender t).channel = (b.sender t).channel
  isOpen_iff : ∀ t, (b'.sender t).isOpen = true ↔
    (b.sender t).isOpen = true ∧ ∀ n ∈ nodes, n.feed ≠ t
  receiverOpen : ∀ c, (b'.channel c).receiverOpen = (b.channel c).receiverOpen
  queue_inbox : ∀ n ∈ nodes, (b'.channel n.inbox).queue = (b.channel n.inbox).queue ++ n.preload
  queue_other : ∀ c, (∀ n ∈ nodes, n.inbox ≠ c) →
    (b'.channel c).queue = (b.channel c).queue

theorem preloaded_node {b : Switchboard} (hb : b.Counted) {n : Node}
    (ho : (b.sender n.feed).isOpen = true) (hc : (b.sender n.feed).channel = n.inbox)
    (hr : (b.channel n.inbox).receiverOpen = true) : Preloaded b [n] (preloadNode b n) := by
  rw [← hc] at hr
  obtain ⟨hsenders, hchannels⟩ := Switchboard.sendAll_eq ho hr n.preload
  rw [hc] at hchannels
  refine ⟨(hb.sendAll _ _).closeSender _, ?_, ?_, ?_, ?_, ?_⟩
  · intro t
    rw [preloadNode, Switchboard.sender_closeSender, hsenders]
    split
    · rfl
    · rfl
  · intro t
    rw [preloadNode, Switchboard.sender_closeSender, hsenders]
    by_cases ht : t = n.feed
    · simp [ht]
    · simp [ht, Ne.symm ht]
  · intro c
    rw [preloadNode, (Switchboard.channel_closeSender _ _ _).2, (hchannels c).1]
  · intro m hm
    obtain rfl := List.mem_singleton.mp hm
    rw [preloadNode, (Switchboard.channel_closeSender _ _ _).1, (hchannels _).2, if_pos rfl]
  · intro c hne
    have hne' := hne n (List.mem_singleton_self n)
    rw [preloadNode, (Switchboard.channel_closeSender _ _ _).1, (hchannels _).2,
      if_neg hne'.symm]

theorem preloaded_foldl {b : Switchboard} (hb : b.Counted) {nodes : List Node}
    (ho : ∀ n ∈ nodes, (b.sender n.feed).isOpen = true ∧ (b.sender n.feed).channel = n.inbox ∧
      (b.channel n.inbox).receiverOpen = true)
    (hd : nodes.Pairwise fun n m => n.feed ≠ m.feed ∧ n.inbox ≠ m.inbox) :
    Preloaded b nodes (nodes.foldl preloadNode b) := by
  induction nodes generalizing b with
  | nil =>
    refine ⟨hb, fun _ => rfl, ?_, fun _ => rfl, ?_, fun _ _ => rfl⟩
    · exact fun t => ⟨fun h => ⟨h, fun n hn => absurd hn List.not_mem_nil⟩, fun h => h.1⟩
    · exact fun n hn => absurd hn List.not_mem_nil
  | cons n nodes ih =>
    obtain ⟨hfirst, hrest⟩ := List.pairwise_cons.mp hd
    obtain ⟨hno, hnc, hnr⟩ := ho n List.mem_cons_self
    have h1 := preloaded_node hb hno hnc hnr
    -- the first node leaves the feeds and inboxes of the others alone
    have h2 : Preloaded (preloadNode b n) nodes (nodes.foldl preloadNode (preloadNode b n)) := by
      refine ih h1.counted (fun m hm => ?_) hrest
      obtain ⟨hmo, hmc, hmr⟩ := ho m (List.mem_cons_of_mem n hm)
      refine ⟨(h1.isOpen_iff _).mpr ⟨hmo, ?_⟩, ?_, ?_⟩
      · intro x hx
        obtain rfl := List.mem_singleton.mp hx
        exact (hfirst m hm).1
      · rw [h1.channel_sender, hmc]
      · rw [h1.receiverOpen, hmr]
    refine ⟨h2.counted, ?_, ?_, ?_, ?_, ?_⟩
    · intro t
      rw [List.foldl_cons, h2.channel_sender, h1.channel_sender]
    · intro t
      rw [List.foldl_cons, h2.isOpen_iff, h1.isOpen_iff]
      simp only [List.mem_cons, List.not_mem_nil, or_false, forall_eq, forall_eq_or_imp, and_assoc]
    · intro c
      rw [List.foldl_cons, h2.receiverOpen, h1.receiverOpen]
    · intro m hm
      rw [List.foldl_cons]
      rcases List.mem_cons.mp hm with rfl | hmem
      · rw [h2.queue_other _ fun x hx => (hfirst x hx).2.symm,
          h1.queue_inbox _ (List.mem_singleton_self _)]
      · rw [h2.queue_inbox m hmem, h1.queue_other]
        intro x hx
        obtain rfl := List.mem_singleton.mp hx
        exact (hfirst m hmem).2
    · intro c hne
      rw [List.foldl_cons, h2.queue_other c fun x hx => hne x (List.mem_cons_of_mem n hx),
        h1.queue_other]
      intro x hx
      obtain rfl := List.mem_singleton.mp hx
      exact hne x List.mem_cons_self

/-! ### The start -/

namespace Wiring

/-- Preloading does to a network's switchboard what it should. -/
theorem preloaded (W : Wiring net) : Preloaded net.board net.nodes net.system.board := by
  refine preloaded_foldl W.counted (fun n hn => ?_) ?_
  · have h := W.placed n hn
    exact ⟨W.isOpen _ h.feed_lt, h.feed_channel, (W.idle _ h.inbox_lt).2⟩
  · have hnames : net.nodes.Pairwise fun n m => n.name ≠ m.name :=
      List.pairwise_map.mp W.names_nodup
    refine hnames.imp_of_mem fun {n m} hn hm hne => ⟨?_, ?_⟩
    · intro heq
      have howner := (W.placed n hn).feed_owner
      rw [heq, (W.placed m hm).feed_owner] at howner
      exact hne (Owner.feed.inj howner).symm
    · intro heq
      have huse := (W.placed n hn).inbox_use
      rw [heq, (W.placed m hm).inbox_use] at huse
      exact hne (Use.inbox.inj huse).symm

/-- Nodes with the same name stand at the same place. -/
theorem index_eq (W : Wiring net) {i j : Nat} {n m : Node} (hn : net.nodes[i]? = some n)
    (hm : net.nodes[j]? = some m) (h : n.name = m.name) : i = j := by
  obtain ⟨hi, -⟩ := List.getElem?_eq_some_iff.mp hn
  have hlt : i < (net.nodes.map (·.name)).length := by rwa [List.length_map]
  refine (List.getElem?_inj hlt W.names_nodup).mp ?_
  rw [List.getElem?_map, List.getElem?_map, hn, hm]
  exact congrArg some h

/-- A sender that is held at the start is the outlet or a target of the node that holds it. -/
theorem owner_of_holds (W : Wiring net) {j : Nat} {p : Station ⊕ Relay} {t : Nat}
    (hp : net.system.workers[j]? = some p) (ht : t ∈ holds p) :
    ∃ i n, net.nodes[i]? = some n ∧
      ((j = 2 * i ∧ t = n.outlet ∧ W.owner t = .outlet n.name) ∨
        (j = 2 * i + 1 ∧ t ∈ n.relay.targets ∧ W.owner t = .relay n.name)) := by
  obtain ⟨i, n, hn, ⟨rfl, rfl⟩ | ⟨rfl, rfl⟩⟩ := system_worker hp
  · obtain rfl := List.mem_singleton.mp (show t ∈ [n.outlet] from ht)
    exact ⟨i, n, hn, .inl ⟨rfl, rfl, (W.placed n (List.mem_of_getElem? hn)).outlet_owner⟩⟩
  · have hmem : t ∈ n.relay.targets := ht
    exact ⟨i, n, hn, .inr ⟨rfl, hmem,
      (W.placed n (List.mem_of_getElem? hn)).target_owner t hmem⟩⟩

/-- A receiver that is held at the start is the inbox or the outbox of the node that holds it. -/
theorem use_of_reads (W : Wiring net) {j : Nat} {p : Station ⊕ Relay} {c : Nat}
    (hp : net.system.workers[j]? = some p) (hc : c ∈ reads p) :
    ∃ i n, net.nodes[i]? = some n ∧
      ((j = 2 * i ∧ c = n.inbox ∧ W.use c = .inbox n.name) ∨
        (j = 2 * i + 1 ∧ c = n.relay.inbound ∧ W.use c = .outbox n.name)) := by
  obtain ⟨i, n, hn, ⟨rfl, rfl⟩ | ⟨rfl, rfl⟩⟩ := system_worker hp
  · obtain rfl := List.mem_singleton.mp (show c ∈ [n.inbox] from hc)
    exact ⟨i, n, hn, .inl ⟨rfl, rfl, (W.placed n (List.mem_of_getElem? hn)).inbox_use⟩⟩
  · obtain rfl := List.mem_singleton.mp (show c ∈ [n.relay.inbound] from hc)
    exact ⟨i, n, hn, .inr ⟨rfl, rfl, (W.placed n (List.mem_of_getElem? hn)).outbox_use⟩⟩

/-- A network with a wiring starts tidy. -/
theorem tidy_system (W : Wiring net) : net.system.Tidy where
  counted := W.preloaded.counted
  sound {j p} hp := by
    obtain ⟨i, n, hn, ⟨-, rfl⟩ | ⟨-, rfl⟩⟩ := system_worker hp
    · trivial
    · exact ⟨(W.placed n (List.mem_of_getElem? hn)).targets_nodup, trivial⟩
  isOpen_iff t := by
    rw [W.preloaded.isOpen_iff]
    constructor
    · rintro ⟨ho, hfeed⟩
      obtain ⟨n, hn, h⟩ := W.owned t (Switchboard.lt_size_of_isOpen ho)
      obtain ⟨i, hi⟩ := List.mem_iff_getElem?.mp hn
      -- the feeds are closed by now, and the workers hold everything else
      rcases h with rfl | rfl | hmem
      · exact absurd rfl (hfeed n hn)
      · exact ⟨2 * i, _, system_station hi, List.mem_singleton_self _⟩
      · exact ⟨2 * i + 1, _, system_relay hi, hmem⟩
    · rintro ⟨j, p, hp, ht⟩
      obtain ⟨i, n, hn, h⟩ := W.owner_of_holds hp ht
      have hplaced := W.placed n (List.mem_of_getElem? hn)
      constructor
      · rcases h with ⟨-, rfl, -⟩ | ⟨-, hmem, -⟩
        · exact W.isOpen _ hplaced.outlet_lt
        · exact W.isOpen _ (hplaced.target_lt t hmem)
      · rintro m hm rfl
        have howner := (W.placed m hm).feed_owner
        rcases h with ⟨-, -, h⟩ | ⟨-, -, h⟩
        · rw [howner] at h
          cases h
        · rw [howner] at h
          cases h
  holder_unique {j k p q t} hp hq ht ht' := by
    obtain ⟨i, n, hn, h⟩ := W.owner_of_holds hp ht
    obtain ⟨i', n', hn', h'⟩ := W.owner_of_holds hq ht'
    -- a sender has one owner, which says whether a station or a relay holds it
    rcases h with ⟨rfl, -, h⟩ | ⟨rfl, -, h⟩ <;> rcases h' with ⟨rfl, -, h'⟩ | ⟨rfl, -, h'⟩
    · rw [h] at h'
      rw [W.index_eq hn hn' (Owner.outlet.inj h')]
    · rw [h] at h'
      cases h'
    · rw [h] at h'
      cases h'
    · rw [h] at h'
      rw [W.index_eq hn hn' (Owner.relay.inj h')]
  receiverOpen {j p c} hp hc := by
    rw [W.preloaded.receiverOpen]
    obtain ⟨i, n, hn, ⟨-, rfl, -⟩ | ⟨-, rfl, -⟩⟩ := W.use_of_reads hp hc
    · exact (W.idle _ (W.placed n (List.mem_of_getElem? hn)).inbox_lt).2
    · exact (W.idle _ (W.placed n (List.mem_of_getElem? hn)).outbox_lt).2
  reader_unique {j k p q c} hp hq hc hc' := by
    obtain ⟨i, n, hn, h⟩ := W.use_of_reads hp hc
    obtain ⟨i', n', hn', h'⟩ := W.use_of_reads hq hc'
    rcases h with ⟨rfl, -, h⟩ | ⟨rfl, -, h⟩ <;> rcases h' with ⟨rfl, -, h'⟩ | ⟨rfl, -, h'⟩
    · rw [h] at h'
      rw [W.index_eq hn hn' (Use.inbox.inj h')]
    · rw [h] at h'
      cases h'
    · rw [h] at h'
      cases h'
    · rw [h] at h'
      rw [W.index_eq hn hn' (Use.outbox.inj h')]

end Wiring

/-! ### The workers later on -/

open Process TapeNet.System

variable {s : System (Station ⊕ Relay)} {log : List Exchange}

/-- The station of a node is always there, with the endpoints that it started with. -/
theorem exists_station (h : Records net.system log s) {i : Nat} {n : Node}
    (hn : net.nodes[i]? = some n) :
    ∃ w, s.workers[2 * i]? = some (.inl w) ∧ Story n.station (heard (2 * i) log) w ∧
      w.inbox = n.inbox ∧ w.outlet = n.outlet := by
  obtain ⟨p, hp, hstory⟩ := h.exists_worker (system_station hn)
  obtain ⟨w, rfl, hw⟩ := hstory.inl
  exact ⟨w, hp, hw, hw.keeps Station.inbox Station.inbox_resume,
    hw.keeps Station.outlet Station.outlet_resume⟩

/-- The relay of a node is always there, with the channel that it started with. -/
theorem exists_relay (h : Records net.system log s) {i : Nat} {n : Node}
    (hn : net.nodes[i]? = some n) :
    ∃ r, s.workers[2 * i + 1]? = some (.inr r) ∧
      Story n.relay.restart (heard (2 * i + 1) log) r ∧ r.inbound = n.relay.inbound := by
  obtain ⟨p, hp, hstory⟩ := h.exists_worker (system_relay hn)
  obtain ⟨r, rfl, hr⟩ := hstory.inr
  exact ⟨r, hp, hr, hr.keeps Relay.inbound Relay.inbound_resume⟩

/-- Every worker is the station or the relay of a node. -/
theorem worker_cases (h : Records net.system log s) {j : Nat} {p : Station ⊕ Relay}
    (hp : s.workers[j]? = some p) :
    ∃ i n, net.nodes[i]? = some n ∧
      ((j = 2 * i ∧ ∃ w, p = .inl w) ∨ (j = 2 * i + 1 ∧ ∃ r, p = .inr r)) := by
  obtain ⟨p₀, hp₀, hstory⟩ := h.story hp
  obtain ⟨i, n, hn, ⟨rfl, rfl⟩ | ⟨rfl, rfl⟩⟩ := system_worker hp₀
  · obtain ⟨w, rfl, -⟩ := hstory.inl
    exact ⟨i, n, hn, .inl ⟨rfl, w, rfl⟩⟩
  · obtain ⟨r, rfl, -⟩ := hstory.inr
    exact ⟨i, n, hn, .inr ⟨rfl, r, rfl⟩⟩

/-! ### Whole runs -/

/-- The run of a network that may be run is one of its interleavings. -/
theorem reaches_of_run_eq_some (hfree : net.obstacle = none) {fuel : Nat}
    {r : Except NetworkError Unit} {net' : Network} (hrun : net.run fuel = some (r, net')) :
    ∃ s, Reaches net.system s ∧ s.finished = true ∧ r = verdict s ∧
      net' = ({ net with started := true } : Network).settle s := by
  rw [Network.run, hfree] at hrun
  obtain ⟨s, hs, hresult⟩ := Option.bind_eq_some_iff.mp hrun
  obtain ⟨hreaches, hf⟩ := reaches_of_run hs
  obtain ⟨hr, hnet⟩ := Prod.mk.inj (Option.some.inj hresult)
  exact ⟨s, hreaches, hf, hr.symm, hnet.symm⟩

end Network

end TapeNet
