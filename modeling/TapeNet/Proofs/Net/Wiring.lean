import TapeNet.Proofs.Net.Construction

/-! # Wirings

    Channels and senders are numbers; the wiring of a network says what each
    of them is for.

    - `Use`: a channel is the inbox of a node, the outbox of a node or a sink.
    - `Owner`: a sender is the feed of a node, its outlet or a target of its
      relay.
    - `Wiring net` gives every channel one use and every sender one owner, so
      that no two nodes share an endpoint. Every network that can be built
      has a wiring (`Built.wiring`).
    - `Feeds` is the graph of a network: some relay target of one node
      belongs to the inbox of another.
-/

namespace TapeNet

namespace Network

/-- What a channel is for. -/
inductive Use
  | inbox (node : String)
  | outbox (node : String)
  | sink (name : String)
deriving DecidableEq

/-- Whose sender it is. -/
inductive Owner
  | feed (node : String)
  | outlet (node : String)
  | relay (node : String)
deriving DecidableEq

/-! ### Growing switchboards -/

/-- A switchboard on which more was opened, while nothing that was there has changed. -/
structure Grows (b b' : Switchboard) : Prop where
  channels_le : b.channels.size ≤ b'.channels.size
  senders_le : b.senders.size ≤ b'.senders.size
  sender_eq : ∀ t, t < b.senders.size → b'.sender t = b.sender t
  channel_eq : ∀ c, c < b.channels.size →
    (b'.channel c).queue = (b.channel c).queue ∧
      (b'.channel c).receiverOpen = (b.channel c).receiverOpen

theorem Grows.trans {a b c : Switchboard} (h : Grows a b) (h' : Grows b c) : Grows a c where
  channels_le := h.channels_le.trans h'.channels_le
  senders_le := h.senders_le.trans h'.senders_le
  sender_eq t ht := (h'.sender_eq t (ht.trans_le h.senders_le)).trans (h.sender_eq t ht)
  channel_eq d hd := by
    obtain ⟨hq, hr⟩ := h.channel_eq d hd
    obtain ⟨hq', hr'⟩ := h'.channel_eq d (hd.trans_le h.channels_le)
    exact ⟨hq'.trans hq, hr'.trans hr⟩

theorem grows_openChannel (b : Switchboard) (name : String) :
    Grows b (b.openChannel name).2 where
  channels_le := by simp
  senders_le := by simp
  sender_eq t ht := by rw [Switchboard.sender_openChannel, if_neg ht.ne]
  channel_eq c hc := by
    rw [Switchboard.channel_openChannel, if_neg hc.ne]
    exact ⟨rfl, rfl⟩

theorem grows_withSender (b : Switchboard) (c : Nat) : Grows b (b.withSender c) where
  channels_le := by simp
  senders_le := by simp
  sender_eq t ht := by rw [Switchboard.sender_withSender, if_neg ht.ne]
  channel_eq d _ := by
    rw [Switchboard.channel_withSender]
    split
    · next h => rw [h.1]; exact ⟨rfl, rfl⟩
    · exact ⟨rfl, rfl⟩

theorem grows_withMachine (net : Network) (name : String) (program inputs : List Int) :
    Grows net.board (net.withMachine name program inputs).board :=
  (grows_openChannel _ _).trans (grows_openChannel _ _)

/-! ### The place of a node -/

/-- A fresh node whose endpoints exist, are its own and belong to its channels. -/
structure Placed (use : Nat → Use) (owner : Nat → Owner) (b : Switchboard) (n : Node) : Prop where
  fresh : ∃ program, n.machine = .load { name := n.name } program
  inbox_lt : n.inbox < b.channels.size
  inbox_use : use n.inbox = .inbox n.name
  outbox_lt : n.relay.inbound < b.channels.size
  outbox_use : use n.relay.inbound = .outbox n.name
  feed_lt : n.feed < b.senders.size
  feed_owner : owner n.feed = .feed n.name
  feed_channel : (b.sender n.feed).channel = n.inbox
  outlet_lt : n.outlet < b.senders.size
  outlet_owner : owner n.outlet = .outlet n.name
  outlet_channel : (b.sender n.outlet).channel = n.relay.inbound
  targets_nodup : n.relay.targets.Nodup
  target_lt : ∀ t ∈ n.relay.targets, t < b.senders.size
  target_owner : ∀ t ∈ n.relay.targets, owner t = .relay n.name

theorem Placed.grow {use use' : Nat → Use} {owner owner' : Nat → Owner} {b b' : Switchboard}
    {n : Node} (h : Placed use owner b n) (hg : Grows b b')
    (huse : ∀ c, c < b.channels.size → use' c = use c)
    (howner : ∀ t, t < b.senders.size → owner' t = owner t) : Placed use' owner' b' n where
  fresh := h.fresh
  inbox_lt := h.inbox_lt.trans_le hg.channels_le
  inbox_use := (huse _ h.inbox_lt).trans h.inbox_use
  outbox_lt := h.outbox_lt.trans_le hg.channels_le
  outbox_use := (huse _ h.outbox_lt).trans h.outbox_use
  feed_lt := h.feed_lt.trans_le hg.senders_le
  feed_owner := (howner _ h.feed_lt).trans h.feed_owner
  feed_channel := by rw [hg.sender_eq _ h.feed_lt, h.feed_channel]
  outlet_lt := h.outlet_lt.trans_le hg.senders_le
  outlet_owner := (howner _ h.outlet_lt).trans h.outlet_owner
  outlet_channel := by rw [hg.sender_eq _ h.outlet_lt, h.outlet_channel]
  targets_nodup := h.targets_nodup
  target_lt t ht := (h.target_lt t ht).trans_le hg.senders_le
  target_owner t ht := (howner t (h.target_lt t ht)).trans (h.target_owner t ht)

/-- A node can be given a target that nobody else has. -/
theorem Placed.addTarget {use : Nat → Use} {owner : Nat → Owner} {b : Switchboard} {n : Node}
    (h : Placed use owner b n) {t : Nat} (ht : t < b.senders.size)
    (howner : owner t = .relay n.name) (hnew : t ∉ n.relay.targets) :
    Placed use owner b { n with relay := n.relay.addTarget t } where
  fresh := h.fresh
  inbox_lt := h.inbox_lt
  inbox_use := h.inbox_use
  outbox_lt := h.outbox_lt
  outbox_use := h.outbox_use
  feed_lt := h.feed_lt
  feed_owner := h.feed_owner
  feed_channel := h.feed_channel
  outlet_lt := h.outlet_lt
  outlet_owner := h.outlet_owner
  outlet_channel := h.outlet_channel
  targets_nodup := by
    show (n.relay.targets ++ [t]).Nodup
    refine List.nodup_append.mpr ⟨h.targets_nodup, List.nodup_singleton t, ?_⟩
    intro u hu v hv huv
    obtain rfl := List.mem_singleton.mp hv
    exact hnew (huv ▸ hu)
  target_lt u hu := by
    rcases List.mem_append.mp hu with hold | hlast
    · exact h.target_lt u hold
    · obtain rfl := List.mem_singleton.mp hlast
      exact ht
  target_owner u hu := by
    rcases List.mem_append.mp hu with hold | hlast
    · exact h.target_owner u hold
    · obtain rfl := List.mem_singleton.mp hlast
      exact howner

/-! ### Wirings -/

/-- A use for every channel and an owner for every sender of a network that has not run yet. -/
structure Wiring (net : Network) where
  use : Nat → Use
  owner : Nat → Owner
  not_started : net.started = false
  names_nodup : (net.nodes.map (·.name)).Nodup
  counted : net.board.Counted
  idle : ∀ c, c < net.board.channels.size →
    (net.board.channel c).queue = [] ∧ (net.board.channel c).receiverOpen = true
  isOpen : ∀ t, t < net.board.senders.size → (net.board.sender t).isOpen = true
  placed : ∀ n ∈ net.nodes, Placed use owner net.board n
  owned : ∀ t, t < net.board.senders.size →
    ∃ n ∈ net.nodes, t = n.feed ∨ t = n.outlet ∨ t ∈ n.relay.targets
  aim : ∀ n ∈ net.nodes, ∀ t ∈ n.relay.targets,
    (∃ m ∈ net.nodes, (net.board.sender t).channel = m.inbox) ∨
      ∃ k ∈ net.sinks, (net.board.sender t).channel = k.channel
  sink_lt : ∀ k ∈ net.sinks, k.channel < net.board.channels.size
  sink_use : ∀ k ∈ net.sinks, use k.channel = .sink k.name
  uncollected : ∀ k ∈ net.sinks, k.collected = []
  sink_sender : ∀ k ∈ net.sinks, ∀ t u, t < net.board.senders.size →
    u < net.board.senders.size → (net.board.sender t).channel = k.channel →
      (net.board.sender u).channel = k.channel → t = u

namespace Wiring

/-- The wiring of a network without nodes. -/
def empty (maxWorkers : Option Int) : Wiring (.empty maxWorkers) where
  use _ := .sink ""
  owner _ := .feed ""
  not_started := rfl
  names_nodup := List.nodup_nil
  counted c := by
    rw [Switchboard.channel_of_size_le (Nat.zero_le c)]
    rfl
  idle c hc := absurd hc (Nat.not_lt_zero c)
  isOpen t ht := absurd ht (Nat.not_lt_zero t)
  placed n hn := absurd hn List.not_mem_nil
  owned t ht := absurd ht (Nat.not_lt_zero t)
  aim n hn := absurd hn List.not_mem_nil
  sink_lt k hk := absurd hk List.not_mem_nil
  sink_use k hk := absurd hk List.not_mem_nil
  uncollected k hk := absurd hk List.not_mem_nil
  sink_sender k hk := absurd hk List.not_mem_nil

variable {net : Network}

/-- Every sender belongs to a channel. -/
theorem channel_lt (W : Wiring net) {t : Nat} (ht : t < net.board.senders.size) :
    (net.board.sender t).channel < net.board.channels.size := by
  obtain ⟨n, hn, rfl | rfl | hmem⟩ := W.owned t ht
  · rw [(W.placed n hn).feed_channel]
    exact (W.placed n hn).inbox_lt
  · rw [(W.placed n hn).outlet_channel]
    exact (W.placed n hn).outbox_lt
  · rcases W.aim n hn t hmem with ⟨m, hm, hc⟩ | ⟨k, hk, hc⟩
    · rw [hc]
      exact (W.placed m hm).inbox_lt
    · rw [hc]
      exact W.sink_lt k hk

/-- Nodes with the same name are the same node. -/
theorem eq_of_name_eq (W : Wiring net) {n m : Node} (hn : n ∈ net.nodes) (hm : m ∈ net.nodes)
    (h : n.name = m.name) : n = m :=
  List.inj_on_of_nodup_map W.names_nodup hn hm h

/-- The outlet of a node is the sender of its outbox. -/
theorem use_outlet (W : Wiring net) {n : Node} (hn : n ∈ net.nodes) :
    W.use (net.board.sender n.outlet).channel = .outbox n.name := by
  rw [(W.placed n hn).outlet_channel, (W.placed n hn).outbox_use]

/-- A target of a node belongs to an inbox or to a sink. -/
theorem use_target (W : Wiring net) {n : Node} (hn : n ∈ net.nodes) {t : Nat}
    (ht : t ∈ n.relay.targets) :
    (∃ node, W.use (net.board.sender t).channel = .inbox node) ∨
      ∃ name, W.use (net.board.sender t).channel = .sink name := by
  rcases W.aim n hn t ht with ⟨m, hm, hc⟩ | ⟨k, hk, hc⟩
  · rw [hc, (W.placed m hm).inbox_use]
    exact .inl ⟨m.name, rfl⟩
  · rw [hc, W.sink_use k hk]
    exact .inr ⟨k.name, rfl⟩

/-- A node with a new name can be added. -/
def withMachine (W : Wiring net) {name : String} (hnew : ∀ n ∈ net.nodes, n.name ≠ name)
    (program inputs : List Int) : Wiring (net.withMachine name program inputs) where
  use c :=
    if c = net.board.channels.size then .inbox name
    else if c = net.board.channels.size + 1 then .outbox name
    else W.use c
  owner t :=
    if t = net.board.senders.size then .feed name
    else if t = net.board.senders.size + 1 then .outlet name
    else W.owner t
  not_started := W.not_started
  names_nodup := by
    show ((net.nodes ++ [_]).map _).Nodup
    rw [List.map_append]
    refine List.nodup_append.mpr ⟨W.names_nodup, List.nodup_singleton _, ?_⟩
    intro a ha b hb hab
    obtain ⟨n, hn, rfl⟩ := List.mem_map.mp ha
    obtain rfl := List.mem_singleton.mp hb
    exact hnew n hn hab
  counted := (W.counted.openChannel _).openChannel _
  idle c hc := by
    rw [size_channels_withMachine] at hc
    rw [channel_withMachine]
    split
    · exact ⟨rfl, rfl⟩
    · split
      · exact ⟨rfl, rfl⟩
      · exact W.idle c (by omega)
  isOpen t ht := by
    rw [size_senders_withMachine] at ht
    rw [sender_withMachine]
    split
    · rfl
    · split
      · rfl
      · exact W.isOpen t (by omega)
  placed n hn := by
    rcases List.mem_append.mp hn with hold | hlast
    · refine (W.placed n hold).grow (grows_withMachine net name program inputs) ?_ ?_
      · intro c hc
        rw [if_neg hc.ne, if_neg (by omega)]
      · intro t ht
        rw [if_neg ht.ne, if_neg (by omega)]
    · obtain rfl := List.mem_singleton.mp hlast
      exact {
        fresh := ⟨program, rfl⟩
        inbox_lt := by rw [size_channels_withMachine]; exact Nat.lt_add_of_pos_right Nat.two_pos
        inbox_use := by simp
        outbox_lt := by rw [size_channels_withMachine]; exact Nat.lt_succ_self _
        outbox_use := by simp [Relay.create]
        feed_lt := by rw [size_senders_withMachine]; exact Nat.lt_add_of_pos_right Nat.two_pos
        feed_owner := by simp
        feed_channel := by simp [sender_withMachine]
        outlet_lt := by rw [size_senders_withMachine]; exact Nat.lt_succ_self _
        outlet_owner := by simp
        outlet_channel := by simp [sender_withMachine, Relay.create]
        targets_nodup := List.nodup_nil
        target_lt := fun t ht => absurd ht List.not_mem_nil
        target_owner := fun t ht => absurd ht List.not_mem_nil }
  owned t ht := by
    rw [size_senders_withMachine] at ht
    by_cases hold : t < net.board.senders.size
    · obtain ⟨n, hn, h⟩ := W.owned t hold
      exact ⟨n, List.mem_append_left _ hn, h⟩
    · -- the two new senders are the feed and the outlet of the new node
      refine ⟨_, List.mem_append_right _ (List.mem_singleton_self _), ?_⟩
      show t = net.board.senders.size ∨ t = net.board.senders.size + 1 ∨ _
      omega
  aim n hn t ht := by
    rcases List.mem_append.mp hn with hold | hlast
    · have hlt := (W.placed n hold).target_lt t ht
      rw [(grows_withMachine net name program inputs).sender_eq t hlt]
      rcases W.aim n hold t ht with ⟨m, hm, hc⟩ | ⟨k, hk, hc⟩
      · exact .inl ⟨m, List.mem_append_left _ hm, hc⟩
      · exact .inr ⟨k, hk, hc⟩
    · obtain rfl := List.mem_singleton.mp hlast
      exact absurd ht List.not_mem_nil
  sink_lt k hk := by
    rw [size_channels_withMachine]
    exact (W.sink_lt k hk).trans (Nat.lt_add_of_pos_right Nat.two_pos)
  sink_use k hk := by
    have hlt := W.sink_lt k hk
    rw [if_neg hlt.ne, if_neg (by omega)]
    exact W.sink_use k hk
  uncollected := W.uncollected
  sink_sender k hk t u ht hu hct hcu := by
    have hlt := W.sink_lt k hk
    -- the two new senders belong to the two new channels, so neither of them is meant here
    have hold : ∀ v, ((net.withMachine name program inputs).board.sender v).channel = k.channel →
        v < (net.withMachine name program inputs).board.senders.size →
          v < net.board.senders.size ∧ (net.board.sender v).channel = k.channel := by
      intro v hc hv
      rw [size_senders_withMachine] at hv
      rw [sender_withMachine] at hc
      split at hc
      · exact absurd hc (by simp only; omega)
      · split at hc
        · exact absurd hc (by simp only; omega)
        · exact ⟨by omega, hc⟩
    obtain ⟨ht', hct'⟩ := hold t hct ht
    obtain ⟨hu', hcu'⟩ := hold u hcu hu
    exact W.sink_sender k hk t u ht' hu' hct' hcu'

/-- What it takes to give a node one more target: a new sender, which belongs to an inbox or to a
    new sink. -/
structure Extension (net : Network) (b : Switchboard) (sinks : List Sink)
    (use use' : Nat → Use) : Prop where
  grows : Grows net.board b
  senders_size : b.senders.size = net.board.senders.size + 1
  isOpen : (b.sender net.board.senders.size).isOpen = true
  counted : b.Counted
  idle : ∀ c, net.board.channels.size ≤ c → c < b.channels.size →
    (b.channel c).queue = [] ∧ (b.channel c).receiverOpen = true
  use_eq : ∀ c, c < net.board.channels.size → use' c = use c
  keeps : net.sinks ⊆ sinks
  adds : ∀ k ∈ sinks, k ∈ net.sinks ∨ (net.board.channels.size ≤ k.channel ∧
    k.channel < b.channels.size ∧ use' k.channel = .sink k.name ∧ k.collected = [])
  aim : (∃ m ∈ net.nodes, (b.sender net.board.senders.size).channel = m.inbox) ∨
    (net.board.channels.size ≤ (b.sender net.board.senders.size).channel ∧
      ∃ k ∈ sinks, (b.sender net.board.senders.size).channel = k.channel)

/-- Every node of a network with one more target is a node of the old one, with or without it. -/
theorem mem_addTarget {source : String} {t : Nat} {n : Node} :
    n ∈ (net.addTarget source t).nodes ↔ ∃ m ∈ net.nodes,
      n = if m.name = source then { m with relay := m.relay.addTarget t } else m :=
  mem_onNode

/-- A node of the wiring can be given one more target. -/
def extend (W : Wiring net) {b : Switchboard} {sinks : List Sink} {use : Nat → Use}
    (E : Extension net b sinks W.use use) {source : String}
    (hsource : ∃ n ∈ net.nodes, n.name = source) :
    Wiring (({ net with board := b, sinks := sinks } : Network).addTarget
      source net.board.senders.size) where
  use := use
  owner t := if t = net.board.senders.size then .relay source else W.owner t
  not_started := W.not_started
  names_nodup := by
    rw [addTarget, names_onNode]
    · exact W.names_nodup
    · exact fun _ => rfl
  counted := E.counted
  idle c hc := by
    by_cases hold : c < net.board.channels.size
    · obtain ⟨hq, hr⟩ := E.grows.channel_eq c hold
      obtain ⟨hq', hr'⟩ := W.idle c hold
      exact ⟨hq.trans hq', hr.trans hr'⟩
    · exact E.idle c (Nat.not_lt.mp hold) hc
  isOpen t ht := by
    have hsize : t < net.board.senders.size + 1 := E.senders_size ▸ ht
    by_cases hlast : t = net.board.senders.size
    · rw [hlast]
      exact E.isOpen
    · have hold : t < net.board.senders.size := by omega
      show (b.sender t).isOpen = true
      rw [E.grows.sender_eq t hold]
      exact W.isOpen t hold
  placed n hn := by
    obtain ⟨m, hm, rfl⟩ := mem_addTarget.mp hn
    have hgrown : Placed use (fun t => if t = net.board.senders.size then .relay source
        else W.owner t) b m :=
      (W.placed m hm).grow E.grows E.use_eq fun t ht => if_neg ht.ne
    split
    · next hname =>
      refine hgrown.addTarget ?_ ?_ ?_
      · rw [E.senders_size]
        exact Nat.lt_succ_self _
      · rw [if_pos rfl, hname]
      · exact fun hmem => Nat.lt_irrefl _ ((W.placed m hm).target_lt _ hmem)
    · exact hgrown
  owned t ht := by
    have hsize : t < net.board.senders.size + 1 := E.senders_size ▸ ht
    by_cases hlast : t = net.board.senders.size
    · obtain ⟨n, hn, hname⟩ := hsource
      refine ⟨_, mem_addTarget.mpr ⟨n, hn, rfl⟩, ?_⟩
      rw [if_pos hname, hlast]
      exact .inr (.inr (List.mem_append_right _ (List.mem_singleton_self _)))
    · obtain ⟨n, hn, h⟩ := W.owned t (by omega)
      refine ⟨_, mem_addTarget.mpr ⟨n, hn, rfl⟩, ?_⟩
      split
      · exact h.imp_right fun h => h.imp_right (List.mem_append_left _)
      · exact h
  aim n hn t ht := by
    obtain ⟨m, hm, rfl⟩ := mem_addTarget.mp hn
    have hinbox : ∀ c, (∃ m ∈ net.nodes, c = m.inbox) →
        ∃ m ∈ (({ net with board := b, sinks := sinks } : Network).addTarget
          source net.board.senders.size).nodes, c = m.inbox := by
      rintro c ⟨x, hx, rfl⟩
      refine ⟨_, mem_addTarget.mpr ⟨x, hx, rfl⟩, ?_⟩
      split
      · rfl
      · rfl
    -- the target is an old one or the new one
    have hcases : t ∈ m.relay.targets ∨ t = net.board.senders.size := by
      split at ht
      · rcases List.mem_append.mp ht with hold | hlast
        · exact .inl hold
        · exact .inr (List.mem_singleton.mp hlast)
      · exact .inl ht
    rcases hcases with hold | rfl
    · have hsame := E.grows.sender_eq t ((W.placed m hm).target_lt t hold)
      rcases W.aim m hm t hold with hin | ⟨k, hk, hc⟩
      · rw [← hsame] at hin
        exact .inl (hinbox _ hin)
      · rw [← hsame] at hc
        exact .inr ⟨k, E.keeps hk, hc⟩
    · rcases E.aim with hin | ⟨-, hsink⟩
      · exact .inl (hinbox _ hin)
      · exact .inr hsink
  sink_lt k hk := by
    rcases E.adds k hk with hold | ⟨-, hlt, -, -⟩
    · exact (W.sink_lt k hold).trans_le E.grows.channels_le
    · exact hlt
  sink_use k hk := by
    rcases E.adds k hk with hold | ⟨-, -, huse, -⟩
    · rw [E.use_eq _ (W.sink_lt k hold)]
      exact W.sink_use k hold
    · exact huse
  uncollected k hk := by
    rcases E.adds k hk with hold | ⟨-, -, -, hnone⟩
    · exact W.uncollected k hold
    · exact hnone
  sink_sender k hk t u ht hu hct hcu := by
    have ht' : t < net.board.senders.size + 1 := E.senders_size ▸ ht
    have hu' : u < net.board.senders.size + 1 := E.senders_size ▸ hu
    rcases E.adds k hk with hold | ⟨hnew, -, -, -⟩
    · -- the new sender belongs to an inbox or to a new sink, so neither of the two is it
      have hne : (b.sender net.board.senders.size).channel ≠ k.channel := by
        intro hc
        rcases E.aim with ⟨m, hm, hin⟩ | ⟨hle, -⟩
        · have huse := W.sink_use k hold
          rw [← hc, hin, (W.placed m hm).inbox_use] at huse
          cases huse
        · have hlt := W.sink_lt k hold
          omega
      have hpast : ∀ v, v < net.board.senders.size + 1 → (b.sender v).channel = k.channel →
          v < net.board.senders.size ∧ (net.board.sender v).channel = k.channel := by
        intro v hv hc
        have hlt : v < net.board.senders.size :=
          Nat.lt_of_le_of_ne (Nat.le_of_lt_succ hv) fun h => hne (h ▸ hc)
        rw [E.grows.sender_eq v hlt] at hc
        exact ⟨hlt, hc⟩
      obtain ⟨htlt, htc⟩ := hpast t ht' hct
      obtain ⟨hult, huc⟩ := hpast u hu' hcu
      exact W.sink_sender k hold t u htlt hult htc huc
    · -- no old sender belongs to a new sink, so both are the new sender
      have hlast : ∀ v, v < net.board.senders.size + 1 → (b.sender v).channel = k.channel →
          v = net.board.senders.size := by
        intro v hv hc
        by_contra hne
        have hlt : v < net.board.senders.size := by omega
        rw [E.grows.sender_eq v hlt] at hc
        have := W.channel_lt hlt
        omega
      rw [hlast t ht' hct, hlast u hu' hcu]

/-- A node can be wired to the inbox of a node. -/
theorem extension_withSender (W : Wiring net) {m : Node} (hm : m ∈ net.nodes) :
    Extension net (net.board.withSender m.inbox) net.sinks W.use W.use where
  grows := grows_withSender _ _
  senders_size := Switchboard.size_senders_withSender _ _
  isOpen := by rw [Switchboard.sender_withSender, if_pos rfl]
  counted := W.counted.withSender (W.placed m hm).inbox_lt
  idle c hle hlt := by
    rw [Switchboard.size_channels_withSender] at hlt
    omega
  use_eq _ _ := rfl
  keeps := List.Subset.refl _
  adds _ hk := .inl hk
  aim := .inl ⟨m, hm, by rw [Switchboard.sender_withSender, if_pos rfl]⟩

/-- A node can be given a sink. -/
theorem extension_openChannel (W : Wiring net) (name : String) :
    Extension net (net.board.openChannel name).2
      (net.sinks ++ [⟨name, net.board.channels.size, []⟩]) W.use
      (fun c => if c = net.board.channels.size then .sink name else W.use c) where
  grows := grows_openChannel _ _
  senders_size := Switchboard.size_senders_openChannel _ _
  isOpen := by rw [Switchboard.sender_openChannel, if_pos rfl]
  counted := W.counted.openChannel name
  idle c hle hlt := by
    rw [Switchboard.size_channels_openChannel] at hlt
    rw [Switchboard.channel_openChannel, if_pos (by omega)]
    exact ⟨rfl, rfl⟩
  use_eq _ hc := if_neg hc.ne
  keeps := List.subset_append_left _ _
  adds k hk := by
    rcases List.mem_append.mp hk with hold | hlast
    · exact .inl hold
    · obtain rfl := List.mem_singleton.mp hlast
      refine .inr ⟨Nat.le_refl _, ?_, if_pos rfl, rfl⟩
      rw [Switchboard.size_channels_openChannel]
      exact Nat.lt_succ_self _
  aim := by
    rw [Switchboard.sender_openChannel, if_pos rfl]
    exact .inr ⟨Nat.le_refl _, _, List.mem_append_right _ (List.mem_singleton_self _), rfl⟩

/-- A change of a node's preload does not concern the wiring. -/
def onPreload (W : Wiring net) (name : String) (values : List Int) :
    Wiring (net.onNode name fun n => { n with preload := n.preload ++ values }) where
  use := W.use
  owner := W.owner
  not_started := W.not_started
  names_nodup := by
    rw [names_onNode]
    · exact W.names_nodup
    · exact fun _ => rfl
  counted := W.counted
  idle := W.idle
  isOpen := W.isOpen
  placed n hn := by
    obtain ⟨m, hm, rfl⟩ := mem_onNode.mp hn
    have h := W.placed m hm
    split
    · exact { h with }
    · exact h
  owned t ht := by
    obtain ⟨n, hn, h⟩ := W.owned t ht
    refine ⟨_, mem_onNode.mpr ⟨n, hn, rfl⟩, ?_⟩
    split
    · exact h
    · exact h
  aim n hn t ht := by
    obtain ⟨m, hm, rfl⟩ := mem_onNode.mp hn
    have ht' : t ∈ m.relay.targets := by
      split at ht
      · exact ht
      · exact ht
    rcases W.aim m hm t ht' with ⟨x, hx, hc⟩ | hsink
    · refine .inl ⟨_, mem_onNode.mpr ⟨x, hx, rfl⟩, ?_⟩
      split
      · exact hc
      · exact hc
    · exact .inr hsink
  sink_lt := W.sink_lt
  sink_use := W.sink_use
  uncollected := W.uncollected
  sink_sender := W.sink_sender

end Wiring

/-! ### Networks that can be built -/

theorem mem_of_node? {net : Network} {name : String} {n : Node} (h : net.node? name = some n) :
    n ∈ net.nodes ∧ n.name = name := by
  refine ⟨List.mem_of_find?_eq_some h, ?_⟩
  simpa using List.find?_some h

theorem node?_eq_none {net : Network} {name : String} :
    net.node? name = none ↔ ∀ n ∈ net.nodes, n.name ≠ name := by
  simp [node?, List.find?_eq_none]

theorem wiring_connectTo {net : Network} (W : Wiring net) {source : String}
    (hsource : ∃ n ∈ net.nodes, n.name = source) (target : String) :
    Nonempty (Wiring (NetworkM.on (connectTo source target) net).2) ∧
      ∃ n ∈ (NetworkM.on (connectTo source target) net).2.nodes, n.name = source := by
  cases hn : net.node? target with
  | none =>
    rw [on_connectTo_of_none hn]
    exact ⟨⟨W⟩, hsource⟩
  | some n =>
    obtain ⟨hmem, -⟩ := mem_of_node? hn
    have hplaced := W.placed n hmem
    rw [on_connectTo hn (W.isOpen _ hplaced.feed_lt), hplaced.feed_channel]
    refine ⟨⟨W.extend (W.extension_withSender hmem) hsource⟩, ?_⟩
    obtain ⟨m, hm, hname⟩ := hsource
    refine ⟨_, Wiring.mem_addTarget.mpr ⟨m, hm, rfl⟩, ?_⟩
    rw [if_pos hname]
    exact hname

theorem wiring_connectAll {net : Network} (W : Wiring net) {source : String}
    (hsource : ∃ n ∈ net.nodes, n.name = source) (targets : List String) :
    Nonempty (Wiring (NetworkM.on (connectAll source targets) net).2) := by
  induction targets generalizing net with
  | nil => exact ⟨W⟩
  | cons target targets ih =>
    obtain ⟨⟨W'⟩, hsource'⟩ := wiring_connectTo W hsource target
    rw [on_connectAll_cons, NetworkM.on_bind]
    rcases h : NetworkM.on (connectTo source target) net with ⟨e | u, net'⟩
    · -- the targets that come before an unknown one stay wired
      rw [h] at W'
      exact ⟨W'⟩
    · rw [h] at W' hsource'
      exact ih W' hsource'

/-! Each operation that builds a network leaves a wired one, whether it succeeds or fails. -/

theorem wiring_addMachine {net : Network} (W : Wiring net) (name : String)
    (program inputs : List Int) :
    Nonempty (Wiring (NetworkM.on (addMachine name program inputs) net).2) := by
  rw [on_addMachine, W.not_started]
  cases hn : net.node? name with
  | some n => exact ⟨W⟩
  | none => exact ⟨W.withMachine (node?_eq_none.mp hn) program inputs⟩

theorem wiring_feed {net : Network} (W : Wiring net) (name : String) (values : List Int) :
    Nonempty (Wiring (NetworkM.on (feed name values) net).2) := by
  rw [on_feed, W.not_started]
  cases net.node? name with
  | none => exact ⟨W⟩
  | some n => exact ⟨W.onPreload n.name values⟩

theorem wiring_connect {net : Network} (W : Wiring net) (source : String)
    (targets : List String) :
    Nonempty (Wiring (NetworkM.on (connect source targets) net).2) := by
  rw [on_connect, W.not_started]
  cases targets.isEmpty with
  | true => exact ⟨W⟩
  | false =>
    cases hn : net.node? source with
    | none => exact ⟨W⟩
    | some n =>
      exact wiring_connectAll W ⟨n, (mem_of_node? hn).1, rfl⟩ targets

theorem wiring_addSink {net : Network} (W : Wiring net) (source : String)
    (name : Option String) :
    Nonempty (Wiring (NetworkM.on (addSink source name) net).2) := by
  rw [on_addSink, W.not_started]
  cases (net.sink? (name.getD (source ++ ".sink"))).isSome with
  | true => exact ⟨W⟩
  | false =>
    cases hn : net.node? source with
    | none => exact ⟨W⟩
    | some n =>
      exact ⟨W.extend (W.extension_openChannel _) ⟨n, (mem_of_node? hn).1, rfl⟩⟩

/-- Every network that can be built has a wiring. -/
theorem Built.wiring {net : Network} (h : net.Built) : Nonempty (Wiring net) := by
  induction h with
  | empty maxWorkers => exact ⟨.empty maxWorkers⟩
  | addMachine name program inputs _ ih =>
    obtain ⟨W⟩ := ih
    exact wiring_addMachine W name program inputs
  | feed name values _ ih =>
    obtain ⟨W⟩ := ih
    exact wiring_feed W name values
  | connect source targets _ ih =>
    obtain ⟨W⟩ := ih
    exact wiring_connect W source targets
  | addSink source name _ ih =>
    obtain ⟨W⟩ := ih
    exact wiring_addSink W source name

/-! ### The graph of a network -/

/-- Node `i` sends to node `j`: some target of its relay belongs to the inbox of `j`. -/
def Feeds (net : Network) (i j : Nat) : Prop :=
  ∃ n m, net.nodes[i]? = some n ∧ net.nodes[j]? = some m ∧
    ∃ t ∈ n.relay.targets, (net.board.sender t).channel = m.inbox

end Network

end TapeNet
