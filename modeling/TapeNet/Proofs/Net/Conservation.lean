import TapeNet.Proofs.Net.Traffic

/-! # Nothing is lost in a network

    What goes into a network's channels is still there or was taken, in every
    interleaving and whatever the shape of the network: several nodes may feed
    one, one node may feed another more than once, and there may be cycles.

    - `Shuffle parts vs`: the list `vs` is made of the lists `parts`, each in
      its order. `shuffle_filterMap` sorts a list of events by who caused them.
    - `connections net i`: the targets of relays that lead to node `i`, each
      with the node that it belongs to; `carried` is what went over one.
    - `Wiring.carried_le`: a connection to an open inbox carries a first part
      of what its node gave.
    - `data_conserved`: inboxes and outboxes, in every reachable state.
-/

namespace TapeNet

/-! ### Shuffles -/

/-- A list that is made of other lists: its head is the head of one of them, and so on until all
    are used up. -/
inductive Shuffle {α : Type} : List (List α) → List α → Prop
  | nil {parts : List (List α)} : (∀ vs ∈ parts, vs = []) → Shuffle parts []
  | cons {before after : List (List α)} {v : α} {vs rest : List α} :
      Shuffle (before ++ vs :: after) rest → Shuffle (before ++ (v :: vs) :: after) (v :: rest)

/-- What one cause contributed to the values of some events, in order. -/
def contributed {α β κ : Type} [DecidableEq κ] (cause : β → κ) (value : β → Option α)
    (events : List β) (k : κ) : List α :=
  events.filterMap fun e => if cause e = k then value e else none

section

variable {α β κ : Type} [DecidableEq κ] {cause : β → κ} {value : β → Option α} {e : β}
  {events : List β}

theorem contributed_cons_of_none (h : value e = none) (k : κ) :
    contributed cause value (e :: events) k = contributed cause value events k := by
  unfold contributed
  rw [List.filterMap_cons_none]
  rw [h, ite_self]

theorem contributed_cons_of_ne {k : κ} (h : k ≠ cause e) :
    contributed cause value (e :: events) k = contributed cause value events k := by
  unfold contributed
  rw [List.filterMap_cons_none]
  rw [if_neg (Ne.symm h)]

theorem contributed_cons_self {v : α} (h : value e = some v) :
    contributed cause value (e :: events) (cause e) =
      v :: contributed cause value events (cause e) := by
  unfold contributed
  rw [List.filterMap_cons_some]
  rw [if_pos rfl, h]

/-- The values of some events are a shuffle of what each cause contributed, if every event that has
    a value has one of these causes. -/
theorem shuffle_contributed {causes : List κ} (hn : causes.Nodup)
    (hcause : ∀ e ∈ events, ∀ v, value e = some v → cause e ∈ causes) :
    Shuffle (causes.map (contributed cause value events)) (events.filterMap value) := by
  induction events with
  | nil =>
    refine .nil fun vs hvs => ?_
    obtain ⟨k, -, rfl⟩ := List.mem_map.mp hvs
    rfl
  | cons e events ih =>
    have htail := ih fun e' he' => hcause e' (List.mem_cons_of_mem _ he')
    cases hvalue : value e with
    | none =>
      rw [List.map_congr_left fun k _ => contributed_cons_of_none hvalue k,
        List.filterMap_cons_none hvalue]
      exact htail
    | some v =>
      obtain ⟨before, after, rfl⟩ :=
        List.append_of_mem (hcause e List.mem_cons_self v hvalue)
      -- the causes differ, so the event belongs to one of them only
      obtain ⟨-, hafter, hdisjoint⟩ := List.nodup_append.mp hn
      have hbefore : ∀ k ∈ before, k ≠ cause e := fun k hk => hdisjoint k hk _ List.mem_cons_self
      have hafter' : ∀ k ∈ after, k ≠ cause e :=
        fun k hk heq => (List.nodup_cons.mp hafter).1 (heq ▸ hk)
      rw [List.map_append, List.map_cons] at htail ⊢
      rw [List.filterMap_cons_some hvalue, contributed_cons_self hvalue,
        List.map_congr_left fun k hk => contributed_cons_of_ne (hbefore k hk),
        List.map_congr_left fun k hk => contributed_cons_of_ne (hafter' k hk)]
      exact .cons htail

end

namespace Relay

/-- A target that is there once gets one copy. -/
theorem copies_target {targets : List Nat} (hn : targets.Nodup) {t : Nat} (ht : t ∈ targets) :
    copies (· == t) targets = fun v => [v] := by
  funext v
  rw [copies, List.filter_beq, List.count_eq_one_of_mem hn ht]
  rfl

end Relay

namespace Network

open History Process Tenant TapeNet.System

/-! ### Connections -/

/-- The targets of the relay of node `j` that lead to a channel. -/
def exits (net : Network) (j c : Nat) : List Nat :=
  match net.nodes[j]? with
  | some n => n.relay.targets.filter fun t => (net.board.sender t).channel == c
  | none => []

/-- The connections to node `i`: the targets that lead to its inbox, each with the number of the
    node whose relay it belongs to. A node that is connected twice is there twice. -/
def connections (net : Network) (i : Nat) : List (Nat × Nat) :=
  match net.nodes[i]? with
  | some m => (List.range net.nodes.length).flatMap fun j => (net.exits j m.inbox).map (Prod.mk j)
  | none => []

/-- What went over a connection. -/
def carried (log : List Exchange) (k : Nat × Nat) : List Int :=
  sent (· == k.2) (heard (2 * k.1 + 1) log)

variable {net : Network} {s : System (Station ⊕ Relay)} {log : List Exchange} {i j t : Nat}
  {n m : Node}

theorem mem_exits {c : Nat} :
    t ∈ net.exits j c ↔
      ∃ n, net.nodes[j]? = some n ∧ t ∈ n.relay.targets ∧ (net.board.sender t).channel = c := by
  unfold exits
  cases net.nodes[j]? with
  | none => simp
  | some n => simp

theorem mem_connections (hm : net.nodes[i]? = some m) :
    (j, t) ∈ net.connections i ↔
      ∃ n, net.nodes[j]? = some n ∧ t ∈ n.relay.targets ∧
        (net.board.sender t).channel = m.inbox := by
  rw [connections, hm]
  simp only [List.mem_flatMap, List.mem_map, Prod.mk.injEq, List.mem_range]
  constructor
  · rintro ⟨j', -, t', ht', rfl, rfl⟩
    exact mem_exits.mp ht'
  · rintro ⟨n, hn, ht⟩
    exact ⟨j, (List.getElem?_eq_some_iff.mp hn).1, t, mem_exits.mpr ⟨n, hn, ht⟩, rfl, rfl⟩

/-- What went over a connection is what the log has of it. -/
theorem contributed_eq_carried {on : Nat → Bool} (hon : on t = true) :
    contributed (fun e : Exchange => (e.worker, e.request.sender?))
        (fun e => sentIn on (e.request, e.reply)) log (2 * j + 1, some t) =
      carried log (j, t) := by
  rw [contributed, carried, sent, heard, List.filterMap_filterMap]
  refine List.filterMap_congr fun e _ => ?_
  obtain ⟨worker, r, reply⟩ := e
  by_cases hw : worker = 2 * j + 1
  · subst hw
    cases r with
    | send u v =>
      cases reply with
      | ok w =>
        by_cases hu : u = t
        · simp [sentIn, Request.sender?, hu, hon]
        · simp [sentIn, Request.sender?, hu]
      | error e => simp [sentIn]
    | _ => simp [sentIn]
  · simp [hw]

namespace Wiring

theorem nodup_exits (W : Wiring net) (j c : Nat) : (net.exits j c).Nodup := by
  unfold exits
  split
  · next n hn => exact (W.placed n (List.mem_of_getElem? hn)).targets_nodup.filter _
  · exact List.nodup_nil

theorem nodup_connections (W : Wiring net) (i : Nat) : (net.connections i).Nodup := by
  unfold connections
  split
  · next m hm =>
    rw [List.nodup_flatMap]
    constructor
    · intro j _
      exact (W.nodup_exits j m.inbox).map (Prod.mk_right_injective j)
    · refine List.nodup_range.imp fun {j k} hne => ?_
      -- connections of different nodes are different
      intro x hx hx'
      obtain ⟨_, -, rfl⟩ := List.mem_map.mp hx
      obtain ⟨_, -, heq⟩ := List.mem_map.mp hx'
      exact hne (Prod.mk.inj heq).1.symm
  · exact List.nodup_nil

/-- What is sent to an inbox is a shuffle of what went over its connections. -/
theorem shuffle_carried (W : Wiring net) (h : Records net.system log s)
    (hm : net.nodes[i]? = some m) :
    Shuffle ((net.connections i).map (carried log))
      (sent (net.system.leadsTo m.inbox) (script log)) := by
  have hsent : sent (net.system.leadsTo m.inbox) (script log) =
      log.filterMap fun e => sentIn (net.system.leadsTo m.inbox) (e.request, e.reply) := by
    rw [sent, script, List.filterMap_map]
    rfl
  have hcarried : (net.connections i).map (carried log) =
      ((net.connections i).map fun k => (2 * k.1 + 1, some k.2)).map
        (contributed (fun e : Exchange => (e.worker, e.request.sender?))
          (fun e => sentIn (net.system.leadsTo m.inbox) (e.request, e.reply)) log) := by
    rw [List.map_map]
    refine List.map_congr_left fun k hk => ?_
    obtain ⟨n, -, -, hc⟩ := (mem_connections hm).mp hk
    refine (contributed_eq_carried ?_).symm
    rw [W.leadsTo_system, hc, beq_self_eq_true]
  have hinjective : Function.Injective fun k : Nat × Nat => (2 * k.1 + 1, some k.2) := by
    rintro ⟨j, t⟩ ⟨j', t'⟩ heq
    obtain ⟨hj, ht⟩ := Prod.mk.inj heq
    obtain rfl := Option.some.inj ht
    obtain rfl : j = j' := by omega
    rfl
  rw [hsent, hcarried]
  refine shuffle_contributed ((W.nodup_connections i).map hinjective) ?_
  intro e he v hv
  -- whoever sends a value to the inbox is a relay, over one of its targets
  obtain ⟨t, w, heq, ht⟩ := sentIn_eq_some hv
  have hsender : e.request.sender? = some t := by rw [(Prod.mk.inj heq).1]; rfl
  obtain ⟨j, n, hn, hw, htarget, -⟩ := W.inbox_sender h hm he hsender ht
  rw [W.leadsTo_system, beq_iff_eq] at ht
  rw [hw, hsender]
  exact List.mem_map.mpr ⟨(j, t), (mem_connections hm).mpr ⟨n, hn, htarget, ht⟩, rfl⟩

/-- A connection to an open inbox carries a first part of what its node gave. -/
theorem carried_le (W : Wiring net) (h : Records net.system log s) (hm : net.nodes[i]? = some m)
    (hopen : (s.board.channel m.inbox).receiverOpen = true) {k : Nat × Nat}
    (hk : k ∈ net.connections i) : carried log k <+: net.outputs log k.1 := by
  obtain ⟨j, t⟩ := k
  obtain ⟨n, hn, ht, hc⟩ := (mem_connections hm).mp hk
  have hnodup := (W.placed n (List.mem_of_getElem? hn)).targets_nodup
  obtain ⟨r, -, ha⟩ := relay_account h hn
  -- the inbox is open, so this target was never refused, and it gets a copy of every value
  have hnone : ∀ u, (u == t) = true → ¬Refused u (heard (2 * j + 1) log) := by
    intro u hu
    obtain rfl := beq_iff_eq.mp hu
    exact W.none_refused h hopen _ u (by rw [W.leadsTo_system, hc, beq_self_eq_true])
  have hbalance := ha.sent_append_owed _ hnone
  rw [Relay.copies_target hnodup ht, List.flatMap_singleton'] at hbalance
  have htaken := (h.fifo n.relay.inbound).received_le
  rw [W.received_outbox h hn, W.arrived_outbox h hn, ← hbalance] at htaken
  exact (List.prefix_append _ _).trans htaken

/-- What a machine took from its open inbox and what is queued there: the preload, and then a
    shuffle of what its connections carried. -/
theorem inbox_conserved (W : Wiring net) (h : Records net.system log s)
    (hm : net.nodes[i]? = some m) (hopen : (s.board.channel m.inbox).receiverOpen = true) :
    ∃ rest, net.inputs log i ++ (s.board.channel m.inbox).queue = m.preload ++ rest ∧
      Shuffle ((net.connections i).map (carried log)) rest := by
  refine ⟨_, ?_, W.shuffle_carried h hm⟩
  have hfifo := (h.fifo m.inbox).in_order hopen
  rw [arrived, W.queue_inbox_system hm, W.received_inbox h hm] at hfifo
  exact hfifo.symm

/-- What a relay took from its open outbox and what is queued there is what its machine gave. -/
theorem outbox_conserved (W : Wiring net) (h : Records net.system log s)
    (hn : net.nodes[j]? = some n)
    (hopen : (s.board.channel n.relay.inbound).receiverOpen = true) :
    received n.relay.inbound (heard (2 * j + 1) log) ++
      (s.board.channel n.relay.inbound).queue = net.outputs log j := by
  have hfifo := (h.fifo n.relay.inbound).in_order hopen
  rw [W.arrived_outbox h hn, W.received_outbox h hn] at hfifo
  exact hfifo.symm

end Wiring

/-- In every state that a network can reach, and for every log that leads there: what a machine took
    from its inbox and what is queued there are the preload and then a shuffle of what its
    connections carried, as long as the inbox is open, and each connection carried a first part of
    what its node gave; what a relay took from its outbox and what is queued there is all that its
    machine gave, as long as the outbox is open. -/
theorem data_conserved (hb : net.Built) (h : Reaches net.system s) :
    (∃ log, Records net.system log s) ∧ ∀ log, Records net.system log s →
      (∀ i m, net.nodes[i]? = some m → (s.board.channel m.inbox).receiverOpen = true →
        (∃ rest, net.inputs log i ++ (s.board.channel m.inbox).queue = m.preload ++ rest ∧
          Shuffle ((net.connections i).map (carried log)) rest) ∧
        ∀ k ∈ net.connections i, carried log k <+: net.outputs log k.1) ∧
      ∀ j n, net.nodes[j]? = some n → (s.board.channel n.relay.inbound).receiverOpen = true →
        received n.relay.inbound (heard (2 * j + 1) log) ++
          (s.board.channel n.relay.inbound).queue = net.outputs log j := by
  obtain ⟨W⟩ := hb.wiring
  refine ⟨exists_records_of_reaches h, fun log hlog => ⟨fun i m hm hopen => ?_, ?_⟩⟩
  · exact ⟨W.inbox_conserved hlog hm hopen, fun k hk => W.carried_le hlog hm hopen hk⟩
  · exact fun j n hn hopen => W.outbox_conserved hlog hn hopen

/-- Two machines that feed a third one, the first of them twice. -/
def merging : Network :=
  let net := (NetworkM.on (addMachine "a" [104, 1, 104, 2, 99] []) (.empty none)).2
  let net := (NetworkM.on (addMachine "b" [104, 10, 99] []) net).2
  let net := (NetworkM.on (addMachine "c" [3, 0, 3, 0, 99] [7]) net).2
  let net := (NetworkM.on (connect "a" ["c", "c"]) net).2
  (NetworkM.on (connect "b" ["c"]) net).2

/-- The third machine has taken its preload, and the value of the second one came first. -/
theorem merging_conserves :
    let s := merging.system.follow [0, 2, 3, 3, 1, 1, 4, 1, 0, 1, 1]
    merging.connections 2 = [(0, 6), (0, 7), (1, 8)] ∧
      ∃ m, merging.nodes[2]? = some m ∧ m.preload = [7] ∧
        (s.board.channel m.inbox).queue = [10, 1, 1, 2] ∧
        ∃ log, Records merging.system log s ∧ ∃ rest,
          merging.inputs log 2 ++ (s.board.channel m.inbox).queue = m.preload ++ rest ∧
            Shuffle ((merging.connections 2).map (carried log)) rest := by
  intro s
  have hb : merging.Built :=
    .connect _ _ (.connect _ _ (.addMachine _ _ _ (.addMachine _ _ _ (.addMachine _ _ _
      (.empty none)))))
  have hinbox : merging.nodes[2]?.map (fun m => (m.inbox, m.preload)) = some (4, [7]) := by
    decide +kernel
  obtain ⟨m, hm, heq⟩ := Option.map_eq_some_iff.mp hinbox
  obtain ⟨hc, hpreload⟩ := Prod.mk.inj heq
  have hopen : (s.board.channel m.inbox).receiverOpen = true := by
    rw [hc]
    decide +kernel
  have hqueue : (s.board.channel m.inbox).queue = [10, 1, 1, 2] := by
    rw [hc]
    decide +kernel
  obtain ⟨⟨log, hlog⟩, hconserved⟩ := data_conserved hb (reaches_follow _ _ : Reaches _ s)
  exact ⟨by decide +kernel, m, hm, hpreload, hqueue, log, hlog,
    ((hconserved log hlog).1 2 m hm hopen).1⟩

end Network

end TapeNet
