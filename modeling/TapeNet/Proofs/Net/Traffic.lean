import TapeNet.Proofs.Net.Launch
import TapeNet.Proofs.Net.StationStory
import TapeNet.Proofs.Net.RelayStory

/-! # The traffic in a network

    What goes through the channels of a network whose nodes are each fed by
    one node at most, in any interleaving.

    - `outputs` and `inputs` are what the machine of a node gave and took.
    - `supply net out k j` is what node `j` would get in all if its source `k`
      gave `out k`: the preload, and a copy of each value for every target.
    - At any time a node took a first part of its supply (`inputs_le`).
    - A node whose machine starved took all of it, and its source was never
      cut off (`Wiring.supply_of_ended`).
    - What is in a sink in the end is a copy of what its node gave
      (`Wiring.queue_of_sink`).
-/

namespace TapeNet

namespace Network

open History Process Tenant Machine TapeNet.System

/-! ### Inputs, outputs and supplies -/

/-- What the machine of node `i` gave. -/
def outputs (net : Network) (log : List Exchange) (i : Nat) : List Int :=
  match net.nodes[i]? with
  | some n => sent (· == n.outlet) (heard (2 * i) log)
  | none => []

/-- What the machine of node `j` took. -/
def inputs (net : Network) (log : List Exchange) (j : Nat) : List Int :=
  match net.nodes[j]? with
  | some m => received m.inbox (heard (2 * j) log)
  | none => []

/-- The copies of a value that go to a channel from node `k`. -/
def copiesTo (net : Network) (k c : Nat) (v : Int) : List Int :=
  match net.nodes[k]? with
  | some n => Relay.copies (fun t => (net.board.sender t).channel == c) n.relay.targets v
  | none => []

/-- All that node `j` gets if node `k`, the only one that feeds it, gives `out k`. -/
def supply (net : Network) (out : Nat → List Int) (k j : Nat) : List Int :=
  match net.nodes[j]? with
  | some m => m.preload ++ (out k).flatMap (net.copiesTo k m.inbox)
  | none => []

/-- Node `i` was refused a value: its relay has lost all its targets. -/
def CutOff (net : Network) (log : List Exchange) (i : Nat) : Prop :=
  ∃ n, net.nodes[i]? = some n ∧ Refused n.outlet (heard (2 * i) log)

variable {net : Network} {s : System (Station ⊕ Relay)} {log : List Exchange} {i j k : Nat}
  {n m : Node}

theorem outputs_eq (hn : net.nodes[i]? = some n) :
    net.outputs log i = sent (· == n.outlet) (heard (2 * i) log) := by
  rw [outputs, hn]

theorem inputs_eq (hm : net.nodes[j]? = some m) :
    net.inputs log j = received m.inbox (heard (2 * j) log) := by
  rw [inputs, hm]

theorem supply_eq (hm : net.nodes[j]? = some m) (out : Nat → List Int) :
    net.supply out k j = m.preload ++ (out k).flatMap (net.copiesTo k m.inbox) := by
  rw [supply, hm]

/-- A node that gives more supplies more. -/
theorem supply_mono {out out' : Nat → List Int} (h : out k <+: out' k) :
    net.supply out k j <+: net.supply out' k j := by
  unfold supply
  split
  · obtain ⟨rest, hrest⟩ := h
    rw [← hrest, List.flatMap_append, ← List.append_assoc]
    exact List.prefix_append _ _
  · exact List.prefix_rfl

/-- A node that does not feed another one supplies nothing. -/
theorem flatMap_copiesTo_eq_nil (hfeeds : ¬net.Feeds k j) (hm : net.nodes[j]? = some m)
    (vs : List Int) : vs.flatMap (net.copiesTo k m.inbox) = [] := by
  rw [List.flatMap_eq_nil_iff]
  intro v _
  unfold copiesTo
  split
  · next n hn =>
    have hnone : n.relay.targets.filter
        (fun t => (net.board.sender t).channel == m.inbox) = [] := by
      rw [List.filter_eq_nil_iff]
      intro t ht hc
      exact hfeeds ⟨n, m, hn, hm, t, ht, by simpa using hc⟩
    rw [Relay.copies, hnone]
    rfl
  · rfl

theorem supply_of_not_feeds (hfeeds : ¬net.Feeds k j) (out out' : Nat → List Int) :
    net.supply out k j = net.supply out' k j := by
  unfold supply
  split
  · next m hm => rw [flatMap_copiesTo_eq_nil hfeeds hm, flatMap_copiesTo_eq_nil hfeeds hm]
  · rfl

/-! ### Who uses which channel -/

namespace Wiring

/-- Whoever sends a value is a station that uses its outlet or a relay that uses a target. -/
theorem sender_cases (W : Wiring net) (h : Records net.system log s) {e : Exchange} (he : e ∈ log)
    {t : Nat} (ht : e.request.sender? = some t) :
    ∃ i n, net.nodes[i]? = some n ∧
      ((e.worker = 2 * i ∧ t = n.outlet) ∨ (e.worker = 2 * i + 1 ∧ t ∈ n.relay.targets)) := by
  obtain ⟨p₀, hp₀, hmem⟩ := h.holder_of_sender W.tidy_system he ht
  obtain ⟨i, n, hn, ⟨hw, hout, -⟩ | ⟨hw, htarget, -⟩⟩ := W.owner_of_holds hp₀ hmem
  · exact ⟨i, n, hn, .inl ⟨hw, hout⟩⟩
  · exact ⟨i, n, hn, .inr ⟨hw, htarget⟩⟩

theorem leadsTo_system (W : Wiring net) (c t : Nat) :
    net.system.leadsTo c t = ((net.board.sender t).channel == c) := by
  rw [leadsTo, W.preloaded.channel_sender]
  rfl

/-- Only its own station receives from an inbox. -/
theorem received_inbox (W : Wiring net) (h : Records net.system log s)
    (hm : net.nodes[j]? = some m) : received m.inbox (script log) = net.inputs log j := by
  rw [inputs_eq hm]
  refine received_script_eq fun e he hr => ?_
  have huse := (W.placed m (List.mem_of_getElem? hm)).inbox_use
  obtain ⟨p₀, hp₀, hmem⟩ := h.reader_of_channel W.tidy_system he (by rw [hr]; rfl)
  obtain ⟨i, n, hn, ⟨hw, -, hu⟩ | ⟨hw, -, hu⟩⟩ := W.use_of_reads hp₀ hmem
  · rw [huse] at hu
    rw [hw, W.index_eq hn hm (Use.inbox.inj hu).symm]
  · cases huse.symm.trans hu

/-- Only its own relay receives from an outbox. -/
theorem received_outbox (W : Wiring net) (h : Records net.system log s)
    (hn : net.nodes[i]? = some n) :
    received n.relay.inbound (script log) = received n.relay.inbound (heard (2 * i + 1) log) := by
  refine received_script_eq fun e he hr => ?_
  have huse := (W.placed n (List.mem_of_getElem? hn)).outbox_use
  obtain ⟨p₀, hp₀, hmem⟩ := h.reader_of_channel W.tidy_system he (by rw [hr]; rfl)
  obtain ⟨k, x, hx, ⟨hw, -, hu⟩ | ⟨hw, -, hu⟩⟩ := W.use_of_reads hp₀ hmem
  · cases huse.symm.trans hu
  · rw [huse] at hu
    rw [hw, W.index_eq hx hn (Use.outbox.inj hu).symm]

/-- What arrives in an outbox is what the machine of its node gave. -/
theorem arrived_outbox (W : Wiring net) (h : Records net.system log s)
    (hn : net.nodes[i]? = some n) :
    net.system.arrived n.relay.inbound log = net.outputs log i := by
  have hplaced := W.placed n (List.mem_of_getElem? hn)
  have hworker : ∀ e ∈ log, ∀ t v, e.request = .send t v →
      net.system.leadsTo n.relay.inbound t = true → e.worker = 2 * i ∧ t = n.outlet := by
    intro e he t v hr ht
    rw [W.leadsTo_system, beq_iff_eq] at ht
    have huse := hplaced.outbox_use
    rw [← ht] at huse
    obtain ⟨k, x, hx, ⟨hw, rfl⟩ | ⟨-, htarget⟩⟩ := W.sender_cases h he (by rw [hr]; rfl)
    · rw [W.use_outlet (List.mem_of_getElem? hx)] at huse
      obtain rfl := W.index_eq hx hn (Use.outbox.inj huse)
      rw [hx] at hn
      obtain rfl := Option.some.inj hn
      exact ⟨hw, rfl⟩
    · rcases W.use_target (List.mem_of_getElem? hx) htarget with ⟨y, hy⟩ | ⟨y, hy⟩
      · cases huse.symm.trans hy
      · cases huse.symm.trans hy
  have hqueue : (net.system.board.channel n.relay.inbound).queue = [] := by
    rw [W.preloaded.queue_other, (W.idle _ hplaced.outbox_lt).1]
    intro x hx heq
    have huse := hplaced.outbox_use
    rw [← heq, (W.placed x hx).inbox_use] at huse
    cases huse
  rw [arrived, hqueue, List.nil_append, outputs_eq hn]
  rw [sent_script_eq fun e he t v hr ht => (hworker e he t v hr ht).1]
  refine sent_congr fun t v reply hmem => ?_
  -- a station only sends over its outlet, which leads to its outbox
  obtain ⟨x, y, hx, ⟨hw, rfl⟩ | ⟨hw, -⟩⟩ :=
    W.sender_cases h (mem_heard.mp hmem) (t := t) rfl
  · obtain rfl : i = x := by simp only at hw; omega
    rw [hn] at hx
    obtain rfl := Option.some.inj hx
    rw [W.leadsTo_system, hplaced.outlet_channel, beq_self_eq_true, beq_self_eq_true]
  · simp only at hw
    omega

/-- Only relays send to a channel that is not an outbox. -/
theorem relay_sender (W : Wiring net) (h : Records net.system log s) {c : Nat}
    (huse : ∀ name, W.use c ≠ .outbox name) {e : Exchange} (he : e ∈ log) {t : Nat}
    (ht : e.request.sender? = some t) (hc : net.system.leadsTo c t = true) :
    ∃ i n, net.nodes[i]? = some n ∧ e.worker = 2 * i + 1 ∧ t ∈ n.relay.targets := by
  rw [W.leadsTo_system, beq_iff_eq] at hc
  obtain ⟨i, n, hn, ⟨-, rfl⟩ | ⟨hw, htarget⟩⟩ := W.sender_cases h he ht
  · -- an outlet belongs to an outbox
    rw [← hc] at huse
    exact absurd (W.use_outlet (List.mem_of_getElem? hn)) (huse n.name)
  · exact ⟨i, n, hn, hw, htarget⟩

/-- Only relays of the nodes that feed it send to the inbox of a node. -/
theorem inbox_sender (W : Wiring net) (h : Records net.system log s)
    (hm : net.nodes[j]? = some m) {e : Exchange} (he : e ∈ log) {t : Nat}
    (ht : e.request.sender? = some t) (hc : net.system.leadsTo m.inbox t = true) :
    ∃ i n, net.nodes[i]? = some n ∧ e.worker = 2 * i + 1 ∧ t ∈ n.relay.targets ∧
      net.Feeds i j := by
  have huse : ∀ name, W.use m.inbox ≠ .outbox name := by
    rw [(W.placed m (List.mem_of_getElem? hm)).inbox_use]
    exact fun _ => Use.noConfusion
  obtain ⟨i, n, hn, hw, htarget⟩ := W.relay_sender h huse he ht hc
  rw [W.leadsTo_system, beq_iff_eq] at hc
  exact ⟨i, n, hn, hw, htarget, n, m, hn, hm, t, htarget, hc⟩

/-- At the start an inbox holds what was preloaded. -/
theorem queue_inbox_system (W : Wiring net) (hm : net.nodes[j]? = some m) :
    (net.system.board.channel m.inbox).queue = m.preload := by
  have hmem := List.mem_of_getElem? hm
  rw [W.preloaded.queue_inbox m hmem, (W.idle _ (W.placed m hmem).inbox_lt).1, List.nil_append]

/-- What arrives in an inbox is the preload and what the only relay that feeds it sent there. -/
theorem arrived_inbox (W : Wiring net) (h : Records net.system log s)
    (hm : net.nodes[j]? = some m) (hk : ∀ i, net.Feeds i j → i = k) :
    net.system.arrived m.inbox log =
      m.preload ++ sent (net.system.leadsTo m.inbox) (heard (2 * k + 1) log) := by
  rw [arrived, W.queue_inbox_system hm]
  congr 1
  refine sent_script_eq fun e he t v hr ht => ?_
  obtain ⟨i, -, -, hw, -, hfeeds⟩ := W.inbox_sender h hm he (by rw [hr]; rfl) ht
  rw [hw, hk i hfeeds]

/-- Nothing is sent to an inbox that no node feeds. -/
theorem sent_inbox_eq_nil (W : Wiring net) (h : Records net.system log s)
    (hm : net.nodes[j]? = some m) (hk : ∀ i, ¬net.Feeds i j) (l : Nat) :
    sent (net.system.leadsTo m.inbox) (heard l log) = [] := by
  rw [sent, List.filterMap_eq_nil_iff]
  intro e he
  by_contra hsome
  obtain ⟨v, hv⟩ := Option.ne_none_iff_exists'.mp hsome
  obtain ⟨t, w, rfl, ht⟩ := sentIn_eq_some hv
  obtain ⟨i, -, -, -, -, hfeeds⟩ := W.inbox_sender h hm (mem_heard.mp he) rfl ht
  exact hk i hfeeds

/-! ### What relays pass on -/

theorem copiesTo_eq (W : Wiring net) (hn : net.nodes[k]? = some n) (c : Nat) :
    net.copiesTo k c = Relay.copies (net.system.leadsTo c) n.relay.targets := by
  have hleads : net.system.leadsTo c = fun t => (net.board.sender t).channel == c :=
    funext fun t => W.leadsTo_system c t
  funext v
  rw [copiesTo, hn, hleads]

/-- While a receiver is open, nobody was refused a value for it. -/
theorem none_refused (W : Wiring net) (h : Records net.system log s) {c : Nat}
    (hopen : (s.board.channel c).receiverOpen = true) (i : Nat) :
    ∀ t, net.system.leadsTo c t = true → ¬Refused t (heard i log) := by
  intro t ht hr
  have hclosed := h.receiver_closed W.tidy_system hr.script
  rw [leadsTo_eq_true.mp ht, hopen] at hclosed
  cases hclosed

/-- The account of the relay of a node. -/
theorem relay_account (h : Records net.system log s) (hn : net.nodes[k]? = some n) :
    ∃ r, s.workers[2 * k + 1]? = some (.inr r) ∧
      Relay.Account n.relay.targets n.relay.inbound (heard (2 * k + 1) log) r := by
  obtain ⟨r, hr, hstory, -⟩ := exists_relay h hn
  have ha := Relay.relay_story hstory rfl
  exact ⟨r, hr, ha⟩

/-- What a relay sends to a channel is a first part of the copies of what it received. -/
theorem sent_le (W : Wiring net) (h : Records net.system log s) (hn : net.nodes[k]? = some n)
    (c : Nat) :
    sent (net.system.leadsTo c) (heard (2 * k + 1) log) <+:
      (received n.relay.inbound (heard (2 * k + 1) log)).flatMap (net.copiesTo k c) := by
  induction h with
  | start => exact List.nil_prefix
  | @serve log s i r hrec hreq hb ih =>
    have hnext := Records.serve hrec hreq hb
    by_cases hi : 2 * k + 1 = i
    · cases hsent : sentIn (net.system.leadsTo c) (r, (s.board.serve r).1) with
      | none =>
        rw [hi, heard_concat_self, sent_concat, hsent, received_concat, List.flatMap_append,
          Option.toList_none, List.append_nil, ← hi]
        exact ih.trans (List.prefix_append _ _)
      | some v =>
        -- the value got through, so the receiver is open and nobody was refused so far
        obtain ⟨t, w, he, ht⟩ := sentIn_eq_some hsent
        obtain ⟨rfl, hok⟩ := Prod.mk.inj he
        have hchannel : (s.board.sender t).channel = c :=
          (hrec.channel_sender t).trans (leadsTo_eq_true.mp ht)
        have hopen : (s.board.channel c).receiverOpen = true := by
          rcases s.board.send_cases t v with ⟨-, hopen, -⟩ | ⟨cause, hs, -⟩
          · rwa [hchannel] at hopen
          · have herror : (s.board.send t v).1 = .ok w := hok
            rw [hs] at herror
            cases herror
        have hopen' : ((s.serve i (.send t v)).board.channel c).receiverOpen = true := by
          rw [board_serve, Switchboard.receiverOpen_serve _ hb]
          exact ⟨hopen, Request.noConfusion⟩
        obtain ⟨r', -, ha⟩ := relay_account hnext hn
        have hbalance := ha.sent_append_owed _ (W.none_refused hnext hopen' _)
        rw [W.copiesTo_eq hn, ← hbalance]
        exact List.prefix_append _ _
    · rw [heard_concat_of_ne _ hi]
      exact ih

/-- A relay that found the end of the outbox took all that the machine gave, and the machine was
    not cut off. -/
theorem outputs_of_ended (W : Wiring net) (h : Records net.system log s)
    (hn : net.nodes[k]? = some n) (he : Ended n.relay.inbound (heard (2 * k + 1) log)) :
    received n.relay.inbound (heard (2 * k + 1) log) = net.outputs log k ∧ ¬net.CutOff log k := by
  have hover := h.over W.tidy_system he.script
  constructor
  · rw [← W.received_outbox h hn, hover.all_received, W.arrived_outbox h hn]
  · rintro ⟨x, hx, hrefused⟩
    rw [hn] at hx
    obtain rfl := Option.some.inj hx
    refine hover.none_refused n.outlet ?_ hrefused.script
    rw [W.preloaded.channel_sender]
    exact (W.placed n (List.mem_of_getElem? hn)).outlet_channel

/-- A relay that closes down although some target leads to a channel where nobody was refused has
    sent there all that the machine gave. -/
theorem passed_on (W : Wiring net) (h : Records net.system log s) (hn : net.nodes[k]? = some n)
    {r : Relay} (ha : Relay.Account n.relay.targets n.relay.inbound (heard (2 * k + 1) log) r)
    (hclosing : r.closesDown = true) {c t : Nat} (ht : t ∈ n.relay.targets)
    (hc : net.system.leadsTo c t = true)
    (hnone : ∀ t, net.system.leadsTo c t = true → ¬Refused t (heard (2 * k + 1) log)) :
    sent (net.system.leadsTo c) (heard (2 * k + 1) log) =
      (net.outputs log k).flatMap (net.copiesTo k c) ∧ ¬net.CutOff log k := by
  -- a target that has not refused is still there, so the relay closes down for the other reason
  have hkept : t ∈ r.targets := ha.keeps t ht (hnone t hc)
  have hended : Ended n.relay.inbound (heard (2 * k + 1) log) := by
    rcases ha.closes hclosing with hend | hempty
    · exact hend
    · rw [hempty] at hkept
      exact absurd hkept List.not_mem_nil
  obtain ⟨htaken, hcut⟩ := W.outputs_of_ended h hn hended
  have hbalance := ha.sent_append_owed _ hnone
  rw [Relay.owed_of_closesDown hclosing, List.append_nil, htaken, ← W.copiesTo_eq hn] at hbalance
  exact ⟨hbalance, hcut⟩

/-! ### What nodes get -/

/-- At any time a machine took a first part of its supply. -/
theorem inputs_le (W : Wiring net) (h : Records net.system log s)
    (hm : net.nodes[j]? = some m) (hk : ∀ i, net.Feeds i j → i = k) :
    net.inputs log j <+: net.supply (net.outputs log) k j := by
  have hfifo := (h.fifo m.inbox).received_le
  rw [W.received_inbox h hm, W.arrived_inbox h hm hk] at hfifo
  rw [supply_eq hm]
  refine hfifo.trans ((List.prefix_append_right_inj _).mpr ?_)
  by_cases hfeeds : net.Feeds k j
  · -- from the inbox back through the relay to the machine that feeds it
    obtain ⟨n, -, hn, -⟩ := hfeeds
    refine (W.sent_le h hn m.inbox).trans ?_
    have htaken := (h.fifo n.relay.inbound).received_le
    rw [W.received_outbox h hn, W.arrived_outbox h hn] at htaken
    obtain ⟨rest, hrest⟩ := htaken
    rw [← hrest, List.flatMap_append]
    exact List.prefix_append _ _
  · have hnone : ∀ i, ¬net.Feeds i j := fun i hi => hfeeds (hk i hi ▸ hi)
    rw [W.sent_inbox_eq_nil h hm hnone]
    exact List.nil_prefix

/-- A machine that found the end of its inbox took its whole supply, and its source was not cut
    off. -/
theorem supply_of_ended (W : Wiring net) (h : Records net.system log s)
    (hm : net.nodes[j]? = some m) (hk : ∀ i, net.Feeds i j → i = k)
    (he : Ended m.inbox (heard (2 * j) log)) :
    net.inputs log j = net.supply (net.outputs log) k j ∧
      (net.Feeds k j → ¬net.CutOff log k) := by
  have hover := h.over W.tidy_system he.script
  have hall := hover.all_received
  rw [W.received_inbox h hm, W.arrived_inbox h hm hk] at hall
  rw [hall, supply_eq hm]
  by_cases hfeeds : net.Feeds k j
  · obtain ⟨n, m', hn, hm', t, ht, hc⟩ := hfeeds
    rw [hm] at hm'
    obtain rfl := Option.some.inj hm'
    have hleads : net.system.leadsTo m.inbox t = true := by
      rw [W.leadsTo_system, hc, beq_self_eq_true]
    have hnone : ∀ u, net.system.leadsTo m.inbox u = true →
        ¬Refused u (heard (2 * k + 1) log) :=
      fun u hu hr => hover.none_refused u (leadsTo_eq_true.mp hu) hr.script
    obtain ⟨r, hr, ha⟩ := relay_account h hn
    -- the relay has closed this target, so it closes down
    have hheld : t ∉ r.held := by
      intro hmem
      have hopen := ((h.tidy W.tidy_system).isOpen_iff t).mpr ⟨_, _, hr, hmem⟩
      rw [hover.all_closed t (leadsTo_eq_true.mp hleads)] at hopen
      cases hopen
    have hkept : t ∈ r.targets := ha.keeps t ht (hnone t hleads)
    have hclosing := Relay.closesDown_of_not_held hkept hheld
    obtain ⟨hsent, hcut⟩ := W.passed_on h hn ha hclosing ht hleads hnone
    exact ⟨by rw [hsent], fun _ => hcut⟩
  · have hnone : ∀ i, ¬net.Feeds i j := fun i hi => hfeeds (hk i hi ▸ hi)
    refine ⟨?_, fun hf => absurd hf hfeeds⟩
    rw [W.sent_inbox_eq_nil h hm hnone, flatMap_copiesTo_eq_nil hfeeds hm]

/-! ### When all have finished -/

/-- How the machine of a node has stopped: its output was cut off, or it starved after all of its
    supply, or it ended of its own accord. -/
theorem station_end (W : Wiring net) (h : Records net.system log s) (hf : s.finished = true)
    (hm : net.nodes[j]? = some m) (hk : ∀ i, net.Feeds i j → i = k) :
    net.CutOff log j ∨
    (net.inputs log j = net.supply (net.outputs log) k j ∧ (net.Feeds k j → ¬net.CutOff log k) ∧
      ∃ q l, Flow m.machine l (net.inputs log j) (net.outputs log j) q ∧ q.demand = .get) ∨
    ∃ o w, Ends m.machine (net.inputs log j) (net.outputs log j) o ∧
      s.workers[2 * j]? = some (.inl w) ∧ w.fault = o.fault? := by
  obtain ⟨w, hw, hstory, -⟩ := exists_station h hm
  have hacc := Station.station_story hstory (h.plain _)
  rw [Station.Account, ← inputs_eq hm, ← outputs_eq hm] at hacc
  rcases hacc with ⟨hworking, -⟩ | ⟨-, hstopped⟩
  · exact absurd hworking (Station.not_working_of_request_eq_none (request_of_finished hf hw))
  · generalize hfault : w.fault = fault at hstopped
    cases hstopped with
    | starved hflow hget hended =>
      obtain ⟨hall, hcut⟩ := W.supply_of_ended h hm hk hended
      exact .inr (.inl ⟨hall, hcut, _, _, hflow, hget⟩)
    | refused hflow hrefused => exact .inl ⟨m, hm, hrefused⟩
    | ended hends => exact .inr (.inr ⟨_, w, hends, hw, hfault⟩)

/-- A channel that is neither an inbox nor an outbox starts empty, and its receiver stays open. -/
theorem unread_sink (W : Wiring net) (h : Records net.system log s) {x : Sink}
    (hx : x ∈ net.sinks) :
    (s.board.channel x.channel).receiverOpen = true ∧
      (s.board.channel x.channel).queue = sent (net.system.leadsTo x.channel) (script log) := by
  obtain ⟨hq, ho⟩ := W.idle _ (W.sink_lt x hx)
  have hopen : (net.system.board.channel x.channel).receiverOpen = true := by
    rw [W.preloaded.receiverOpen, ho]
  have hqueue : (net.system.board.channel x.channel).queue = [] := by
    rw [W.preloaded.queue_other, hq]
    intro m hm heq
    have huse := W.sink_use x hx
    rw [← heq, (W.placed m hm).inbox_use] at huse
    cases huse
  have hnone : ∀ (l : Nat) (p : Station ⊕ Relay), net.system.workers[l]? = some p →
      x.channel ∉ reads p := by
    intro l p hp hmem
    have huse := W.sink_use x hx
    obtain ⟨i, n, -, ⟨-, -, hu⟩ | ⟨-, -, hu⟩⟩ := W.use_of_reads hp hmem
    · cases huse.symm.trans hu
    · cases huse.symm.trans hu
  obtain ⟨hopen', hreceived⟩ := h.unread W.tidy_system hopen hnone
  have hfifo := (h.fifo x.channel).in_order hopen'
  rw [arrived, hqueue, hreceived, List.nil_append, List.nil_append] at hfifo
  exact ⟨hopen', hfifo.symm⟩

theorem sink_ne_outbox (W : Wiring net) {x : Sink} (hx : x ∈ net.sinks) (name : String) :
    W.use x.channel ≠ .outbox name := by
  rw [W.sink_use x hx]
  exact Use.noConfusion

/-- In the end a sink holds the copies of what its node gave, and that node was not cut off. -/
theorem queue_of_sink (W : Wiring net) (h : Records net.system log s) (hf : s.finished = true)
    {x : Sink} (hx : x ∈ net.sinks) (hn : net.nodes[i]? = some n) {t : Nat}
    (ht : t ∈ n.relay.targets) (hc : (net.board.sender t).channel = x.channel) :
    (s.board.channel x.channel).queue =
      (net.outputs log i).flatMap (net.copiesTo i x.channel) ∧ ¬net.CutOff log i := by
  have hmem := List.mem_of_getElem? hn
  obtain ⟨hopen, hqueue⟩ := W.unread_sink h hx
  -- a sink has one sender only, so only one relay sends to it
  have hlocal : ∀ e ∈ log, ∀ u v, e.request = .send u v →
      net.system.leadsTo x.channel u = true → e.worker = 2 * i + 1 := by
    intro e he u v hr hu
    obtain ⟨y, n', hn', hw, hu'⟩ := W.relay_sender h (W.sink_ne_outbox hx) he (by rw [hr]; rfl) hu
    rw [W.leadsTo_system, beq_iff_eq] at hu
    have hmem' := List.mem_of_getElem? hn'
    obtain rfl := W.sink_sender x hx u t ((W.placed n' hmem').target_lt u hu')
      ((W.placed n hmem).target_lt t ht) hu hc
    have howner := (W.placed n hmem).target_owner u ht
    rw [(W.placed n' hmem').target_owner u hu'] at howner
    rw [hw, W.index_eq hn' hn (Owner.relay.inj howner)]
  have hleads : net.system.leadsTo x.channel t = true := by
    rw [W.leadsTo_system, hc, beq_self_eq_true]
  obtain ⟨r, hr, ha⟩ := relay_account h hn
  have hclosing : r.closesDown = true :=
    Relay.closesDown_of_request_eq_none (request_of_finished hf hr)
  obtain ⟨hsent, hcut⟩ :=
    W.passed_on h hn ha hclosing ht hleads (W.none_refused h hopen _)
  refine ⟨?_, hcut⟩
  rw [hqueue, sent_script_eq hlocal, hsent]

/-- A sink that no node sends to stays empty. -/
theorem queue_of_lone_sink (W : Wiring net) (h : Records net.system log s) {x : Sink}
    (hx : x ∈ net.sinks)
    (hlone : ∀ n ∈ net.nodes, ∀ t ∈ n.relay.targets,
      (net.board.sender t).channel ≠ x.channel) :
    (s.board.channel x.channel).queue = [] := by
  rw [(W.unread_sink h hx).2, sent, List.filterMap_eq_nil_iff]
  intro e he
  by_contra hsome
  obtain ⟨v, hv⟩ := Option.ne_none_iff_exists'.mp hsome
  obtain ⟨t, w, rfl, ht⟩ := sentIn_eq_some hv
  obtain ⟨l, he'⟩ := mem_script.mp he
  obtain ⟨i, n, hn, -, htarget⟩ := W.relay_sender h (W.sink_ne_outbox hx) he' rfl ht
  rw [W.leadsTo_system, beq_iff_eq] at ht
  exact hlone n (List.mem_of_getElem? hn) t htarget ht

end Wiring

/-- What can be taken from a sink once its network has run. -/
theorem values_settle (net : Network) (s : System (Station ⊕ Relay)) (name : String) :
    ((net.settle s).values name).1 =
      match net.sink? name with
      | some x => x.collected ++ (s.board.channel x.channel).queue
      | none => [] := by
  have hsink : (net.settle s).sink? name = net.sink? name := rfl
  unfold values
  rw [hsink]
  cases net.sink? name with
  | none => rfl
  | some x => rfl

/-- What the only sink of a network shows at the end. -/
theorem values_of_only_sink {name : String} {c : Nat} (hsinks : net.sinks = [⟨name, c, []⟩])
    (s : System (Station ⊕ Relay)) :
    ((({ net with started := true } : Network).settle s).values name).1 =
      (s.board.channel c).queue := by
  have hfound : ({ net with started := true } : Network).sink? name = some ⟨name, c, []⟩ := by
    rw [sink?, hsinks]
    simp
  rw [values_settle, hfound]
  exact List.nil_append _

/-- The last value of a sink is the last one of those that it shows. -/
theorem last_of_values {name : String} {v : Int}
    (h : (net.values name).1.getLast? = some v) : (net.last name).1 = .ok v := by
  unfold last
  rcases hvalues : net.values name with ⟨all, net'⟩
  rw [hvalues] at h
  simp only [h]

end Network

end TapeNet
