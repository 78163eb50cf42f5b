import Mathlib.Data.Fintype.Pigeonhole
import Mathlib.Dynamics.PeriodicPts.Defs
import TapeNet.Proofs.Net.Launch
import TapeNet.Proofs.Net.Line

/-! # Progress

    A network gets stuck in one way only: a cycle of its nodes waits for
    inputs that nobody on the cycle will ever send.

    - `Stuck`: some worker has not finished, but none can take a step.
    - `Starved`: the machine of a node has not stopped and waits on its empty
      inbox.
    - In a stuck system whoever holds an open sender is blocked. A waiting
      receiver has such a sender by the counts of the switchboard, so
      starvation goes back against the graph (`Wiring.starved_before`), and
      in a finite graph it comes round.
-/

namespace TapeNet

/-- Some worker has not finished, but no worker can take a step. -/
def System.Stuck {α : Type} [Process α] (s : System α) : Prop :=
  s.finished = false ∧ ∀ i, s.ready i = false

namespace Network

open Process Tenant TapeNet.System

/-- The machine of node `i` has not stopped, and it waits on its empty inbox. -/
def Starved (net : Network) (s : System (Station ⊕ Relay)) (i : Nat) : Prop :=
  ∃ n w, net.nodes[i]? = some n ∧ s.workers[2 * i]? = some (.inl w) ∧
    w.stage = .working ∧ w.machine.isHalted = false ∧ w.machine.demand = .get ∧
    s.request (2 * i) = some (.receive n.inbox) ∧ (s.board.channel n.inbox).queue = [] ∧
    s.board.blocks (.receive n.inbox) = true

/-- Some nodes in a round, no node twice, each of which is a target of the next. -/
def IsCycle (net : Network) (c : Cycle Nat) : Prop :=
  c ≠ .nil ∧ c.Nodup ∧ c.Chain fun i j => net.Feeds j i

end Network

/-! ### Blocked workers -/

/-- A machine that asks for an input has not halted. -/
theorem Machine.isHalted_of_demand_get {m : Machine} (h : m.demand = .get) :
    m.isHalted = false := by
  by_contra hhalt
  have hphase : m.phase = .halted := by simpa [Machine.isHalted] using hhalt
  rw [Machine.demand_of_halted hphase] at h
  cases h

/-- A station only receives for its machine, and from its inbox. -/
theorem Station.request_eq_receive {w : Station} {c : Nat} (h : w.request = some (.receive c)) :
    w.stage = .working ∧ w.machine.demand = .get ∧ c = w.inbox := by
  obtain ⟨m, inbox, outlet, stage, fault⟩ := w
  cases stage with
  | working =>
    have hr : requestFor _ m.demand = .receive c := Option.some.inj h
    rcases requestFor_cases _ m.demand with ⟨-, hd⟩ | ⟨hget, hd⟩ | ⟨v, -, hd⟩
    · rw [hd] at hr
      cases hr
    · rw [hd] at hr
      exact ⟨rfl, hget, (Request.receive.inj hr).symm⟩
    · rw [hd] at hr
      cases hr
  | _ => cases h

/-- A relay only receives from its inbound channel. -/
theorem Relay.request_eq_receive {r : Relay} {c : Nat} (h : r.request = some (.receive c)) :
    c = r.inbound := by
  obtain ⟨name, inbound, targets, relayed, stage, failure, events⟩ := r
  cases stage with
  | receiving => exact (Request.receive.inj (Option.some.inj h)).symm
  | _ => cases h

namespace System

variable {α : Type} [Process α] {s : System α}

/-- In a stuck system a worker that has not finished waits to receive. -/
theorem Stuck.blocked (hs : s.Stuck) {i : Nat} {p : α} (hp : s.workers[i]? = some p)
    (hn : Process.request p ≠ none) :
    ∃ c, Process.request p = some (.receive c) ∧ s.board.waits c = true := by
  obtain ⟨r, hr⟩ := Option.ne_none_iff_exists'.mp hn
  have hready := hs.2 i
  have hreq : s.request i = some r := by
    rw [request, hp]
    exact hr
  simp only [ready, hreq, Bool.not_eq_false'] at hready
  cases r with
  | receive c => exact ⟨c, hr, hready⟩
  | _ => cases hready

/-- Where a receiver waits, some worker that has not finished holds a sender. -/
theorem Tidy.exists_holder [Tenant α] (hs : s.Tidy) {c : Nat} (hw : s.board.waits c = true) :
    ∃ (j : Nat) (p : α) (t : Nat), s.workers[j]? = some p ∧ Process.request p ≠ none ∧
      t ∈ Tenant.holds p ∧ (s.board.sender t).channel = c := by
  obtain ⟨-, -, t, ho, hc⟩ := (Switchboard.waits_iff hs.counted c).mp hw
  obtain ⟨j, p, hp, ht⟩ := (hs.isOpen_iff t).mp ho
  refine ⟨j, p, t, hp, ?_, ht, hc⟩
  intro hnone
  rw [(Tenant.free_of_finished hnone).1] at ht
  exact List.not_mem_nil ht

end System

namespace Network

open Process Tenant TapeNet.System

variable {net : Network} {s : System (Station ⊕ Relay)} {log : List Exchange}

/-! ### Starvation goes back -/

/-- In a stuck network a station that has not finished is starved. -/
theorem starved_of_station (h : Records net.system log s) (hs : s.Stuck) {i : Nat} {w : Station}
    (hw : s.workers[2 * i]? = some (.inl w)) (hn : w.request ≠ none) : net.Starved s i := by
  -- it is blocked, and a station only waits for its machine
  obtain ⟨c, hreq, hwait⟩ := hs.blocked hw hn
  obtain ⟨hstage, hget, rfl⟩ := Station.request_eq_receive hreq
  obtain ⟨j, n, hnode, hj⟩ := worker_cases h hw
  obtain rfl : i = j := by omega
  obtain ⟨w', hw', -, hinbox, -⟩ := exists_station h hnode
  rw [hw] at hw'
  obtain rfl := Sum.inl.inj (Option.some.inj hw')
  rw [hinbox] at hreq hwait
  refine ⟨n, w, hnode, hw, hstage, Machine.isHalted_of_demand_get hget, hget, ?_, ?_, hwait⟩
  · rw [System.request, hw]
    exact hreq
  · simp only [Switchboard.waits, Bool.and_eq_true, List.isEmpty_iff] at hwait
    exact hwait.1.2

/-- Whoever holds a sender of a waiting channel is the station or the relay of a node that has
    not finished, and held it from the start. -/
theorem Wiring.holder_cases (W : Wiring net) (h : Records net.system log s) {c : Nat}
    (hwait : s.board.waits c = true) :
    ∃ k n t, net.nodes[k]? = some n ∧ (net.board.sender t).channel = c ∧
      ((t = n.outlet ∧ ∃ w, s.workers[2 * k]? = some (.inl w) ∧ w.request ≠ none) ∨
        (t ∈ n.relay.targets ∧
          ∃ r, s.workers[2 * k + 1]? = some (.inr r) ∧ r.request ≠ none)) := by
  obtain ⟨j, p, t, hp, hn, ht, hc⟩ := (h.tidy W.tidy_system).exists_holder hwait
  rw [h.channel_sender, W.preloaded.channel_sender] at hc
  obtain ⟨p₀, hp₀, hstory⟩ := h.story hp
  obtain ⟨k, n, hnode, hk⟩ := W.owner_of_holds hp₀ (hstory.holds_subset.1 ht)
  refine ⟨k, n, t, hnode, hc, ?_⟩
  rcases hk with ⟨rfl, hout, -⟩ | ⟨rfl, hmem, -⟩
  · obtain ⟨w, hw, -⟩ := exists_station h hnode
    rw [hp] at hw
    obtain rfl := Option.some.inj hw
    exact .inl ⟨hout, w, hp, hn⟩
  · obtain ⟨r, hr, -⟩ := exists_relay h hnode
    rw [hp] at hr
    obtain rfl := Option.some.inj hr
    exact .inr ⟨hmem, r, hp, hn⟩

/-- In a stuck network the node of a relay that has not finished is starved. -/
theorem Wiring.starved_of_relay (W : Wiring net) (h : Records net.system log s) (hs : s.Stuck)
    {i : Nat} {r : Relay} (hr : s.workers[2 * i + 1]? = some (.inr r)) (hn : r.request ≠ none) :
    net.Starved s i := by
  obtain ⟨c, hreq, hwait⟩ := hs.blocked hr hn
  obtain ⟨j, n, hnode, hj⟩ := worker_cases h hr
  obtain rfl : i = j := by omega
  obtain ⟨r', hr', -, hinbound⟩ := exists_relay h hnode
  rw [hr] at hr'
  obtain rfl := Sum.inr.inj (Option.some.inj hr')
  obtain rfl := (Relay.request_eq_receive hreq).trans hinbound
  have hplaced := W.placed n (List.mem_of_getElem? hnode)
  obtain ⟨k, m, t, hnode', hc, hcase⟩ := W.holder_cases h hwait
  have hmem := List.mem_of_getElem? hnode'
  rcases hcase with ⟨rfl, w, hw, hw'⟩ | ⟨htarget, -⟩
  · -- only the outlet of the node itself sends to its outbox
    have huse := hplaced.outbox_use
    rw [← hc, W.use_outlet hmem] at huse
    obtain rfl := W.index_eq hnode' hnode (Use.outbox.inj huse)
    exact starved_of_station h hs hw hw'
  · -- targets belong to inboxes and sinks
    exfalso
    have huse := hplaced.outbox_use
    rw [← hc] at huse
    rcases W.use_target hmem htarget with ⟨x, hx⟩ | ⟨x, hx⟩
    · cases huse.symm.trans hx
    · cases huse.symm.trans hx

/-- In a stuck network a starved node is fed by a starved node. -/
theorem Wiring.starved_before (W : Wiring net) (h : Records net.system log s) (hs : s.Stuck)
    {i : Nat} (hi : net.Starved s i) : ∃ k, net.Feeds k i ∧ net.Starved s k := by
  obtain ⟨n, w, hnode, -, -, -, -, -, -, hwait⟩ := hi
  have hplaced := W.placed n (List.mem_of_getElem? hnode)
  obtain ⟨k, m, t, hnode', hc, hcase⟩ := W.holder_cases h hwait
  rcases hcase with ⟨rfl, -⟩ | ⟨htarget, r, hr, hn⟩
  · -- an outlet belongs to an outbox, not to an inbox
    exfalso
    have huse := hplaced.inbox_use
    rw [← hc, W.use_outlet (List.mem_of_getElem? hnode')] at huse
    cases huse
  · exact ⟨k, ⟨m, n, hnode', hnode, t, htarget, hc⟩, W.starved_of_relay h hs hr hn⟩

/-- In a stuck network some node is starved. -/
theorem Wiring.exists_starved (W : Wiring net) (h : Records net.system log s) (hs : s.Stuck) :
    ∃ i, net.Starved s i := by
  have hsome : ∃ p ∈ s.workers, Process.request p ≠ none := by
    have hfinished := hs.1
    simp only [System.finished, Array.all_eq_false', Bool.not_eq_true, Option.isNone_eq_false_iff,
      Option.isSome_iff_ne_none] at hfinished
    exact hfinished
  obtain ⟨p, hp, hn⟩ := hsome
  obtain ⟨j, hj⟩ := Array.mem_iff_getElem?.mp hp
  obtain ⟨i, n, -, ⟨rfl, w, rfl⟩ | ⟨rfl, r, rfl⟩⟩ := worker_cases h hj
  · exact ⟨i, starved_of_station h hs hj hn⟩
  · exact ⟨i, W.starved_of_relay h hs hj hn⟩

/-! ### Starvation comes round -/

/-- A finite set in which every element has a predecessor holds a cycle. -/
theorem exists_cycle_of_before {n : Nat} {starved : Nat → Prop} {before : Nat → Nat → Prop}
    (hlt : ∀ i, starved i → i < n) (hbefore : ∀ i, starved i → ∃ k, before k i ∧ starved k)
    {i : Nat} (hi : starved i) :
    ∃ c : Cycle Nat, c ≠ .nil ∧ c.Nodup ∧ (c.Chain fun i j => before j i) ∧
      ∀ j ∈ c, starved j := by
  -- go back again and again
  choose! f hf hstarved using hbefore
  have hiter : ∀ m, starved (f^[m] i) := by
    intro m
    induction m with
    | zero => exact hi
    | succ m ih =>
      rw [Function.iterate_succ_apply']
      exact hstarved _ ih
  -- among more than n iterates two are the same
  obtain ⟨a, b, hab, heq⟩ : ∃ a b : Nat, a < b ∧ f^[a] i = f^[b] i := by
    obtain ⟨a, b, hne, heq⟩ := Finite.exists_ne_map_eq_of_infinite
      fun m : Nat => (⟨f^[m] i, hlt _ (hiter m)⟩ : Fin n)
    have hval : f^[a] i = f^[b] i := Fin.mk.inj heq
    rcases Nat.lt_or_gt_of_ne hne with hlt | hlt
    · exact ⟨a, b, hlt, hval⟩
    · exact ⟨b, a, hlt, hval.symm⟩
  have hperiodic : f^[a] i ∈ Function.periodicPts f := by
    refine Function.mk_mem_periodicPts (show 0 < b - a by omega) ?_
    show f^[b - a] (f^[a] i) = f^[a] i
    rw [← Function.iterate_add_apply, Nat.sub_add_cancel hab.le, heq]
  refine ⟨Function.periodicOrbit f (f^[a] i), ?_, Function.nodup_periodicOrbit, ?_, ?_⟩
  · exact fun hnil => Function.periodicOrbit_eq_nil_iff_not_periodic_pt.mp hnil hperiodic
  · rw [Function.periodicOrbit_chain' _ hperiodic]
    intro m
    rw [Function.iterate_succ_apply', ← Function.iterate_add_apply]
    exact hf _ (hiter (m + a))
  · intro j hj
    obtain ⟨m, rfl⟩ := (Function.mem_periodicOrbit_iff hperiodic).mp hj
    rw [← Function.iterate_add_apply]
    exact hiter (m + a)

theorem Starved.lt {i : Nat} (hi : net.Starved s i) : i < net.nodes.length := by
  obtain ⟨n, w, hnode, -⟩ := hi
  exact (List.getElem?_eq_some_iff.mp hnode).1

/-- A stuck network has a starved cycle. -/
theorem Wiring.exists_starved_cycle (W : Wiring net) (h : Records net.system log s)
    (hs : s.Stuck) : ∃ c, net.IsCycle c ∧ ∀ i ∈ c, net.Starved s i := by
  obtain ⟨i, hi⟩ := W.exists_starved h hs
  obtain ⟨c, hne, hnodup, hchain, hall⟩ :=
    exists_cycle_of_before (fun _ => Starved.lt) (fun _ => W.starved_before h hs) hi
  exact ⟨c, ⟨hne, hnodup, hchain⟩, hall⟩

/-- In a stuck loop every node is starved. -/
theorem Wiring.starved_loop (W : Wiring net) (h : Records net.system log s) (hs : s.Stuck)
    {pairs : List (List Int × List Int)}
    (hloop : net.sites = lineSites (lineExits true pairs.length) pairs) {j : Nat}
    (hj : j < pairs.length) : net.Starved s j := by
  have hstep : ∀ i, net.Starved s (i + 1) → net.Starved s i := by
    intro i hi
    obtain ⟨k, hfeeds, hk⟩ := W.starved_before h hs hi
    rcases ((feeds_iff_of_lineSites hloop).mp hfeeds).2.2 with hnext | ⟨-, -, hzero⟩
    · obtain rfl : k = i := by omega
      exact hk
    · omega
  have hdown : ∀ d i, net.Starved s (i + d) → net.Starved s i := by
    intro d
    induction d with
    | zero => exact fun i hi => hi
    | succ d ih => exact fun i hi => ih i (hstep _ hi)
  -- from any starved node down to the first one, and from there round to the last one
  obtain ⟨i, hi⟩ := W.exists_starved h hs
  have hfirst : net.Starved s 0 := hdown i 0 (by rwa [Nat.zero_add])
  obtain ⟨k, hfeeds, hk⟩ := W.starved_before h hs hfirst
  rcases ((feeds_iff_of_lineSites hloop).mp hfeeds).2.2 with hnext | ⟨-, hlast, -⟩
  · omega
  · exact hdown (k - j) j (by rwa [Nat.add_sub_cancel' (by omega)])

/-! ### Progress -/

/-- A network that can be built gets stuck only in a starved cycle. So without cycles it never
    gets stuck, and neither does a loop in which some machine has stopped. -/
theorem stuck_only_in_starved_cycle {net : Network} (hbuilt : net.Built)
    {s : System (Station ⊕ Relay)} (hreach : Reaches net.system s) :
    (s.Stuck → ∃ c, net.IsCycle c ∧ ∀ i ∈ c, net.Starved s i) ∧
    ((∀ c, ¬net.IsCycle c) → ¬s.Stuck) ∧
    (∀ maxWorkers programs preloads name,
      (line true programs preloads).on (.empty maxWorkers) = (.ok name, net) →
        (∃ (i : Nat) (w : Station), s.workers[i]? = some (.inl w) ∧ w.stage ≠ .working) →
          ¬s.Stuck) := by
  obtain ⟨W⟩ := hbuilt.wiring
  obtain ⟨log, h⟩ := exists_records_of_reaches hreach
  refine ⟨W.exists_starved_cycle h, ?_, ?_⟩
  · intro hacyclic hs
    obtain ⟨c, hc, -⟩ := W.exists_starved_cycle h hs
    exact hacyclic c hc
  · rintro maxWorkers programs preloads name hline ⟨j, w, hw, hstage⟩ hs
    -- a loop that was built has programs, and as many preloads
    obtain ⟨hne, hlen⟩ : programs ≠ [] ∧
        (preloads.getD (programs.map fun _ => [])).length = programs.length := by
      by_contra hmismatch
      obtain ⟨e, herror⟩ := on_line_of_mismatch true hmismatch (.empty maxWorkers)
      rw [hline] at herror
      cases herror
    obtain ⟨net', hok, -, -, hsites⟩ := on_line true hne hlen maxWorkers
    rw [hline] at hok
    obtain rfl := (Prod.mk.inj hok).2
    obtain ⟨i, n, hnode, ⟨rfl, -⟩ | ⟨-, r, hr⟩⟩ := worker_cases h hw
    · have hi : i < (programs.zip (preloads.getD (programs.map fun _ => []))).length := by
        rw [← length_lineSites, ← hsites, length_sites]
        exact (List.getElem?_eq_some_iff.mp hnode).1
      obtain ⟨n', w', -, hw', hworking, -⟩ := W.starved_loop h hs hsites hi
      rw [hw] at hw'
      obtain rfl := Sum.inl.inj (Option.some.inj hw')
      exact hstage hworking
    · cases hr

/-- A loop of one machine that reads before anything was written. -/
def lonelyLoop : Network := ((line true [[3, 0, 99]] none).on (.empty none)).2

theorem stuck_lonelyLoop : lonelyLoop.system.Stuck := by
  refine ⟨by decide +kernel, fun i => ?_⟩
  have hsize : lonelyLoop.system.workers.size = 2 := by decide +kernel
  by_cases hi : i < 2
  · have hall : ∀ i < 2, lonelyLoop.system.ready i = false := by decide +kernel
    exact hall i hi
  · have hnone : lonelyLoop.system.workers[i]? = none :=
      Array.getElem?_eq_none (by omega)
    rw [ready, System.request, hnone]
    rfl

theorem lonelyLoop_starves :
    lonelyLoop.system.Stuck ∧
      ∃ c, lonelyLoop.IsCycle c ∧ ∀ i ∈ c, lonelyLoop.Starved lonelyLoop.system i :=
  ⟨stuck_lonelyLoop, (stuck_only_in_starved_cycle (built_line true [[3, 0, 99]] none none)
    (.refl lonelyLoop.system)).1 stuck_lonelyLoop⟩

end Network

end TapeNet
