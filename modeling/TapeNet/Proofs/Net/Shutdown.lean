import TapeNet.Proofs.Machine.Atomicity
import TapeNet.Proofs.Machine.Sessions
import TapeNet.Proofs.Net.Traffic

/-! # Networks that have finished

    When all workers of a network have finished, every endpoint that a worker
    ever had is closed, whichever way the worker came to stop, and a fault of
    a machine is reported.

    - `Records.closed_of_released`: a receiver that a worker had and has not
      any more is closed. In a finished system nobody has anything, so all
      senders are closed too.
    - `Station.Consistent`: a machine that has stopped has halted, unless it
      broke off, and only a defect of its program breaks it off.
    - `Relay.failure_story`: a relay never breaks off.
    - `shutdown_complete`: every node, every sink and the verdict.
-/

namespace TapeNet

/-! ### Systems of tenants that have finished -/

namespace System

open Tenant Process

variable {α : Type} [Process α] [Tenant α] {s₀ s : System α} {log : List Exchange}

/-- A receiver that a worker had and has not any more is closed. -/
theorem Records.closed_of_released (h : Records s₀ log s) {i c : Nat} {p₀ p : α}
    (hp₀ : s₀.workers[i]? = some p₀) (hc : c ∈ reads p₀) (hp : s.workers[i]? = some p)
    (hn : c ∉ reads p) : (s.board.channel c).receiverOpen = false := by
  induction h generalizing p with
  | start =>
    rw [hp₀] at hp
    obtain rfl := Option.some.inj hp
    exact absurd hc hn
  | @serve log s j r hrec hreq hb ih =>
    rcases worker_serve_cases hp with ⟨-, hq⟩ | ⟨rfl, q, hq, rfl⟩
    · exact receiver_closed_serve hb (ih hq hn)
    · by_cases hmem : c ∈ reads q
      · -- the worker gives a receiver up by closing it, and by nothing else
        obtain ⟨q', hq', hrequest⟩ := exists_worker_of_request hreq
        rw [hq] at hq'
        obtain rfl := Option.some.inj hq'
        rw [reads_resume _ hrequest, Request.mem_receiversLeft (nodup_reads q)] at hn
        have hclose : r = .closeReceiver c := by
          by_contra hne
          exact hn ⟨hmem, hne⟩
        rw [hclose, board_serve]
        exact s.board.receiverOpen_closeReceiver_self c
      · exact receiver_closed_serve hb (ih hq hmem)

/-- In a finished system the receivers of all workers are closed. -/
theorem Records.receiver_closed_of_finished (h : Records s₀ log s) (hf : s.finished = true)
    {i c : Nat} {p₀ : α} (hp₀ : s₀.workers[i]? = some p₀) (hc : c ∈ reads p₀) :
    (s.board.channel c).receiverOpen = false := by
  obtain ⟨p, hp, -⟩ := h.exists_worker hp₀
  have hfree := free_of_finished (request_of_finished hf hp)
  refine h.closed_of_released hp₀ hc hp ?_
  rw [hfree.2]
  exact List.not_mem_nil

/-- In a finished system all senders are closed. -/
theorem Tidy.sender_closed_of_finished (hs : s.Tidy) (hf : s.finished = true) (t : Nat) :
    (s.board.sender t).isOpen = false := by
  by_contra hopen
  obtain ⟨i, p, hp, ht⟩ := (hs.isOpen_iff t).mp (Bool.eq_true_of_not_eq_false hopen)
  rw [(free_of_finished (request_of_finished hf hp)).1] at ht
  exact List.not_mem_nil ht

theorem Tidy.openSenders_of_finished (hs : s.Tidy) (hf : s.finished = true) (c : Nat) :
    (s.board.channel c).openSenders = 0 := by
  rw [hs.counted c, Finset.card_eq_zero, Finset.eq_empty_iff_forall_notMem]
  intro t ht
  have hopen := (Switchboard.mem_openOn.mp ht).1
  rw [hs.sender_closed_of_finished hf t] at hopen
  cases hopen

end System

/-! ### How machines stop -/

/-- A defect of a program: an instruction that cannot be decoded or has no place for its result, or
    an address below zero. -/
def Fault.IsDefect (f : Fault) : Prop :=
  (∃ cause, f = .decode cause) ∨ ∃ cause, f = .address cause

theorem Fault.isDefect_of_ne_port {f : Fault} (h : ∀ e, f ≠ .port e) : f.IsDefect := by
  cases f with
  | decode cause => exact .inl ⟨cause, rfl⟩
  | address cause => exact .inr ⟨cause, rfl⟩
  | port e => exact absurd rfl (h e)

namespace Machine

variable {m m' : Machine} {reply : Reply} {o : Outcome}

/-- A machine that has come to an end without a fault has halted. -/
theorem phase_of_ended (h : m.resume reply = (o, m')) (ho : o ≠ .continued)
    (hfault : ∀ f, o ≠ .failed f) : m'.phase = .halted := by
  rw [resume] at h
  rcases m.plan_cases with hp | ⟨cause, -, hp⟩ | ⟨i, f, -, -, hp⟩ | ⟨i, e, -, -, hp⟩
  · rw [hp] at h
    cases h
    by_contra hne
    exact plan_ne_idle hne hp
  · rw [hp] at h
    cases h
    exact absurd rfl (hfault _)
  · rw [hp] at h
    cases h
    exact absurd rfl (hfault _)
  · rw [hp] at h
    have happly : m.counted.apply i.opcode.length e reply = (o, m') := h
    rcases m.counted.apply_cases i.opcode.length e reply with
      ⟨_, hs⟩ | ⟨-, hs⟩ | ⟨cause, -, -, hs⟩ | ⟨a, -, hs, -⟩
    · cases hs.symm.trans happly
      exact absurd rfl ho
    · cases hs.symm.trans happly
      rfl
    · rcases m.counted.refused_cases cause with hc | hc
      · cases (hs.trans hc).symm.trans happly
        rfl
      · cases (hs.trans hc).symm.trans happly
        exact absurd rfl (hfault _)
    · cases hs.symm.trans happly
      exact absurd rfl (hfault _)

/-- On a port that refuses only what is closed, a machine breaks off for defects only. -/
theorem isDefect_of_failed {f : Fault} (h : m.resume reply = (.failed f, m'))
    (hreply : ∀ e, reply = .error e → ∃ cause, e = .closed cause) : f.IsDefect := by
  refine Fault.isDefect_of_ne_port fun e he => ?_
  subst he
  obtain ⟨rfl, hasks⟩ := refused_of_fault h
  obtain ⟨cause, rfl⟩ := hreply e rfl
  -- a machine that finds a channel closed stops gracefully
  cases (resume_closed hasks cause).symm.trans h

end Machine

namespace Station

open History Process TapeNet.System

/-- The stage of a station, its machine and its fault fit together: once it has stopped, the machine
    has halted or there is a fault, which is a defect of its program. -/
structure Consistent (w : Station) : Prop where
  halted_iff : w.stage ≠ .working → (w.machine.phase = .halted ↔ w.fault = none)
  defect : ∀ f, w.fault = some f → f.IsDefect

theorem consistent_settle {m m' : Machine} {reply : Reply} {o : Outcome}
    (h : m.resume reply = (o, m')) (hreply : ∀ e, reply = .error e → ∃ cause, e = .closed cause)
    (c t : Nat) : (settle c t (o, m')).Consistent := by
  have hended : ∀ (ho : o ≠ .continued) (hfault : ∀ f, o ≠ .failed f),
      (⟨m', c, t, .closingInbox, none⟩ : Station).Consistent := by
    intro ho hfault
    exact ⟨fun _ => ⟨fun _ => rfl, fun _ => Machine.phase_of_ended h ho hfault⟩,
      fun f hf => by cases hf⟩
  cases o with
  | continued => exact ⟨fun hstage => absurd rfl hstage, fun f hf => by cases hf⟩
  | failed f =>
    obtain ⟨-, hphase, -⟩ := Machine.resume_failed h
    refine ⟨fun _ => ⟨fun hhalted => ?_, fun hnone => by cases hnone⟩, fun f' hf' => ?_⟩
    · cases hphase.symm.trans hhalted
    · obtain rfl := Option.some.inj hf'
      exact Machine.isDefect_of_failed h hreply
  | idle => exact hended Outcome.noConfusion fun _ => Outcome.noConfusion
  | halted => exact hended Outcome.noConfusion fun _ => Outcome.noConfusion
  | stopped cause => exact hended Outcome.noConfusion fun _ => Outcome.noConfusion

/-- A switchboard refuses only what is closed, so every station is consistent at any time. -/
theorem consistent_story {m₀ : Machine} {c t : Nat} {h : History} {w : Station}
    (hs : Story (start m₀ c t) h w) (hp : ∀ e ∈ h, Plain e) : w.Consistent := by
  induction hs with
  | start => exact ⟨fun hstage => absurd rfl hstage, fun f hf => by cases hf⟩
  | @hear h w r reply _ _ ih =>
    have hw := ih fun e he => hp e (List.mem_append_left _ he)
    have hlast := hp (r, reply) (List.mem_append_right _ (List.mem_singleton_self _))
    have hreply : ∀ e, reply = .error e → ∃ cause, e = .closed cause := by
      rintro e rfl
      cases hlast with
      | ended _ cause => exact ⟨cause, rfl⟩
      | refused _ _ cause => exact ⟨cause, rfl⟩
    obtain ⟨m, inbox, outlet, stage, fault⟩ := w
    cases stage with
    | working => exact consistent_settle rfl hreply inbox outlet
    | closingInbox => exact ⟨fun _ => hw.halted_iff Stage.noConfusion, hw.defect⟩
    | closingOutlet => exact ⟨fun _ => hw.halted_iff Stage.noConfusion, hw.defect⟩
    | finished => exact ⟨fun _ => hw.halted_iff Stage.noConfusion, hw.defect⟩

end Station

/-! ### Relays -/

namespace Relay

open History Process TapeNet.System

@[simp] theorem failure_forward (r : Relay) (v : Int) (rest : List Nat) :
    (r.forward v rest).failure = r.failure := by
  cases rest with
  | cons t rest => rfl
  | nil =>
    simp only [forward]
    split
    · rfl
    · rfl

@[simp] theorem failure_release (r : Relay) (rest : List Nat) :
    (r.release rest).failure = r.failure := by
  cases rest <;> rfl

/-- A relay breaks off only for a refusal other than the end of its channel, and there is none. -/
theorem failure_story {r₀ r : Relay} {h : History} (hs : Story r₀ h r)
    (h₀ : r₀.failure = none) (hp : ∀ e ∈ h, Plain e) : r.failure = none := by
  induction hs with
  | start => exact h₀
  | @hear h r q reply _ hq ih =>
    have hr := ih fun e he => hp e (List.mem_append_left _ he)
    have hlast := hp (q, reply) (List.mem_append_right _ (List.mem_singleton_self _))
    obtain ⟨name, c, targets, relayed, stage, failure, events⟩ := r
    obtain rfl : failure = none := hr
    cases stage with
    | receiving =>
      obtain rfl := Option.some.inj hq
      cases hlast with
      | received _ v => exact failure_forward _ _ _
      | ended _ cause => rfl
      | served hne => exact absurd rfl (hne c)
    | sending v t rest =>
      cases reply with
      | ok _ => exact failure_forward _ _ _
      | error _ => rfl
    | dropping v t rest => exact failure_forward _ _ _
    | closingInbound => exact failure_release _ _
    | closingTarget t rest => exact failure_release _ _
    | finished => rfl

end Relay

namespace Network

open Process Tenant TapeNet.System

variable {net : Network} {s : System (Station ⊕ Relay)} {log : List Exchange} {i : Nat} {n : Node}

/-! ### The verdict -/

theorem mem_faults {f : Fault} :
    f ∈ faults s ↔ ∃ (i : Nat) (w : Station), s.workers[i]? = some (.inl w) ∧ w.fault = some f := by
  rw [faults, List.mem_filterMap]
  constructor
  · rintro ⟨p, hp, hf⟩
    cases p with
    | inl w =>
      obtain ⟨i, hi⟩ := Array.getElem?_of_mem (Array.mem_toList_iff.mp hp)
      exact ⟨i, w, hi, hf⟩
    | inr r => cases hf
  · rintro ⟨i, w, hw, hf⟩
    exact ⟨.inl w, Array.mem_toList_iff.mpr (Array.mem_of_getElem? hw), hf⟩

/-- A run reports one of the faults, if there are any. -/
theorem mem_faults_of_verdict {e : NetworkError} (h : verdict s = .error e) :
    ∃ f ∈ faults s, e = .fault f := by
  unfold verdict at h
  split at h
  · cases h
  · next f rest hfaults =>
    cases h
    rw [hfaults]
    exact ⟨f, List.mem_cons_self, rfl⟩

/-- A fault of a machine is reported. -/
theorem verdict_of_fault {w : Station} (hw : s.workers[i]? = some (.inl w)) {f : Fault}
    (hf : w.fault = some f) : ∃ f', verdict s = .error (.fault f') := by
  have hmem : f ∈ faults s := mem_faults.mpr ⟨i, w, hw, hf⟩
  unfold verdict
  cases hfaults : faults s with
  | nil =>
    rw [hfaults] at hmem
    cases hmem
  | cons f' rest => exact ⟨f', rfl⟩

/-- If the machine of no node broke off, then the run succeeds. -/
theorem verdict_ok (h : Records net.system log s)
    (hnodes : ∀ i n, net.nodes[i]? = some n →
      ∃ w, s.workers[2 * i]? = some (.inl w) ∧ w.fault = none) : verdict s = .ok () := by
  cases hv : verdict s with
  | ok _ => rfl
  | error e =>
    obtain ⟨f, hmem, rfl⟩ := mem_faults_of_verdict hv
    obtain ⟨j, w, hw, hfault⟩ := mem_faults.mp hmem
    obtain ⟨i, n, hn, ⟨rfl, -⟩ | ⟨-, r, hr⟩⟩ := worker_cases h hw
    · obtain ⟨w', hw', hnone⟩ := hnodes i n hn
      rw [hw] at hw'
      obtain rfl := Sum.inl.inj (Option.some.inj hw')
      cases hfault.symm.trans hnone
    · cases hr

/-- What a node is left with when its network is settled. -/
theorem exists_of_mem_settle (h : Records net.system log s)
    (hn : n ∈ (({ net with started := true } : Network).settle s).nodes) :
    ∃ i m w, net.nodes[i]? = some m ∧ s.workers[2 * i]? = some (.inl w) ∧
      n.machine = w.machine := by
  obtain ⟨i, hi, rfl⟩ := List.mem_mapIdx.mp hn
  have hm : net.nodes[i]? = some net.nodes[i] := List.getElem?_eq_getElem hi
  obtain ⟨w, hw, -⟩ := exists_station h hm
  obtain ⟨r, hr, -⟩ := exists_relay h hm
  refine ⟨i, _, w, hm, hw, ?_⟩
  rw [settleNode, hw, hr]

/-- If no machine broke off, and all of them are left as they should be, then the run succeeds, and
    the settled network has such machines. -/
theorem verdict_and_machines (h : Records net.system log s) {P : Machine → Prop}
    (hnodes : ∀ i n, net.nodes[i]? = some n →
      ∃ w, s.workers[2 * i]? = some (.inl w) ∧ P w.machine ∧ w.fault = none) :
    verdict s = .ok () ∧
      ∀ n ∈ (({ net with started := true } : Network).settle s).nodes, P n.machine := by
  constructor
  · apply verdict_ok h
    intro i n hn
    obtain ⟨w, hw, -, hfault⟩ := hnodes i n hn
    exact ⟨w, hw, hfault⟩
  · intro n hn
    obtain ⟨i, m, w, hm, hw, hmachine⟩ := exists_of_mem_settle h hn
    obtain ⟨w', hw', hleft, -⟩ := hnodes i m hm
    rw [hw] at hw'
    obtain rfl := Sum.inl.inj (Option.some.inj hw')
    rwa [hmachine]

/-! ### Shutdown -/

/-- The two workers of a node when all have finished, and the endpoints that it was wired with. -/
structure ShutDown (s : System (Station ⊕ Relay)) (n : Node) (w : Station) (r : Relay) : Prop where
  halted_iff : w.machine.phase = .halted ↔ w.fault = none
  defect : ∀ f, w.fault = some f → f.IsDefect
  failure : r.failure = none
  inbox : (s.board.channel n.inbox).receiverOpen = false
  outlet : (s.board.sender n.outlet).isOpen = false
  inbound : (s.board.channel n.relay.inbound).receiverOpen = false
  targets : ∀ t ∈ n.relay.targets, (s.board.sender t).isOpen = false

theorem Wiring.shutDown (W : Wiring net) (h : Records net.system log s) (hf : s.finished = true)
    (hn : net.nodes[i]? = some n) :
    ∃ w r, s.workers[2 * i]? = some (.inl w) ∧ s.workers[2 * i + 1]? = some (.inr r) ∧
      ShutDown s n w r := by
  obtain ⟨w, hw, hstation, -⟩ := exists_station h hn
  obtain ⟨r, hr, hrelay, -⟩ := exists_relay h hn
  have hconsistent := Station.consistent_story hstation (h.plain _)
  have hclosed := (h.tidy W.tidy_system).sender_closed_of_finished hf
  have hstage := Station.not_working_of_request_eq_none (request_of_finished hf hw)
  refine ⟨w, r, hw, hr, ?_⟩
  exact {
    halted_iff := hconsistent.halted_iff hstage
    defect := hconsistent.defect
    failure := Relay.failure_story hrelay rfl (h.plain _)
    inbox := h.receiver_closed_of_finished hf (system_station hn) (List.mem_singleton_self _)
    outlet := hclosed _
    inbound := h.receiver_closed_of_finished hf (system_relay hn) (List.mem_singleton_self _)
    targets := fun t _ => hclosed t }

/-- In every interleaving in which all workers of a network finish: each machine has halted unless
    it broke off, for a defect of its program; no relay broke off; all endpoints of the nodes are
    closed, every target that a relay ever had among them; sinks have no open sender, and their
    receivers are open. The run reports a fault if and only if some machine broke off, and it
    reports the fault of such a machine. -/
theorem shutdown_complete (hb : net.Built) (h : Reaches net.system s) (hf : s.finished = true) :
    (∀ i n, net.nodes[i]? = some n → ∃ w r, s.workers[2 * i]? = some (.inl w) ∧
      s.workers[2 * i + 1]? = some (.inr r) ∧ ShutDown s n w r) ∧
    (∀ x ∈ net.sinks, (s.board.channel x.channel).openSenders = 0 ∧
      (s.board.channel x.channel).receiverOpen = true) ∧
    ((∃ e, verdict s = .error e) ↔
      ∃ (i : Nat) (w : Station) (f : Fault), s.workers[2 * i]? = some (.inl w) ∧
        w.fault = some f) ∧
    ∀ e, verdict s = .error e → ∃ (i : Nat) (w : Station) (f : Fault),
      s.workers[2 * i]? = some (.inl w) ∧ w.fault = some f ∧ e = .fault f ∧
        ((∃ cause, f = .decode cause) ∨ ∃ cause, f = .address cause) := by
  obtain ⟨W⟩ := hb.wiring
  obtain ⟨log, hlog⟩ := exists_records_of_reaches h
  have hnodes : ∀ i n, net.nodes[i]? = some n → ∃ w r, s.workers[2 * i]? = some (.inl w) ∧
      s.workers[2 * i + 1]? = some (.inr r) ∧ ShutDown s n w r :=
    fun i n hn => W.shutDown hlog hf hn
  have hreported : ∀ e, verdict s = .error e → ∃ (i : Nat) (w : Station) (f : Fault),
      s.workers[2 * i]? = some (.inl w) ∧ w.fault = some f ∧ e = .fault f ∧ f.IsDefect := by
    intro e he
    obtain ⟨f, hmem, rfl⟩ := mem_faults_of_verdict he
    obtain ⟨j, w, hw, hfault⟩ := mem_faults.mp hmem
    -- the fault is that of a station, which belongs to a node
    obtain ⟨i, n, hn, ⟨rfl, -⟩ | ⟨-, r, hr⟩⟩ := worker_cases hlog hw
    · obtain ⟨w', r, hw', -, hdown⟩ := hnodes i n hn
      rw [hw] at hw'
      obtain rfl := Sum.inl.inj (Option.some.inj hw')
      exact ⟨i, w, f, hw, hfault, rfl, hdown.defect f hfault⟩
    · cases hr
  refine ⟨hnodes, fun x hx => ⟨?_, (W.unread_sink hlog hx).1⟩, ?_, hreported⟩
  · exact (hlog.tidy W.tidy_system).openSenders_of_finished hf _
  · constructor
    · rintro ⟨e, he⟩
      obtain ⟨i, w, f, hw, hfault, -⟩ := hreported e he
      exact ⟨i, w, f, hw, hfault⟩
    · rintro ⟨i, w, f, hw, hfault⟩
      obtain ⟨f', hf'⟩ := verdict_of_fault hw hfault
      exact ⟨_, hf'⟩

/-- A machine that gives a value and then meets a word that is no instruction, and one that takes
    the value and looks for another. -/
def failing : Network :=
  let net := (NetworkM.on (addMachine "a" [104, 1, 98] []) (.empty none)).2
  let net := (NetworkM.on (addMachine "b" [3, 0, 3, 0, 99] []) net).2
  let net := (NetworkM.on (connect "a" ["b", "b"]) net).2
  (NetworkM.on (addSink "a" none) net).2

/-- Everything is closed in the end, and the fault is reported. -/
theorem failing_shutDown :
    let s := failing.system.follow (List.replicate 16 [0, 1, 2, 3]).flatten
    s.finished = true ∧
      (∃ x ∈ failing.sinks, (s.board.channel x.channel).queue = [1] ∧
        (s.board.channel x.channel).openSenders = 0 ∧
        (s.board.channel x.channel).receiverOpen = true) ∧
      (∀ i n, failing.nodes[i]? = some n → ∃ w r, s.workers[2 * i]? = some (.inl w) ∧
        s.workers[2 * i + 1]? = some (.inr r) ∧ ShutDown s n w r) ∧
      verdict s = .error (.fault (.decode ⟨98, .unknownOpcode 98⟩)) ∧
      ∃ (i : Nat) (w : Station), s.workers[2 * i]? = some (.inl w) ∧
        w.fault = some (.decode ⟨98, .unknownOpcode 98⟩) := by
  intro s
  have hb : failing.Built :=
    .addSink _ _ (.connect _ _ (.addMachine _ _ _ (.addMachine _ _ _ (.empty none))))
  have hf : s.finished = true := by decide +kernel
  have hverdict : verdict s = .error (.fault (.decode ⟨98, .unknownOpcode 98⟩)) := by
    decide +kernel
  have hqueue : ∃ x ∈ failing.sinks, (s.board.channel x.channel).queue = [1] := by decide +kernel
  obtain ⟨hnodes, hsinks, -, hreported⟩ :=
    shutdown_complete hb (reaches_follow _ _ : Reaches _ s) hf
  obtain ⟨x, hx, hone⟩ := hqueue
  obtain ⟨i, w, f, hw, hfault, heq, -⟩ := hreported _ hverdict
  obtain rfl := NetworkError.fault.inj heq
  exact ⟨hf, ⟨x, hx, hone, hsinks x hx⟩, hnodes, hverdict, i, w, hw, hfault⟩

end Network

end TapeNet
