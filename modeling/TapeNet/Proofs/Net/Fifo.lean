import TapeNet.Proofs.Net.Tidy

/-! # Channels keep order

    What goes into a channel comes out of it, in order and only once, and
    what is said about its end is final.

    - `arrived s₀ c log`: all that was ever queued on a channel.
    - `Records.fifo`: while the receiver is open, the arrivals are what was
      received and then what is queued. What was received is always a first
      part of them.
    - `Records.receiver_closed`: a sender is refused only once the receiver is
      closed.
    - `Records.over`: who finds the end of a channel has received all that
      ever arrives, and nobody is ever refused.
-/

namespace TapeNet

namespace System

open History Tenant

/-- Whether a sender belongs to a channel. -/
def leadsTo {α : Type} (s₀ : System α) (c t : Nat) : Bool := (s₀.board.sender t).channel = c

/-- All that was ever queued on a channel, from the start on. -/
def arrived {α : Type} (s₀ : System α) (c : Nat) (log : List Exchange) : List Int :=
  (s₀.board.channel c).queue ++ sent (s₀.leadsTo c) (script log)

variable {α : Type}

@[simp] theorem leadsTo_eq_true {s₀ : System α} {c t : Nat} :
    s₀.leadsTo c t = true ↔ (s₀.board.sender t).channel = c := by
  simp [leadsTo]

theorem arrived_concat (s₀ : System α) (c : Nat) (log : List Exchange) (e : Exchange) :
    s₀.arrived c (log ++ [e]) =
      s₀.arrived c log ++ (sentIn (s₀.leadsTo c) (e.request, e.reply)).toList := by
  rw [arrived, arrived, script_concat, sent_concat, List.append_assoc]

variable [Process α] {s₀ s : System α} {log : List Exchange}

/-! ### First in, first out -/

/-- What a channel has delivered and what it has queued, against all that ever arrived. -/
structure Delivers (s₀ : System α) (c : Nat) (log : List Exchange) (s : System α) : Prop where
  in_order : (s.board.channel c).receiverOpen = true →
    s₀.arrived c log = received c (script log) ++ (s.board.channel c).queue
  received_le : received c (script log) <+: s₀.arrived c log

/-- A step that neither sends to a channel nor receives from it leaves it as it was. -/
theorem Delivers.unmoved {c : Nat} (h : Delivers s₀ c log s) {i : Nat} {r : Request}
    (hsent : sentIn (s₀.leadsTo c) (r, (s.board.serve r).1) = none)
    (hreceived : receivedIn c (r, (s.board.serve r).1) = none)
    (hqueue : ((s.serve i r).board.channel c).receiverOpen = true →
      (s.board.channel c).receiverOpen = true ∧
        ((s.serve i r).board.channel c).queue = (s.board.channel c).queue) :
    Delivers s₀ c (log ++ [⟨i, r, (s.board.serve r).1⟩]) (s.serve i r) := by
  have harrived : s₀.arrived c (log ++ [⟨i, r, (s.board.serve r).1⟩]) = s₀.arrived c log := by
    rw [arrived_concat, hsent, Option.toList_none, List.append_nil]
  have hsame : received c (script (log ++ [⟨i, r, (s.board.serve r).1⟩])) =
      received c (script log) := by
    rw [script_concat, received_concat, hreceived, Option.toList_none, List.append_nil]
  constructor
  · intro ho
    obtain ⟨hopen, hq⟩ := hqueue ho
    rw [harrived, hsame, hq]
    exact h.in_order hopen
  · rw [harrived, hsame]
    exact h.received_le

theorem Delivers.send {c : Nat} (h : Delivers s₀ c log s) (hrec : Records s₀ log s) (i t : Nat)
    (v : Int) :
    Delivers s₀ c (log ++ [⟨i, .send t v, (s.board.serve (.send t v)).1⟩])
      (s.serve i (.send t v)) := by
  rcases s.board.send_cases t v with ⟨-, hopen, hs⟩ | ⟨cause, hs, -⟩
  · have hserve : s.board.serve (.send t v) =
        (.ok 0, s.board.enqueue (s.board.sender t).channel [v]) := hs
    have hchannel := hrec.channel_sender t
    by_cases hc : (s₀.board.sender t).channel = c
    · -- the value is queued on this channel
      rw [hchannel, hc] at hopen hserve
      have hlt := Switchboard.lt_size_of_receiverOpen hopen
      have hqueue : ((s.serve i (.send t v)).board.channel c).queue =
          (s.board.channel c).queue ++ [v] := by
        rw [board_serve, hserve, Switchboard.channel_enqueue, if_pos ⟨rfl, hlt⟩]
      have hsent : sentIn (s₀.leadsTo c) (.send t v, (s.board.serve (.send t v)).1) = some v := by
        rw [hserve]
        exact if_pos (leadsTo_eq_true.mpr hc)
      have hreceived : received c (script (log ++
          [⟨i, .send t v, (s.board.serve (.send t v)).1⟩])) = received c (script log) := by
        rw [script_concat, received_concat]
        exact List.append_nil _
      constructor
      · intro _
        rw [arrived_concat, hsent, hreceived, hqueue, h.in_order hopen]
        exact List.append_assoc _ _ _
      · rw [arrived_concat, hreceived]
        exact h.received_le.trans (List.prefix_append _ _)
    · refine h.unmoved ?_ rfl ?_
      · rw [hserve]
        exact if_neg (by simpa using hc)
      · rw [board_serve, hserve, Switchboard.channel_enqueue,
          if_neg (fun hand => hc (by rw [← hchannel, hand.1]))]
        exact fun ho => ⟨ho, rfl⟩
  · have hserve : s.board.serve (.send t v) = (.error (.closed cause), s.board) := hs
    refine h.unmoved ?_ rfl ?_
    · rw [hserve]
      rfl
    · rw [board_serve, hserve]
      exact fun ho => ⟨ho, rfl⟩

theorem Delivers.receive {c : Nat} (h : Delivers s₀ c log s) (i : Nat) {d : Nat}
    (hb : s.board.blocks (.receive d) = false) :
    Delivers s₀ c (log ++ [⟨i, .receive d, (s.board.serve (.receive d)).1⟩])
      (s.serve i (.receive d)) := by
  rcases s.board.receive_cases d hb with ⟨v, rest, hopen, hq, hs⟩ | ⟨cause, hs, -⟩
  · have hserve : s.board.serve (.receive d) = (.ok v, s.board.dequeue d) := hs
    by_cases hd : d = c
    · -- the oldest value moves from the queue to what was received
      subst hd
      have hlt := Switchboard.lt_size_of_receiverOpen hopen
      have hqueue : ((s.serve i (.receive d)).board.channel d).queue = rest := by
        rw [board_serve, hserve, Switchboard.channel_dequeue, if_pos ⟨rfl, hlt⟩]
        show (s.board.channel d).queue.tail = rest
        rw [hq, List.tail_cons]
      have hreceived : received d (script (log ++
          [⟨i, .receive d, (s.board.serve (.receive d)).1⟩])) =
            received d (script log) ++ [v] := by
        rw [script_concat, received_concat, hserve]
        simp [receivedIn]
      have harrived : s₀.arrived d (log ++ [⟨i, .receive d, (s.board.serve (.receive d)).1⟩]) =
          received d (script log) ++ [v] ++ rest := by
        rw [arrived_concat, h.in_order hopen, hq]
        simp [sentIn]
      constructor
      · intro _
        rw [harrived, hreceived, hqueue]
      · rw [harrived, hreceived]
        exact List.prefix_append _ _
    · refine h.unmoved rfl ?_ ?_
      · rw [hserve]
        exact if_neg hd
      · rw [board_serve, hserve, Switchboard.channel_dequeue,
          if_neg (fun hand => hd hand.1.symm)]
        exact fun ho => ⟨ho, rfl⟩
  · have hserve : s.board.serve (.receive d) = (.error (.closed cause), s.board) := hs
    refine h.unmoved rfl ?_ ?_
    · rw [hserve]
      rfl
    · rw [board_serve, hserve]
      exact fun ho => ⟨ho, rfl⟩

/-- A channel delivers what arrives, in every interleaving. -/
theorem Records.fifo (h : Records s₀ log s) (c : Nat) : Delivers s₀ c log s := by
  induction h with
  | start =>
    have harrived : s₀.arrived c [] = (s₀.board.channel c).queue := List.append_nil _
    exact ⟨fun _ => harrived, List.nil_prefix⟩
  | @serve log s i r hrec _ hb ih =>
    cases r with
    | pause => exact ih.unmoved rfl rfl fun ho => ⟨ho, rfl⟩
    | send t v => exact ih.send hrec i t v
    | receive d => exact ih.receive i hb
    | closeSender t =>
      refine ih.unmoved rfl rfl ?_
      rw [board_serve]
      obtain ⟨hq, ho⟩ := s.board.channel_closeSender t c
      exact fun hopen => ⟨ho.symm.trans hopen, hq⟩
    | closeReceiver d =>
      refine ih.unmoved rfl rfl fun hopen => ?_
      have hboard : (s.serve i (.closeReceiver d)).board = s.board.closeReceiver d := rfl
      rw [hboard] at hopen ⊢
      rw [Switchboard.channel_closeReceiver] at hopen ⊢
      -- on this channel itself nothing is claimed any more
      split at hopen
      · cases hopen
      · next hne =>
        rw [if_neg hne]
        exact ⟨hopen, rfl⟩

/-! ### Refusals and ends are final -/

/-- A closed receiver stays closed. -/
theorem receiver_closed_serve {c i : Nat} {r : Request} (hb : s.board.blocks r = false)
    (h : (s.board.channel c).receiverOpen = false) :
    ((s.serve i r).board.channel c).receiverOpen = false := by
  rw [board_serve]
  by_contra hopen
  rw [Bool.not_eq_false, Switchboard.receiverOpen_serve _ hb, h] at hopen
  cases hopen.1

/-- A worker is refused only once the receiver is closed. -/
theorem Records.receiver_closed [Tenant α] (h : Records s₀ log s) (h₀ : s₀.Tidy) {t : Nat}
    (hr : Refused t (script log)) :
    (s.board.channel (s₀.board.sender t).channel).receiverOpen = false := by
  induction h with
  | start =>
    obtain ⟨v, e, hmem⟩ := hr
    exact absurd hmem List.not_mem_nil
  | @serve log s i r hrec hreq hb ih =>
    rw [script_concat, refused_concat] at hr
    rcases hr with hold | ⟨v, e, hnew⟩
    · exact receiver_closed_serve hb (ih hold)
    · -- an open sender is refused for one reason only
      obtain ⟨rfl, herror⟩ := Prod.mk.inj hnew
      have hopen := (hrec.tidy h₀).isOpen_of_request hreq (t := t) rfl
      refine receiver_closed_serve hb ?_
      rw [← hrec.channel_sender t]
      have herror' : (s.board.send t v).1 = .error e := herror
      rcases s.board.send_cases t v with ⟨-, -, hs⟩ | ⟨_, -, hclosed⟩
      · rw [hs] at herror'
        cases herror'
      · exact hclosed hopen

/-- What it means that somebody found the end of a channel: all that arrived was received, no
    sender is left, and none was refused. -/
structure Over (s₀ : System α) (c : Nat) (log : List Exchange) (s : System α) : Prop where
  all_received : received c (script log) = s₀.arrived c log
  all_closed : ∀ t, (s₀.board.sender t).channel = c → (s.board.sender t).isOpen = false
  none_refused : ∀ t, (s₀.board.sender t).channel = c → ¬Refused t (script log)

/-- When a receiver that is open finds the end, it is the end. -/
theorem over_of_end [Tenant α] (h : Records s₀ log s) (h₀ : s₀.Tidy) {c : Nat}
    (hopen : (s.board.channel c).receiverOpen = true) (hq : (s.board.channel c).queue = [])
    (hzero : (s.board.channel c).openSenders = 0) : Over s₀ c log s where
  all_received := by
    rw [(h.fifo c).in_order hopen, hq, List.append_nil]
  all_closed t ht := by
    have hnone : s.board.openOn c = ∅ := by
      rw [← Finset.card_eq_zero, ← (h.tidy h₀).counted c, hzero]
    by_contra ho
    have hmem : t ∈ s.board.openOn c :=
      Switchboard.mem_openOn.mpr ⟨Bool.eq_true_of_not_eq_false ho, (h.channel_sender t).trans ht⟩
    rw [hnone] at hmem
    exact Finset.notMem_empty t hmem
  none_refused t ht hr := by
    have hclosed := h.receiver_closed h₀ hr
    rw [ht, hopen] at hclosed
    cases hclosed

/-- After its end nothing happens to a channel that concerns its values. -/
theorem Over.serve [Tenant α] {c : Nat} (h : Over s₀ c log s) (hrec : Records s₀ log s)
    (h₀ : s₀.Tidy) {i : Nat} {r : Request} (hreq : s.request i = some r)
    (hb : s.board.blocks r = false) :
    Over s₀ c (log ++ [⟨i, r, (s.board.serve r).1⟩]) (s.serve i r) := by
  -- only an open sender can be used, and none of this channel is
  have hother : ∀ t v, r = .send t v → (s₀.board.sender t).channel ≠ c := by
    rintro t v rfl hc
    have hopen := (hrec.tidy h₀).isOpen_of_request hreq (t := t) rfl
    rw [h.all_closed t hc] at hopen
    cases hopen
  have harrived : s₀.arrived c (log ++ [⟨i, r, (s.board.serve r).1⟩]) = s₀.arrived c log := by
    have hnone : sentIn (s₀.leadsTo c) (r, (s.board.serve r).1) = none := by
      cases r with
      | send t v =>
        cases (s.board.serve (.send t v)).1 with
        | ok _ => exact if_neg (by simpa using hother t v rfl)
        | error _ => rfl
      | _ => rfl
    rw [arrived_concat, hnone, Option.toList_none, List.append_nil]
  constructor
  · -- all was received already, so no more can be
    have hnext := (Records.serve hrec hreq hb).fifo c
    have hle := hnext.received_le
    rw [harrived] at hle ⊢
    have hge : received c (script log) <+:
        received c (script (log ++ [⟨i, r, (s.board.serve r).1⟩])) := by
      rw [script_concat, received_concat]
      exact List.prefix_append _ _
    rw [h.all_received] at hge
    exact hle.eq_of_length_le hge.length_le
  · intro t ht
    rw [board_serve, Switchboard.sender_serve _ hb]
    split
    · rfl
    · exact h.all_closed t ht
  · intro t ht hr
    rw [script_concat, refused_concat] at hr
    rcases hr with hold | ⟨v, e, hnew⟩
    · exact h.none_refused t ht hold
    · exact hother t v (Prod.mk.inj hnew).1 ht

/-- Once some worker found the end of a channel, it is over. -/
theorem Records.over [Tenant α] (h : Records s₀ log s) (h₀ : s₀.Tidy) {c : Nat}
    (he : Ended c (script log)) : Over s₀ c log s := by
  induction h with
  | start =>
    obtain ⟨e, hmem⟩ := he
    exact absurd hmem List.not_mem_nil
  | @serve log s i r hrec hreq hb ih =>
    rw [script_concat, ended_concat] at he
    rcases he with hold | ⟨e, hnew⟩
    · exact (ih hold).serve hrec h₀ hreq hb
    · -- whoever looks for the end has the receiver, so it is open
      obtain ⟨rfl, herror⟩ := Prod.mk.inj hnew
      have hopen := (hrec.tidy h₀).receiverOpen_of_request hreq (c := c) rfl
      have herror' : (s.board.receive c).1 = .error e := herror
      rcases s.board.receive_cases c hb with ⟨_, _, -, -, hs⟩ | ⟨_, -, hend⟩
      · rw [hs] at herror'
        cases herror'
      · obtain ⟨hq, hzero⟩ := hend hopen
        exact (over_of_end hrec h₀ hopen hq hzero).serve hrec h₀ hreq hb

/-- A receiver that no worker has stays open, and nothing is received from it. -/
theorem Records.unread [Tenant α] (h : Records s₀ log s) (h₀ : s₀.Tidy) {c : Nat}
    (hopen : (s₀.board.channel c).receiverOpen = true)
    (hnone : ∀ (i : Nat) (p : α), s₀.workers[i]? = some p → c ∉ reads p) :
    (s.board.channel c).receiverOpen = true ∧ received c (script log) = [] := by
  induction h with
  | start => exact ⟨hopen, rfl⟩
  | @serve log s i r hrec hreq hb ih =>
    obtain ⟨ho, hempty⟩ := ih
    -- who used the receiver would have had it at the start
    have hchannel : r.channel? ≠ some c := by
      intro hc
      obtain ⟨p, hp, hrequest⟩ := exists_worker_of_request hreq
      obtain ⟨p₀, hp₀, hstory⟩ := hrec.story hp
      have hmem := channel_mem ((hrec.tidy h₀).sound hp) hrequest hc
      exact hnone i p₀ hp₀ (hstory.holds_subset.2 hmem)
    constructor
    · rw [board_serve, Switchboard.receiverOpen_serve _ hb]
      refine ⟨ho, ?_⟩
      rintro rfl
      exact hchannel rfl
    · rw [script_concat, received_concat, hempty, List.nil_append]
      cases r with
      | receive d =>
        have hd : d ≠ c := fun hd => hchannel (by rw [hd]; rfl)
        cases (s.board.serve (.receive d)).1 with
        | ok v =>
          rw [receivedIn, if_neg hd]
          rfl
        | error e => rfl
      | _ => rfl

/-! ### What replies look like -/

/-- An exchange as a switchboard makes it: a receiver gets a value, everybody else gets 0, and a
    refusal comes from something that is closed. -/
inductive Plain : Request × Reply → Prop
  | received (c : Nat) (v : Int) : Plain (.receive c, .ok v)
  | ended (c : Nat) (cause : Closure) : Plain (.receive c, .error (.closed cause))
  | refused (t : Nat) (v : Int) (cause : Closure) : Plain (.send t v, .error (.closed cause))
  | served {r : Request} (hr : ∀ c, r ≠ .receive c) : Plain (r, .ok 0)

theorem plain_serve {b : Switchboard} {r : Request} (hb : b.blocks r = false) :
    Plain (r, (b.serve r).1) := by
  cases r with
  | pause => exact .served fun _ => Request.noConfusion
  | closeSender t => exact .served fun _ => Request.noConfusion
  | closeReceiver c => exact .served fun _ => Request.noConfusion
  | receive c =>
    show Plain (.receive c, (b.receive c).1)
    rcases b.receive_cases c hb with ⟨v, _, -, -, hs⟩ | ⟨cause, hs, -⟩
    · rw [hs]
      exact .received c v
    · rw [hs]
      exact .ended c cause
  | send t v =>
    show Plain (.send t v, (b.send t v).1)
    rcases b.send_cases t v with ⟨-, -, hs⟩ | ⟨cause, hs, -⟩
    · rw [hs]
      exact .served fun _ => Request.noConfusion
    · rw [hs]
      exact .refused t v cause

/-- All exchanges of an interleaving are plain. -/
theorem Records.plain (h : Records s₀ log s) (i : Nat) : ∀ e ∈ heard i log, Plain e := by
  have hall : ∀ e ∈ script log, Plain e := by
    induction h with
    | start => exact fun e he => absurd he List.not_mem_nil
    | serve _ _ hb ih =>
      intro e he
      rw [script_concat] at he
      rcases List.mem_append.mp he with hold | hnew
      · exact ih e hold
      · obtain rfl := List.mem_singleton.mp hnew
        exact plain_serve hb
  exact fun e he => hall e (mem_script.mpr ⟨i, mem_heard.mp he⟩)

end System

end TapeNet
