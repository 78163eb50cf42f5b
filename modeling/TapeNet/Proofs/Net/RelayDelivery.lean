import TapeNet.Proofs.Net.Interference
import TapeNet.Proofs.Net.RelayStory

/-! # What a relay delivers

    A relay may lose any of its targets at any moment, several of them while
    it forwards one value, and the others must not notice.

    - `story_without_values`: a relay that has received nothing has sent
      nothing and lost nobody.
    - `relayed_add_pending`: what is counted, and what is still to be counted.
    - `refusal`: a refusal is the end for its target, and for no other one.
    - `Amid.not_refused`: a target that the others leave alone refuses
      nothing.
    - `delivers_to_every_target`: all this for a relay amid others.
-/

namespace TapeNet

namespace Relay

open History Process Tenant

variable {r₀ r : Relay} {h : History}

/-! ### Targets -/

/-- Targets are only ever dropped. -/
theorem targets_resume_sublist (r : Relay) (reply : Reply) :
    (r.resume reply).targets.Sublist r.targets := by
  unfold resume
  split
  · split
    · rw [targets_forward]
    · exact List.Sublist.refl _
    · exact List.Sublist.refl _
  · split
    · rw [targets_forward]
    · exact List.Sublist.refl _
  · rw [targets_forward]
    exact List.erase_sublist
  · rw [(r.stage_release _).1]
  · rw [(r.stage_release _).1]
  · exact List.Sublist.refl _

theorem story_targets_sublist (hs : Story r₀ h r) : r.targets.Sublist r₀.targets := by
  induction hs with
  | start => exact List.Sublist.refl _
  | @hear _ r _ reply _ _ ih => exact (r.targets_resume_sublist reply).trans ih

/-- One copy for a target that is there once. -/
theorem copies_eq_singleton {targets : List Nat} (hn : targets.Nodup) {t : Nat}
    (ht : t ∈ targets) (v : Int) : copies (· == t) targets v = [v] := by
  unfold copies
  rw [List.filter_beq, List.count_eq_one_of_mem hn ht]
  rfl

/-- A target that has refused nothing gets every value, but for the one that is on its way. -/
theorem sent_append_owed_eq_received (hs : Story r₀ h r) (hstage₀ : r₀.stage = .receiving)
    (hn : r₀.targets.Nodup) {t : Nat} (ht : t ∈ r₀.targets) (hr : ¬Refused t h) :
    sent (· == t) h ++ r.owed (· == t) = received r₀.inbound h := by
  have hbalance := (relay_story hs hstage₀).sent_append_owed (· == t) (by
    intro u hu
    rw [beq_iff_eq.mp hu]
    exact hr)
  have hone : copies (· == t) r₀.targets = fun v => [v] := funext (copies_eq_singleton hn ht)
  rw [hbalance, hone, List.flatMap_singleton']

/-! ### Closing down -/

theorem release_keeps (r : Relay) (rest : List Nat) :
    (r.release rest).closesDown = true ∧ (r.release rest).relayed = r.relayed ∧
      (r.release rest).targets = r.targets := by
  cases rest with
  | nil => exact ⟨rfl, rfl, rfl⟩
  | cons t rest => exact ⟨rfl, rfl, rfl⟩

/-- A relay that closes down goes on with it. -/
theorem resume_of_closesDown (hc : r.closesDown = true) (reply : Reply) :
    (r.resume reply).closesDown = true ∧ (r.resume reply).relayed = r.relayed ∧
      (r.resume reply).targets = r.targets := by
  have hc' := hc
  unfold closesDown at hc
  unfold resume
  split at hc
  · next hstage =>
    rw [hstage]
    apply release_keeps
  · next hstage =>
    rw [hstage]
    apply release_keeps
  · next hstage =>
    rw [hstage]
    exact ⟨hc', rfl, rfl⟩
  · cases hc

/-- A relay that closes down only closes. -/
theorem request_of_closesDown (hc : r.closesDown = true) {q : Request} (hq : r.request = some q) :
    (∀ t v, q ≠ .send t v) ∧ ∀ c, q ≠ .receive c := by
  unfold closesDown at hc
  unfold request at hq
  split at hc
  · next hstage =>
    rw [hstage] at hq
    obtain rfl := Option.some.inj hq
    simp
  · next hstage =>
    rw [hstage] at hq
    obtain rfl := Option.some.inj hq
    simp
  · next hstage =>
    rw [hstage] at hq
    cases hq
  · cases hc

theorem story_of_closesDown (hs : Story r₀ h r) (hc : r₀.closesDown = true) :
    r.closesDown = true ∧ r.relayed = r₀.relayed ∧ r.targets = r₀.targets ∧
      ∀ e ∈ h, (∀ t v, e.1 ≠ .send t v) ∧ ∀ c, e.1 ≠ .receive c := by
  induction hs with
  | start => exact ⟨hc, rfl, rfl, by simp⟩
  | @hear _ r _ reply _ hq ih =>
    obtain ⟨hclosing, hrelayed, htargets, hall⟩ := ih
    obtain ⟨hclosing', hrelayed', htargets'⟩ := resume_of_closesDown hclosing reply
    refine ⟨hclosing', hrelayed'.trans hrelayed, htargets'.trans htargets, ?_⟩
    intro e he
    rcases List.mem_append.mp he with hold | hnew
    · exact hall e hold
    · obtain rfl := List.mem_singleton.mp hnew
      exact request_of_closesDown hclosing hq

/-- A relay that has received nothing has sent nothing and has lost nobody: it still waits, or it
    closes down. -/
theorem story_without_values (hs : Story r₀ h r) (hstage₀ : r₀.stage = .receiving)
    (hv : received r₀.inbound h = []) :
    (r = r₀ ∨ r.closesDown = true) ∧ r.relayed = r₀.relayed ∧ r.targets = r₀.targets ∧
      ∀ t v reply, (Request.send t v, reply) ∉ h := by
  rcases hs.cases_head with rfl | ⟨⟨q, reply⟩, rest, rfl, hq, hrest⟩
  · obtain rfl := hs.eq_of_nil
    exact ⟨.inl rfl, rfl, rfl, by simp⟩
  · have hreceive : r₀.request = some (.receive r₀.inbound) := by
      unfold request
      rw [hstage₀]
    obtain rfl := Option.some.inj (hreceive.symm.trans hq)
    cases reply with
    | ok v => simp [received, receivedIn] at hv
    | error e =>
      -- without a value the relay closes down at once
      have hfirst : (r₀.resume (.error e)).closesDown = true ∧
          (r₀.resume (.error e)).relayed = r₀.relayed ∧
          (r₀.resume (.error e)).targets = r₀.targets := by
        unfold resume
        rw [hstage₀]
        cases e with
        | _ => exact ⟨rfl, rfl, rfl⟩
      obtain ⟨hc, hrelayed, htargets⟩ := hfirst
      obtain ⟨hclosing, hrelayed', htargets', hall⟩ := story_of_closesDown hrest hc
      refine ⟨.inr hclosing, hrelayed'.trans hrelayed, htargets'.trans htargets, ?_⟩
      intro t v reply hmem
      rcases List.mem_cons.mp hmem with heq | hlater
      · cases heq
      · exact (hall _ hlater).1 t v rfl

/-! ### Counting -/

/-- Whether a value is on its way, so that it still has to be counted. -/
def pending (r : Relay) : Nat :=
  match r.stage with
  | .sending _ _ _ => 1
  | .dropping _ _ _ => 1
  | _ => 0

theorem relayed_forward_add_pending (r : Relay) (v : Int) (rest : List Nat) :
    (r.forward v rest).relayed + (r.forward v rest).pending = r.relayed + 1 := by
  cases rest with
  | cons t rest => rfl
  | nil =>
    simp only [forward]
    split
    · rfl
    · rfl

theorem relayed_release_add_pending (r : Relay) (rest : List Nat) :
    (r.release rest).relayed + (r.release rest).pending = r.relayed := by
  cases rest <;> rfl

/-- What one exchange adds to the count. -/
theorem relayed_resume_add_pending {q : Request} (reply : Reply) (hq : r.request = some q) :
    (r.resume reply).relayed + (r.resume reply).pending =
      r.relayed + r.pending + (receivedIn r.inbound (q, reply)).toList.length := by
  unfold request at hq
  unfold resume pending
  split at hq
  · next hstage =>
    obtain rfl := Option.some.inj hq
    rw [hstage]
    rcases reply with (_ | _ | _ | _) | v
    case ok => simpa [receivedIn, pending] using r.relayed_forward_add_pending v r.targets
    all_goals simp [receivedIn, goto]
  · next v t rest hstage =>
    obtain rfl := Option.some.inj hq
    rw [hstage]
    cases reply with
    | error e => simp [receivedIn, goto, note]
    | ok w => simpa [receivedIn, pending] using r.relayed_forward_add_pending v rest
  · next v t rest hstage =>
    obtain rfl := Option.some.inj hq
    rw [hstage]
    simpa [receivedIn, pending] using
      { r with targets := r.targets.erase t }.relayed_forward_add_pending v rest
  · next hstage =>
    obtain rfl := Option.some.inj hq
    rw [hstage]
    simpa [receivedIn, pending] using r.relayed_release_add_pending r.targets
  · next t rest hstage =>
    obtain rfl := Option.some.inj hq
    rw [hstage]
    simpa [receivedIn, pending] using r.relayed_release_add_pending rest
  · cases hq

/-- A relay counts every value that it receives, once it is done with it. -/
theorem relayed_add_pending (hs : Story r₀ h r) (hstage₀ : r₀.stage = .receiving) :
    r.relayed + r.pending = r₀.relayed + (received r₀.inbound h).length := by
  induction hs with
  | start =>
    unfold pending
    rw [hstage₀]
    rfl
  | @hear h r q reply hprev hq ih =>
    have hnext := relayed_resume_add_pending reply hq
    rw [hprev.keeps inbound inbound_resume] at hnext
    rw [received_concat, List.length_append]
    show (r.resume reply).relayed + (r.resume reply).pending = _
    omega

theorem pending_of_closesDown (hc : r.closesDown = true) : r.pending = 0 := by
  unfold closesDown at hc
  unfold pending
  split at hc
  · next hstage => rw [hstage]
  · next hstage => rw [hstage]
  · next hstage => rw [hstage]
  · cases hc

/-! ### The last target -/

theorem targets_of_receiving_forward {v : Int} {rest : List Nat}
    (hstage : (r.forward v rest).stage = .receiving) : r.targets ≠ [] := by
  intro hnil
  cases rest with
  | cons t rest => cases hstage
  | nil =>
    rw [forward, if_pos (List.isEmpty_iff.mpr hnil)] at hstage
    cases hstage

/-- A relay that goes on to wait for one more value has somebody to send it to. -/
theorem targets_of_receiving_resume {q : Request} {reply : Reply} (hq : r.request = some q)
    (hstage : (r.resume reply).stage = .receiving) : (r.resume reply).targets ≠ [] := by
  obtain ⟨name, c, targets, relayed, stage, failure, events⟩ := r
  cases stage with
  | receiving =>
    rcases reply with (_ | _ | _ | _) | v
    case ok =>
      have htargets := targets_of_receiving_forward hstage
      rwa [← targets_forward] at htargets
    all_goals cases hstage
  | sending v t rest =>
    cases reply with
    | error e => cases hstage
    | ok w =>
      have htargets := targets_of_receiving_forward hstage
      rwa [← targets_forward] at htargets
  | dropping v t rest =>
    have htargets := targets_of_receiving_forward hstage
    rwa [← targets_forward] at htargets
  | closingInbound =>
    cases targets with
    | nil => cases hstage
    | cons t rest => cases hstage
  | closingTarget t rest =>
    cases rest with
    | nil => cases hstage
    | cons u rest => cases hstage
  | finished => cases hq

/-- Once a relay has received a value and has no target left, it closes down. -/
theorem closesDown_of_targets_eq_nil (hs : Story r₀ h r) (h₀ : r₀.Sound)
    (ht : r.targets = []) (hv : received r₀.inbound h ≠ []) :
    r.closesDown = true := by
  have hwaiting : r.stage ≠ .receiving := by
    intro hstage
    cases hs with
    | start => exact hv rfl
    | hear reply _ hq => exact targets_of_receiving_resume hq hstage ht
  have hsound : r.Sound := hs.sound h₀
  unfold Sound at hsound
  rw [ht] at hsound
  unfold closesDown
  split
  · rfl
  · rfl
  · rfl
  · next hclosing hclosing' hfinished =>
    -- a value on its way is on its way to a target
    cases hstage : r.stage with
    | receiving => exact absurd hstage hwaiting
    | sending v t rest =>
      rw [hstage] at hsound
      exact absurd (List.suffix_nil.mp hsound.2) (List.cons_ne_nil t rest)
    | dropping v t rest =>
      rw [hstage] at hsound
      exact absurd (List.suffix_nil.mp hsound.2) (List.cons_ne_nil t rest)
    | closingInbound => exact absurd hstage hclosing
    | closingTarget t rest => exact absurd hstage (hclosing' t rest)
    | finished => exact absurd hstage hfinished

/-! ### Refusals -/

theorem stage_of_request_send {t : Nat} {v : Int} (hq : r.request = some (.send t v)) :
    ∃ rest, r.stage = .sending v t rest := by
  unfold request at hq
  split at hq
  case h_2 v' t' rest hstage =>
    obtain ⟨rfl, rfl⟩ := Request.send.inj (Option.some.inj hq)
    exact ⟨rest, hstage⟩
  all_goals cases hq

/-- A target that refuses a value is dropped at once and is not tried again. -/
theorem after_refusal {h₁ h₂ : History} {t : Nat} {v : Int} {e : PortError}
    (hs : Story r₀ (h₁ ++ (.send t v, .error e) :: h₂) r) (h₀ : r₀.Sound) :
    (∃ r₁ rest, Story r₀ h₁ r₁ ∧ r₁.stage = .sending v t rest) ∧
      (∀ w reply, (Request.send t w, reply) ∉ h₂) ∧
      (t ∈ r.targets → h₂ = [] ∧ r.request = some (.closeSender t)) := by
  obtain ⟨r₁, hbefore, hafter⟩ := hs.split
  obtain ⟨hq, hdropping⟩ := hafter.head
  obtain ⟨rest, hstage⟩ := stage_of_request_send hq
  have hsound : r₁.Sound := hbefore.sound h₀
  have hresume : r₁.resume (.error e) = (r₁.note (.dropped t)).goto (.dropping v t rest) := by
    unfold Relay.resume
    rw [hstage]
  replace hdropping : Story (r₁.resume (.error e)) h₂ r := hdropping
  rw [hresume] at hdropping
  refine ⟨⟨r₁, rest, hbefore, hstage⟩, ?_⟩
  rcases hdropping.cases_head with rfl | ⟨⟨q, reply⟩, h₃, rfl, hclose, hlater⟩
  · obtain rfl := hdropping.eq_of_nil
    exact ⟨by simp, fun _ => ⟨rfl, rfl⟩⟩
  · obtain rfl := Option.some.inj hclose
    have hsuffix := hsound.2
    rw [hstage] at hsuffix
    have hsound' := Relay.sound_resume (r := (r₁.note (.dropped t)).goto (.dropping v t rest)) reply
      ⟨hsound.1, hsuffix⟩ hclose
    -- once it is closed, the relay does not hold it any more
    have hgone : t ∉ r₁.targets.erase t := hsound.1.not_mem_erase
    constructor
    · intro w reply' hmem
      rcases List.mem_cons.mp hmem with heq | hmem'
      · cases heq
      · have hheld := (hlater.uses_held hsound' hmem').1 t rfl
        rw [show holds _ = r₁.targets.erase t from held_forward _ _ _] at hheld
        exact hgone hheld
    · intro ht
      have hkept := (story_targets_sublist hlater).subset ht
      rw [show Relay.targets _ = r₁.targets.erase t from targets_forward _ _ _] at hkept
      exact absurd hkept hgone

/-- What a refusal says about its target: it got every value before this one, and nothing later. -/
theorem refusal {h₁ h₂ : History} {t : Nat} {v : Int} {e : PortError}
    (hs : Story r₀ (h₁ ++ (.send t v, .error e) :: h₂) r) (hstage₀ : r₀.stage = .receiving)
    (h₀ : r₀.Sound) :
    received r₀.inbound h₁ = sent (· == t) h₁ ++ [v] ∧
      sent (· == t) (h₁ ++ (.send t v, .error e) :: h₂) = sent (· == t) h₁ := by
  obtain ⟨⟨r₁, rest, hbefore, hstage⟩, hnever, -⟩ := after_refusal hs h₀
  have hsound : r₁.Sound := hbefore.sound h₀
  have hsuffix := hsound.2
  rw [hstage] at hsuffix
  constructor
  · -- it has refused nothing before, for else it would not have been tried again
    have hfirst : ¬Refused t h₁ := by
      rintro ⟨w, e', hmem⟩
      obtain ⟨g₁, g₂, rfl⟩ := List.append_of_mem hmem
      rw [List.append_assoc, List.cons_append] at hs
      exact (after_refusal hs h₀).2.1 v (.error e) (by simp)
    have htarget : t ∈ r₀.targets :=
      (story_targets_sublist hbefore).subset (hsuffix.subset List.mem_cons_self)
    rw [← sent_append_owed_eq_received hbefore hstage₀ h₀.1 htarget hfirst]
    unfold owed
    rw [hstage]
    show _ ++ copies (· == t) (t :: rest) v = _
    rw [copies_eq_singleton (hsound.1.sublist hsuffix.sublist) List.mem_cons_self]
  · have hnone : sent (· == t) ((.send t v, .error e) :: h₂) = [] := by
      unfold sent
      rw [List.filterMap_eq_nil_iff]
      intro x hx
      by_contra hsome
      obtain ⟨w, hw⟩ := Option.ne_none_iff_exists'.mp hsome
      obtain ⟨u, reply, rfl, hu⟩ := sentIn_eq_some hw
      obtain rfl := beq_iff_eq.mp hu
      rcases List.mem_cons.mp hx with heq | hlater
      · cases heq
      · exact hnever w _ hlater
    rw [sent, List.filterMap_append]
    exact (congrArg _ hnone).trans (List.append_nil _)

/-! ### Amid others -/

theorem read_of_request_send {t : Nat} {v : Int} (hq : r.request = some (.send t v)) :
    r.read ≠ [] := by
  obtain ⟨rest, hstage⟩ := stage_of_request_send hq
  unfold read
  rw [hstage]
  exact List.cons_ne_nil _ _

/-- A relay that still reads has closed no receiver. -/
theorem of_read_resume {q : Request} {reply : Reply} (hq : r.request = some q)
    (hr : (r.resume reply).read ≠ []) : r.read ≠ [] ∧ ∀ d, q ≠ .closeReceiver d := by
  rw [read_resume reply hq] at hr
  constructor
  · intro hnil
    rw [hnil] at hr
    cases q with
    | _ => exact hr rfl
  · intro d hclose
    subst hclose
    have hmem := channel_mem_read hq rfl
    have hcases : r.read = [] ∨ r.read = [r.inbound] := by
      unfold read
      split
      · exact .inl rfl
      · exact .inl rfl
      · exact .inr rfl
    rcases hcases with hnil | hone
    · rw [hnil] at hmem
      cases hmem
    · rw [hone] at hmem hr
      rw [List.mem_singleton.mp hmem] at hr
      exact hr (List.erase_cons_head _ _)

/-- The sender `t` of channel `d` can send as long as the relay may use it. The receiver of `d` may
    even be the relay's own: it closes it only when it has nothing more to send. -/
structure Spared (t d : Nat) (r : Relay) (b : Switchboard) : Prop where
  sender : t ∈ r.held → (b.sender t).isOpen = true
  receiver : r.read ≠ [] → (b.channel d).receiverOpen = true

variable {b b' : Switchboard} {t d : Nat}

theorem Spared.own (h : Spared t d r b) (hs : r.Sound) {q : Request} {reply : Reply}
    (hq : r.request = some q) (ha : b.Answers q reply b') : Spared t d (r.resume reply) b' where
  sender ht := by
    rw [held_resume reply hq, Request.mem_sendersLeft (nodup_held hs)] at ht
    rw [ha.sender, if_neg ht.2]
    exact h.sender ht.1
  receiver hr := by
    obtain ⟨hread, hne⟩ := of_read_resume hq hr
    exact (ha.receiverOpen d).mpr ⟨h.receiver hread, hne d⟩

theorem Spared.other (h : Spared t d r b) {u : Switchboard.Use} (ht : t < b.senders.size)
    (hd : d < b.channels.size) (hsender : u ≠ .closeSender t) (hreceiver : u ≠ .closeReceiver d) :
    Spared t d r (b.perform u).2 where
  sender hheld := (b.isOpen_perform u ht).mpr ⟨h.sender hheld, hsender⟩
  receiver hread := (b.receiverOpen_perform u hd).mpr ⟨h.receiver hread, hreceiver⟩

/-- Such a sender is not refused. -/
theorem Spared.accepts (h : Spared t d r b) (hs : r.Sound) {v : Int} {reply : Reply}
    (hq : r.request = some (.send t v)) (hd : (b.sender t).channel = d)
    (ha : b.Answers (.send t v) reply b') : reply = .ok 0 := by
  have hopen := h.sender (sender_mem_held hs hq rfl)
  have hreceiver := h.receiver (read_of_request_send hq)
  rcases ha.served_or_error with ⟨-, rfl, -⟩ | ⟨_, _, hreceive, -⟩
  · show (b.send t v).1 = .ok 0
    rcases b.send_cases t v with ⟨-, -, hsend⟩ | ⟨cause, -, hclosed⟩
    · rw [hsend]
    · rw [hd, hreceiver] at hclosed
      cases hclosed hopen
  · cases hreceive

variable {name : String} {c : Nat} {targets : List Nat} {b₀ : Switchboard} {L : List Moment}

theorem sound_create (hn : targets.Nodup) : (create name c targets).Sound := ⟨hn, trivial⟩

/-- A target takes every value as long as the others leave its sender and its receiver alone. -/
theorem not_refused_of_spared (hrun : Amid (create name c targets) b₀ L r b) (hn : targets.Nodup)
    (hopen : (b₀.sender t).isOpen = true)
    (hreceiver : (b₀.channel (b₀.sender t).channel).receiverOpen = true)
    (hsenders : .closeSender t ∉ interference L)
    (hreceivers : .closeReceiver (b₀.sender t).channel ∉ interference L) :
    Spared t (b₀.sender t).channel r b ∧ ¬Refused t (exchanges L) := by
  have hsender := Switchboard.lt_size_of_isOpen hopen
  have hchannel := Switchboard.lt_size_of_receiverOpen hreceiver
  induction hrun with
  | start => exact ⟨⟨fun _ => hopen, fun _ => hreceiver⟩, by simp [Refused, exchanges]⟩
  | @other L r b u hprev ih =>
    rw [interference_other, List.mem_append, List.mem_singleton, not_or] at hsenders hreceivers
    obtain ⟨hspared, hnever⟩ := ih hsenders.1 hreceivers.1
    rw [exchanges_other]
    refine ⟨hspared.other ?_ ?_ ?_ ?_, hnever⟩
    · exact (hprev.exists_sender hsender).1
    · exact hprev.exists_channel hchannel
    · exact Ne.symm hsenders.2
    · exact Ne.symm hreceivers.2
  | @own L r b b' q reply hprev hq hanswers ih =>
    rw [interference_own] at hsenders hreceivers
    obtain ⟨hspared, hnever⟩ := ih hsenders hreceivers
    have hsound : r.Sound := hprev.story.sound (sound_create hn)
    refine ⟨hspared.own hsound hq hanswers, ?_⟩
    rw [exchanges_own, refused_concat]
    intro hrefused
    rcases hrefused with hold | ⟨v, e, heq⟩
    · exact hnever hold
    · obtain ⟨rfl, rfl⟩ := Prod.mk.inj heq
      cases hspared.accepts hsound hq (hprev.exists_sender hsender).2 hanswers

/-- A relay amid others, who may use every endpoint at every moment. What it has sent to a target is
    a first part of what it has received; it is all of it at the end of the run, unless the target
    refused a value, and that does not happen as long as the others leave the target alone. A refusal
    is the end for its target: it got all values before the one that it refused, it is dropped at
    once and never tried again. Once no target is left after a value, the relay does not even ask for
    another one; and at the end it has counted all values that it received. -/
theorem delivers_to_every_target (hn : targets.Nodup)
    (hrun : Amid (create name c targets) b₀ L r b) :
    let h := exchanges L
    (∀ t ∈ targets,
      sent (· == t) h <+: received c h ∧
      (¬Refused t h → t ∈ r.targets ∧ (r.request = none → sent (· == t) h = received c h)) ∧
      (∀ h₁ v e h₂, h = h₁ ++ (.send t v, .error e) :: h₂ →
        received c h₁ = sent (· == t) h₁ ++ [v] ∧ sent (· == t) h = sent (· == t) h₁ ∧
        (∀ w reply, (Request.send t w, reply) ∉ h₂) ∧
        (t ∈ r.targets → h₂ = [] ∧ r.request = some (.closeSender t))) ∧
      ((b₀.sender t).isOpen = true →
        (b₀.channel (b₀.sender t).channel).receiverOpen = true →
        .closeSender t ∉ interference L →
        .closeReceiver (b₀.sender t).channel ∉ interference L → ¬Refused t h)) ∧
    (r.targets = [] → received c h ≠ [] → ∀ L' r' b', Amid r b L' r' b' →
      ∀ reply, (Request.receive c, reply) ∉ exchanges L') ∧
    (r.request = none → r.relayed = (received c h).length) := by
  intro h
  have hs : Story (create name c targets) h r := hrun.story
  have h₀ : (create name c targets).Sound := sound_create hn
  have hall : ∀ t ∈ targets, ¬Refused t h →
      sent (· == t) h ++ r.owed (· == t) = received c h := by
    intro t ht hr
    exact sent_append_owed_eq_received hs rfl hn ht hr
  refine ⟨?_, ?_, ?_⟩
  · intro t ht
    refine ⟨?_, ?_, ?_, ?_⟩
    · by_cases hr : Refused t h
      · obtain ⟨v, e, hmem⟩ := hr
        obtain ⟨h₁, h₂, heq⟩ := List.append_of_mem hmem
        rw [heq] at hs ⊢
        obtain ⟨hbefore, hnothing⟩ := refusal hs rfl h₀
        have hreceived : received c h₁ = sent (· == t) h₁ ++ [v] := hbefore
        rw [hnothing]
        unfold received at hreceived ⊢
        rw [List.filterMap_append, hreceived, List.append_assoc]
        exact List.prefix_append _ _
      · rw [← hall t ht hr]
        exact List.prefix_append _ _
    · intro hr
      refine ⟨(relay_story hs rfl).keeps t ht hr, ?_⟩
      intro hend
      rw [← hall t ht hr, owed_of_closesDown (closesDown_of_request_eq_none hend),
        List.append_nil]
    · intro h₁ v e h₂ heq
      rw [heq] at hs ⊢
      obtain ⟨hbefore, hnothing⟩ := refusal hs rfl h₀
      obtain ⟨-, hnever, hdropped⟩ := after_refusal hs h₀
      exact ⟨hbefore, hnothing, hnever, hdropped⟩
    · intro hopen hreceiver hsenders hreceivers
      exact (not_refused_of_spared hrun hn hopen hreceiver hsenders hreceivers).2
  · intro hnone hv L' r' b' hrun' reply hmem
    have hc := closesDown_of_targets_eq_nil hs h₀ hnone hv
    exact ((story_of_closesDown hrun'.story hc).2.2.2 _ hmem).2 c rfl
  · intro hend
    have hcount := relayed_add_pending hs rfl
    rw [pending_of_closesDown (closesDown_of_request_eq_none hend)] at hcount
    simpa [create] using hcount

/-- One of two targets loses its receiver before the second value, and the other one gets both. -/
theorem lossyBroadcast_delivers :
    let turns : List (Option Switchboard.Use) :=
      [some (.send 0 5), none, none, some (.closeReceiver 1), none, some (.send 0 6), none, none,
        none, none, some (.closeSender 0), none, none, none]
    let run := mingle (create "relay" 0 [1, 2])
      (Switchboard.record [.openChannel "in", .openChannel "a", .openChannel "b"]).2 turns
    run.2.1.request = none ∧ run.2.1.targets = [2] ∧ run.2.1.relayed = 2 ∧
      sent (· == 1) (exchanges run.1) = [5] ∧ sent (· == 2) (exchanges run.1) = [5, 6] := by
  intro turns run
  have hrun := Amid.of_schedule (create "relay" 0 [1, 2])
    (Switchboard.record [.openChannel "in", .openChannel "a", .openChannel "b"]).2 turns
  obtain ⟨hall, -, hcount⟩ := delivers_to_every_target (by decide) hrun
  have hend : run.2.1.request = none := by decide +kernel
  have hreceived : received 0 (exchanges run.1) = [5, 6] := by decide +kernel
  obtain ⟨-, hwhole, -, hspared⟩ := hall 2 (by decide)
  have hkept := hspared (by decide +kernel) (by decide +kernel) (by decide +kernel)
    (by decide +kernel)
  refine ⟨hend, by decide +kernel, ?_, by decide +kernel, ?_⟩
  · exact (hcount hend).trans (congrArg List.length hreceived)
  · exact ((hwhole hkept).2 hend).trans hreceived

end Relay

end TapeNet
