import TapeNet.Proofs.Net.Tenancy

/-! # What a relay does

    A relay sends on what it receives, once to every target, and stops only
    for a reason.

    - `owed`: the part of the last value that is still to be sent.
    - `Account`: a target that has not refused anything is kept, and among
      targets none of which has refused anything, nothing is left out. A relay
      that closes down has found the end of its channel or has lost all its
      targets.
    - `relay_story`: the history of every relay is such an account.
-/

namespace TapeNet

namespace Relay

open History Process TapeNet.System

/-- One copy of a value for each of some senders. -/
def copies (on : Nat → Bool) (targets : List Nat) (v : Int) : List Int :=
  (targets.filter on).map fun _ => v

/-- What is still to be sent over some senders of the value at hand. -/
def owed (r : Relay) (on : Nat → Bool) : List Int :=
  match r.stage with
  | .sending v t rest => copies on (t :: rest) v
  | .dropping v _ rest => copies on rest v
  | _ => []

/-- Whether the relay closes its endpoints, or has done so. -/
def closesDown (r : Relay) : Bool :=
  match r.stage with
  | .closingInbound => true
  | .closingTarget _ _ => true
  | .finished => true
  | _ => false

theorem owed_of_closesDown {r : Relay} (h : r.closesDown = true) (on : Nat → Bool) :
    r.owed on = [] := by
  unfold closesDown at h
  unfold owed
  split
  · next hstage =>
    rw [hstage] at h
    cases h
  · next hstage =>
    rw [hstage] at h
    cases h
  · rfl

/-- A relay that does not hold one of its targets any more closes down. -/
theorem closesDown_of_not_held {r : Relay} {t : Nat} (ht : t ∈ r.targets) (hh : t ∉ r.held) :
    r.closesDown = true := by
  unfold held at hh
  unfold closesDown
  split at hh
  · next hstage => rw [hstage]
  · next hstage => rw [hstage]
  · exact absurd ht hh

theorem closesDown_of_request_eq_none {r : Relay} (h : r.request = none) :
    r.closesDown = true := by
  obtain ⟨name, inbound, targets, relayed, stage, failure, events⟩ := r
  cases stage with
  | finished => rfl
  | _ => cases h

/-! ### Going on with a value -/

@[simp] theorem targets_forward (r : Relay) (v : Int) (rest : List Nat) :
    (r.forward v rest).targets = r.targets := by
  cases rest with
  | cons t rest => rfl
  | nil =>
    simp only [forward]
    split
    · rfl
    · rfl

@[simp] theorem owed_forward (r : Relay) (v : Int) (rest : List Nat) (on : Nat → Bool) :
    (r.forward v rest).owed on = copies on rest v := by
  cases rest with
  | cons t rest => rfl
  | nil =>
    simp only [forward]
    split
    · rfl
    · rfl

theorem targets_of_closesDown_forward {r : Relay} {v : Int} {rest : List Nat}
    (h : (r.forward v rest).closesDown = true) : r.targets = [] := by
  cases rest with
  | cons t rest => cases h
  | nil =>
    simp only [forward] at h
    split at h
    · next hempty => exact List.isEmpty_iff.mp hempty
    · cases h

theorem dropping_forward {r : Relay} {v w : Int} {t : Nat} {rest rest' : List Nat} :
    (r.forward v rest).stage ≠ .dropping w t rest' := by
  cases rest with
  | cons u rest => exact Stage.noConfusion
  | nil =>
    simp only [forward]
    split
    · exact Stage.noConfusion
    · exact Stage.noConfusion

theorem stage_release (r : Relay) (rest : List Nat) :
    (r.release rest).targets = r.targets ∧ (∀ on, (r.release rest).owed on = []) ∧
      ∀ v t rest', (r.release rest).stage ≠ .dropping v t rest' := by
  cases rest with
  | nil => exact ⟨rfl, fun _ => rfl, fun _ _ _ => Stage.noConfusion⟩
  | cons t rest => exact ⟨rfl, fun _ => rfl, fun _ _ _ => Stage.noConfusion⟩

/-! ### The account -/

/-- What a relay with the targets `targets` has done with what it received from channel `c`. -/
structure Account (targets : List Nat) (c : Nat) (h : History) (r : Relay) : Prop where
  keeps : ∀ t ∈ targets, ¬Refused t h → t ∈ r.targets
  drops : ∀ v t rest, r.stage = .dropping v t rest → Refused t h
  closes : r.closesDown = true → Ended c h ∨ r.targets = []
  filter_eq : ∀ on : Nat → Bool, (∀ t, on t = true → ¬Refused t h) →
    r.targets.filter on = targets.filter on
  sent_append_owed : ∀ on : Nat → Bool, (∀ t, on t = true → ¬Refused t h) →
    sent on h ++ r.owed on = (received c h).flatMap (copies on targets)

variable {targets : List Nat} {c : Nat} {h : History} {r : Relay}

/-- A longer history refuses no less. -/
theorem not_refused_of_concat {on : Nat → Bool} {e : Request × Reply}
    (hn : ∀ t, on t = true → ¬Refused t (h ++ [e])) : ∀ t, on t = true → ¬Refused t h :=
  fun t ht hr => hn t ht (hr.mono e)

/-- What is sent and owed stays in balance with what is received, if one exchange keeps it so. -/
theorem Account.balance (ha : Account targets c h r) {on : Nat → Bool} {e : Request × Reply}
    (hn : ∀ t, on t = true → ¬Refused t (h ++ [e])) {r' : Relay}
    (he : (sentIn on e).toList ++ r'.owed on =
      r.owed on ++ (receivedIn c e).toList.flatMap (copies on targets)) :
    sent on (h ++ [e]) ++ r'.owed on = (received c (h ++ [e])).flatMap (copies on targets) := by
  have hold := ha.sent_append_owed on (not_refused_of_concat hn)
  rw [sent_concat, received_concat, List.append_assoc, he, ← List.append_assoc, hold,
    List.flatMap_append]

/-- The relay takes a value and is about to send it to all its targets. -/
theorem Account.take (ha : Account targets c h r) (hstage : r.stage = .receiving) (v : Int) :
    Account targets c (h ++ [(.receive c, .ok v)]) (r.forward v r.targets) where
  keeps t ht hn := by
    rw [targets_forward]
    exact ha.keeps t ht fun hr => hn (hr.mono _)
  drops w t rest hd := absurd hd dropping_forward
  closes hc := by
    rw [targets_forward]
    exact .inr (targets_of_closesDown_forward hc)
  filter_eq on hn := by
    rw [targets_forward]
    exact ha.filter_eq on (not_refused_of_concat hn)
  sent_append_owed on hn := by
    refine ha.balance hn ?_
    have hfilter := ha.filter_eq on (not_refused_of_concat hn)
    have hcopies : copies on r.targets v = copies on targets v := by
      rw [copies, copies, hfilter]
    have hnone : r.owed on = [] := by
      rw [owed, hstage]
    rw [owed_forward, hcopies, hnone]
    simp [sentIn, receivedIn]

/-- The relay gets no value, and stops. -/
theorem Account.find_end (ha : Account targets c h r) (hstage : r.stage = .receiving)
    (cause : PortError) {r' : Relay} (htargets : r'.targets = r.targets)
    (hstage' : r'.stage = .closingInbound) :
    Account targets c (h ++ [(.receive c, .error cause)]) r' where
  keeps t ht hn := by
    rw [htargets]
    exact ha.keeps t ht fun hr => hn (hr.mono _)
  drops w t rest hd := by
    rw [hstage'] at hd
    cases hd
  closes _ := .inl (ended_concat.mpr (.inr ⟨cause, rfl⟩))
  filter_eq on hn := by
    rw [htargets]
    exact ha.filter_eq on (not_refused_of_concat hn)
  sent_append_owed on hn := by
    refine ha.balance hn ?_
    rw [owed, owed, hstage, hstage']
    rfl

/-- The relay sends the value to the next target. -/
theorem Account.give (ha : Account targets c h r) {v : Int} {t : Nat} {rest : List Nat}
    (hstage : r.stage = .sending v t rest) (w : Int) :
    Account targets c (h ++ [(.send t v, .ok w)]) (r.forward v rest) where
  keeps u hu hn := by
    rw [targets_forward]
    exact ha.keeps u hu fun hr => hn (hr.mono _)
  drops w u rest' hd := absurd hd dropping_forward
  closes hc := by
    rw [targets_forward]
    exact .inr (targets_of_closesDown_forward hc)
  filter_eq on hn := by
    rw [targets_forward]
    exact ha.filter_eq on (not_refused_of_concat hn)
  sent_append_owed on hn := by
    refine ha.balance hn ?_
    rw [owed_forward, owed, hstage]
    show (sentIn on (.send t v, .ok w)).toList ++ copies on rest v = copies on (t :: rest) v ++ []
    cases ht : on t with
    | true => simp [sentIn, copies, ht]
    | false => simp [sentIn, copies, ht]

/-- A target refuses the value, and the relay is about to drop it. -/
theorem Account.refuse (ha : Account targets c h r) {v : Int} {t : Nat} {rest : List Nat}
    (hstage : r.stage = .sending v t rest) (cause : PortError) :
    Account targets c (h ++ [(.send t v, .error cause)])
      ((r.note (.dropped t)).goto (.dropping v t rest)) where
  keeps u hu hn := ha.keeps u hu fun hr => hn (hr.mono _)
  drops w u rest' hd := by
    obtain ⟨-, rfl, -⟩ := Stage.dropping.inj hd
    exact refused_concat.mpr (.inr ⟨v, cause, rfl⟩)
  closes hc := by cases hc
  filter_eq on hn := ha.filter_eq on (not_refused_of_concat hn)
  sent_append_owed on hn := by
    refine ha.balance hn ?_
    -- the target that refuses is none of those in question
    have hoff : on t = false := by
      by_contra hon
      exact hn t (Bool.eq_true_of_not_eq_false hon) (refused_concat.mpr (.inr ⟨v, cause, rfl⟩))
    rw [owed, owed, hstage]
    show copies on rest v = copies on (t :: rest) v ++ []
    simp [copies, hoff]

/-- The relay drops the target that has refused, and goes on with the others. -/
theorem Account.drop (ha : Account targets c h r) {v : Int} {t : Nat} {rest : List Nat}
    (hstage : r.stage = .dropping v t rest) (reply : Reply) :
    Account targets c (h ++ [(.closeSender t, reply)])
      ({ r with targets := r.targets.erase t }.forward v rest) where
  keeps u hu hn := by
    rw [targets_forward]
    -- the target that goes has refused, so it is not the one in question
    have hrefused := ha.drops v t rest hstage
    have hne : u ≠ t := fun hut => hn (hut ▸ hrefused.mono _)
    exact (List.mem_erase_of_ne hne).mpr (ha.keeps u hu fun hr => hn (hr.mono _))
  drops w u rest' hd := absurd hd dropping_forward
  closes hc := by
    rw [targets_forward]
    exact .inr (targets_of_closesDown_forward hc)
  filter_eq on hn := by
    have hout : t ∉ r.targets.filter on := by
      intro hmem
      exact hn t (List.mem_filter.mp hmem).2 ((ha.drops v t rest hstage).mono _)
    rw [targets_forward, ← ha.filter_eq on (not_refused_of_concat hn)]
    show (r.targets.erase t).filter on = _
    rw [← List.erase_filter, List.erase_of_not_mem hout]
  sent_append_owed on hn := by
    refine ha.balance hn ?_
    rw [owed_forward, owed, hstage]
    exact (List.append_nil _).symm

/-- The relay closes one of its endpoints. -/
theorem Account.close (ha : Account targets c h r) (hclosing : r.closesDown = true)
    (rest : List Nat) {q : Request} (hsend : ∀ t v, q ≠ .send t v)
    (hreceive : ∀ d, q ≠ .receive d) (reply : Reply) :
    Account targets c (h ++ [(q, reply)]) (r.release rest) := by
  obtain ⟨htargets, howed, hdropping⟩ := r.stage_release rest
  refine ⟨?_, fun v t rest' hd => absurd hd (hdropping v t rest'), ?_, ?_, ?_⟩
  · intro t ht hn
    rw [htargets]
    exact ha.keeps t ht fun hr => hn (hr.mono _)
  · intro _
    rw [htargets]
    exact (ha.closes hclosing).imp_left fun he => he.mono _
  · intro on hn
    rw [htargets]
    exact ha.filter_eq on (not_refused_of_concat hn)
  · intro on hn
    refine ha.balance hn ?_
    rw [owed_of_closesDown hclosing, howed]
    cases q with
    | send t v => exact absurd rfl (hsend t v)
    | receive d => exact absurd rfl (hreceive d)
    | _ => rfl

/-! ### The story -/

/-- Whatever it is told, the history of a relay is an account of all that it received. -/
theorem relay_story {r₀ : Relay} (hs : Story r₀ h r) (hstage₀ : r₀.stage = .receiving) :
    Account r₀.targets r₀.inbound h r := by
  induction hs with
  | start =>
    refine ⟨fun t ht _ => ht, ?_, ?_, fun on _ => rfl, ?_⟩
    · intro v t rest hd
      rw [hstage₀] at hd
      cases hd
    · intro hc
      rw [closesDown, hstage₀] at hc
      cases hc
    · intro on _
      rw [owed, hstage₀]
      rfl
  | @hear h r q reply hprev hq ha =>
    have hinbound := hprev.keeps inbound inbound_resume
    have hrequest : r.request = some q := hq
    -- one lemma for each stage that has a request
    show Account _ _ _ (r.resume reply)
    unfold request at hrequest
    unfold resume
    split at hrequest
    · next hstage =>
      obtain rfl := Option.some.inj hrequest
      rw [hinbound]
      rcases reply with (_ | _ | _ | _) | v
      case ok => exact ha.take hstage v
      all_goals exact ha.find_end hstage _ rfl rfl
    · next v t rest hstage =>
      obtain rfl := Option.some.inj hrequest
      cases reply with
      | error cause => exact ha.refuse hstage cause
      | ok w => exact ha.give hstage w
    · next v t rest hstage =>
      obtain rfl := Option.some.inj hrequest
      exact ha.drop hstage reply
    · next hstage =>
      obtain rfl := Option.some.inj hrequest
      refine ha.close ?_ _ (fun _ _ => Request.noConfusion) (fun _ => Request.noConfusion) reply
      rw [closesDown, hstage]
    · next t rest hstage =>
      obtain rfl := Option.some.inj hrequest
      refine ha.close ?_ _ (fun _ _ => Request.noConfusion) (fun _ => Request.noConfusion) reply
      rw [closesDown, hstage]
    · cases hrequest

end Relay

end TapeNet
