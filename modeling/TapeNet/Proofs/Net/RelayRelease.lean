import TapeNet.Proofs.Net.RelayDelivery

/-! # What a relay releases

    However the run of a relay ends, nothing is left open: not the channel
    that it reads, not the targets that it still has, and not those that it
    has dropped. Each of them is closed once, so that a channel with other
    senders stays open.

    - `mem_targets_iff`: the targets that are left are those that refused
      nothing.
    - `restart_after_end`: a relay whose channel is closed relays nothing
      more.
    - `releases_everything`: all this for a relay amid others.
-/

namespace TapeNet

namespace Relay

open History Process Tenant Switchboard

variable {r₀ r : Relay} {h : History} {b₀ b : Switchboard} {L : List Moment}

/-- At the end, the targets that are left are those that refused nothing. -/
theorem mem_targets_iff (hs : Story r₀ h r) (hstage₀ : r₀.stage = .receiving) (h₀ : r₀.Sound)
    (hend : r.request = none) {t : Nat} (ht : t ∈ r₀.targets) :
    t ∈ r.targets ↔ ¬Refused t h := by
  constructor
  · intro hkept hrefused
    obtain ⟨v, e, hmem⟩ := hrefused
    obtain ⟨h₁, h₂, rfl⟩ := List.append_of_mem hmem
    -- a target that refused and is still there is about to be dropped
    obtain ⟨-, hdropping⟩ := (after_refusal hs h₀).2.2 hkept
    rw [hend] at hdropping
    cases hdropping
  · exact (relay_story hs hstage₀).keeps t ht

/-- A relay whose channel is closed relays nothing more, and tries nothing. -/
theorem restart_after_end {b' : Switchboard} {r' : Relay} (hc : r.inbound < b.channels.size)
    (hclosed : (b.channel r.inbound).receiverOpen = false) (hrun : Amid r.restart b L r' b') :
    received r.inbound (exchanges L) = [] ∧
      (∀ t v reply, (Request.send t v, reply) ∉ exchanges L) ∧
      r'.relayed = r.relayed ∧ r'.targets = r.targets := by
  have hnothing := hrun.received_of_closed hc hclosed
  obtain ⟨-, hrelayed, htargets, hnever⟩ := story_without_values hrun.story rfl hnothing
  exact ⟨hnothing, hnever, hrelayed, htargets⟩

/-- However the run of a relay ends, amid others who may use every endpoint at every moment: its
    inbound receiver is closed, and so are all senders that it was given, the dropped ones included.
    The relay itself has taken from each channel one sender for each of its targets that was open at
    the start and that nobody else closed, and has touched no other endpoint. The targets that are
    left are those that refused nothing; and another run relays nothing more. -/
theorem releases_everything {name : String} {c : Nat} {targets : List Nat} (us : List Use)
    (hn : targets.Nodup) (hc : c < (record us).2.channels.size)
    (ht : ∀ t ∈ targets, t < (record us).2.senders.size)
    (hrun : Amid (create name c targets) (record us).2 L r b) (hend : r.request = none) :
    let b₀ := (record us).2
    (b.channel c).receiverOpen = false ∧
    (∀ t ∈ targets, (b.sender t).isOpen = false) ∧
    (∀ d, lowered d L = (targets.countP fun t =>
      (b₀.sender t).channel = d && ((b₀.sender t).isOpen && !takenAway t L) : Nat)) ∧
    (∀ m ∈ L, ∀ q reply, m.deed = .own q reply →
      (∀ t ∉ targets, m.after.sender t = m.before.sender t) ∧
      ∀ d ≠ c, (m.after.channel d).receiverOpen = (m.before.channel d).receiverOpen ∧
        ((∀ t ∈ targets, (b₀.sender t).channel ≠ d) →
          m.after.channel d = m.before.channel d)) ∧
    r.targets.Sublist targets ∧
    (∀ t ∈ targets, t ∈ r.targets ↔ ¬Refused t (exchanges L)) ∧
    ∀ L' r' b', Amid r.restart b L' r' b' →
      received c (exchanges L') = [] ∧
      (∀ t v reply, (Request.send t v, reply) ∉ exchanges L') ∧
      r'.relayed = r.relayed ∧ r'.targets = r.targets := by
  intro b₀
  have h₀ : Sound (create name c targets) := sound_create hn
  have hs : Story (create name c targets) (exchanges L) r := hrun.story
  obtain ⟨hholds, hreads⟩ := free_of_request_eq_none hend
  have hreceiver : (b.channel c).receiverOpen = false := by
    apply hrun.receiver_closed hc (List.mem_singleton_self c)
    rw [show reads r = [] from hreads]
    exact List.not_mem_nil
  have hsenders : ∀ t ∈ targets, (b.sender t).isOpen = false := by
    intro t htarget
    apply hrun.sender_closed h₀ (ht t htarget) htarget
    rw [show holds r = [] from hholds]
    exact List.not_mem_nil
  have hinbound : r.inbound = c := hs.keeps inbound inbound_resume
  refine ⟨hreceiver, hsenders, ?_, ?_, ?_, ?_, ?_⟩
  · intro d
    rw [hrun.lowered_eq h₀ (staffed_record us) ht d]
    congr 1
    apply List.countP_congr
    intro t htarget
    simp [closedBySelf, hsenders t htarget, b₀]
  · intro m hm q reply hd
    obtain ⟨hothers, hchannels⟩ := hrun.touches_only_held h₀ ht hm hd
    exact ⟨hothers, fun d hne => hchannels d fun hmem => hne (List.mem_singleton.mp hmem)⟩
  · exact story_targets_sublist hs
  · exact fun t htarget => mem_targets_iff hs rfl h₀ hend htarget
  · intro L' r' b' hrun'
    have hexists := hrun.exists_channel hc
    rw [← hinbound] at hexists hreceiver ⊢
    exact restart_after_end hexists hreceiver hrun'

/-- A relay with three targets, of which two share a channel with a sender that is not its own. One
    target refuses the first value, and the receive that follows would have to wait and is broken
    off. -/
theorem interruptedRelay_releases :
    let us : List Use := [.openChannel "in", .openChannel "a", .clone 1, .openChannel "b", .clone 1]
    let turns : List (Option Use) :=
      [some (.send 0 5), none, none, none, some (.closeReceiver 2), none, none, none, none, none,
        none]
    let run := mingle (create "relay" 0 [1, 2, 3]) (record us).2 turns
    run.2.1.request = none ∧ run.2.1.failure = some .wouldBlock ∧
      (run.2.2.channel 0).receiverOpen = false ∧
      (∀ t ∈ [1, 2, 3], (run.2.2.sender t).isOpen = false) ∧ (run.2.2.sender 4).isOpen = true ∧
      lowered 1 run.1 = 2 ∧ lowered 2 run.1 = 1 ∧ run.2.1.targets = [1, 2] := by
  intro us turns run
  have hrun := Amid.of_schedule (create "relay" 0 [1, 2, 3]) (record us).2 turns
  have hend : run.2.1.request = none := by decide +kernel
  obtain ⟨hreceiver, hsenders, hlowered, -⟩ :=
    releases_everything us (by decide) (by decide +kernel) (by decide +kernel) hrun hend
  refine ⟨hend, by decide +kernel, hreceiver, hsenders, by decide +kernel, ?_, ?_,
    by decide +kernel⟩
  · rw [hlowered 1]
    decide +kernel
  · rw [hlowered 2]
    decide +kernel

end Relay

end TapeNet
