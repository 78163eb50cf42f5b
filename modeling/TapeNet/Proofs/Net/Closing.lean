import TapeNet.Proofs.Net.Ledger

/-! # The end of a channel

    A receive reports the end of a channel when its receiver is closed, or
    when nothing is queued and nobody is left who could send.

    - `Staffed`: every channel counts its own open senders, and every sender
      belongs to a channel that exists. All uses keep this (`Staffed.perform`).
    - `ended_iff` and `waiting_iff`: what a receive reports, in terms of the
      endpoints that are open.
    - `Dead b c`: nothing is queued on a channel, and no sender is open that
      could change this. Uses that are done as a whole keep it
      (`Dead.perform`). The second half of a clone does not: its first half may
      have found its sender open before the end.
    - `closure_is_final`: what is true for ever after a receive has found the
      end of a channel. It does not say that no sender is opened: one that is
      still open when the receiver closes can be cloned
      (`not_closesForGood`), to no avail.
-/

namespace TapeNet

namespace Switchboard

variable {b : Switchboard} {c : Nat}

/-! ### Counting -/

/-- Every channel counts its own open senders, and every sender has a channel. -/
structure Staffed (b : Switchboard) : Prop where
  counted : b.Counted
  housed : ∀ t < b.senders.size, (b.sender t).channel < b.channels.size

theorem staffed_empty : Staffed .empty where
  counted c := by
    rw [channel_of_size_le (Nat.zero_le c)]
    rfl
  housed t ht := absurd ht (Nat.not_lt_zero t)

theorem Staffed.openChannel (h : b.Staffed) (name : String) : (b.openChannel name).2.Staffed where
  counted := h.counted.openChannel name
  housed t ht := by
    rw [size_senders_openChannel] at ht
    rw [sender_openChannel, size_channels_openChannel]
    split
    · exact Nat.lt_succ_self _
    · next hne => exact Nat.lt_succ_of_lt (h.housed t (by omega))

theorem Staffed.withSender (h : b.Staffed) (hc : c < b.channels.size) :
    (b.withSender c).Staffed where
  counted := h.counted.withSender hc
  housed t ht := by
    rw [size_senders_withSender] at ht
    rw [sender_withSender, size_channels_withSender]
    split
    · exact hc
    · next hne => exact h.housed t (by omega)

theorem Staffed.closeSender (h : b.Staffed) (t : Nat) : (b.closeSender t).Staffed where
  counted := h.counted.closeSender t
  housed u hu := by
    rw [size_senders_closeSender] at hu
    rw [sender_closeSender, size_channels_closeSender]
    split
    · exact h.housed u hu
    · exact h.housed u hu

/-- What happens to a queue or a receiver is nothing to the senders. -/
theorem Staffed.onChannel (h : b.Staffed) (c : Nat) {f : Channel → Channel}
    (hf : ∀ ch, (f ch).openSenders = ch.openSenders) : (b.onChannel c f).Staffed where
  counted := h.counted.onChannel c hf
  housed t ht := by
    have hlt := h.housed t ht
    rw [sender_onChannel]
    simpa [Switchboard.onChannel] using hlt

/-- Every use keeps the counts right, also if it fails. -/
theorem Staffed.perform (h : b.Staffed) (u : Use) : (b.perform u).2.Staffed := by
  cases u with
  | openChannel name => exact h.openChannel name
  | clone t =>
    show (b.clone t).2.Staffed
    by_cases ho : (b.sender t).isOpen = true
    · rw [clone_of_isOpen ho]
      exact h.withSender (h.housed t (lt_size_of_isOpen ho))
    · unfold clone
      rw [if_neg ho]
      exact h
  | join t =>
    show (b.join t).2.Staffed
    unfold join
    split
    · next ht => exact h.withSender (h.housed t ht)
    · exact h
  | send t v =>
    show (b.send t v).2.Staffed
    rcases b.send_cases t v with ⟨-, -, hs⟩ | ⟨_, hs, -⟩
    · rw [hs]
      exact h.onChannel _ fun _ => rfl
    · rw [hs]
      exact h
  | closeSender t => exact h.closeSender t
  | receive d =>
    show (b.receive d).2.Staffed
    rcases b.receive_or_refused d with ⟨_, _, -, -, hr⟩ | ⟨_, hr⟩
    · rw [hr]
      exact h.onChannel _ fun _ => rfl
    · rw [hr]
      exact h
  | drain d => exact h.onChannel d fun _ => rfl
  | closeReceiver d => exact h.onChannel d fun _ => rfl

theorem staffed_record (us : List Use) : (record us).2.Staffed := by
  induction us using List.reverseRecOn with
  | nil => exact staffed_empty
  | append_singleton us u ih =>
    rw [record_concat]
    exact ih.perform u

/-! ### What a receive reports -/

/-- A receive finds the end of the channel. -/
def Ended (b : Switchboard) (c : Nat) : Prop :=
  (b.perform (.receive c)).1 = .refused (.closed (.ended (b.channel c).name))

/-- A receive has to wait. -/
def Waiting (b : Switchboard) (c : Nat) : Prop :=
  (b.perform (.receive c)).1 = .refused .wouldBlock

/-- What a receive reports, in terms of the queue and the count. If neither is so, it takes a
    value. -/
theorem reports_iff (b : Switchboard) (c : Nat) :
    (b.Ended c ↔ (b.channel c).receiverOpen = false ∨
      (b.channel c).queue = [] ∧ (b.channel c).openSenders = 0) ∧
    (b.Waiting c ↔ (b.channel c).receiverOpen = true ∧ (b.channel c).queue = [] ∧
      (b.channel c).openSenders ≠ 0) := by
  unfold Ended Waiting perform receive waits
  cases ho : (b.channel c).receiverOpen with
  | false => simp [ho, Answer.ofExcept]
  | true =>
    cases hq : (b.channel c).queue with
    | cons v vs => simp [ho, hq, Answer.ofExcept]
    | nil =>
      by_cases hn : (b.channel c).openSenders = 0
      · simp [ho, hq, hn, Answer.ofExcept]
      · simp [ho, hq, hn, Answer.ofExcept]

/-- The end of a channel: its receiver is closed, or nothing is queued and no sender is open. -/
theorem Staffed.ended_iff (h : b.Staffed) (c : Nat) :
    b.Ended c ↔ (b.channel c).receiverOpen = false ∨
      (b.channel c).queue = [] ∧ b.openOn c = ∅ := by
  rw [(b.reports_iff c).1, h.counted c, Finset.card_eq_zero]

theorem Staffed.waiting_iff (h : b.Staffed) (c : Nat) :
    b.Waiting c ↔ (b.channel c).receiverOpen = true ∧ (b.channel c).queue = [] ∧
      (b.openOn c).Nonempty := by
  rw [(b.reports_iff c).2, h.counted c, Finset.card_ne_zero]

/-! ### Channels that have come to their end -/

/-- A use that is done as a whole, in contrast to the second half of a clone. -/
def Use.isWhole : Use → Bool
  | .join _ => false
  | _ => true

/-- Nothing is queued on a channel, and it has lost its receiver or all of its senders. -/
structure Dead (b : Switchboard) (c : Nat) : Prop where
  exists_channel : c < b.channels.size
  queue : (b.channel c).queue = []
  unused : (b.channel c).receiverOpen = false ∨ b.openOn c = ∅

/-- A channel without an open sender never gets one. -/
theorem openOn_perform {u : Use} (hu : u.isWhole = true) (hc : c < b.channels.size)
    (h : b.openOn c = ∅) : (b.perform u).2.openOn c = ∅ := by
  cases u with
  | openChannel name =>
    show (b.openChannel name).2.openOn c = ∅
    rw [openOn_of_new_sender (b.sender_openChannel name), if_neg (Nat.ne_of_lt hc)]
    exact h
  | clone t =>
    show (b.clone t).2.openOn c = ∅
    by_cases ho : (b.sender t).isOpen = true
    · -- the sender that is cloned is open, so it belongs to another channel
      have hne : c ≠ (b.sender t).channel := by
        rintro rfl
        have hmem : t ∈ b.openOn (b.sender t).channel := mem_openOn.mpr ⟨ho, rfl⟩
        rw [h] at hmem
        exact Finset.notMem_empty t hmem
      rw [clone_of_isOpen ho, openOn_of_new_sender (b.sender_withSender _), if_neg hne]
      exact h
    · unfold clone
      rw [if_neg ho]
      exact h
  | join t => cases hu
  | send t v =>
    show (b.send t v).2.openOn c = ∅
    rcases b.send_cases t v with ⟨-, -, hs⟩ | ⟨_, hs, -⟩
    · rw [hs]
      exact h
    · rw [hs]
      exact h
  | closeSender t =>
    show (b.closeSender t).openOn c = ∅
    rw [openOn_closeSender, h, Finset.erase_empty]
  | receive d =>
    show (b.receive d).2.openOn c = ∅
    rcases b.receive_or_refused d with ⟨_, _, -, -, hr⟩ | ⟨_, hr⟩
    · rw [hr]
      exact h
    · rw [hr]
      exact h
  | drain d => exact h
  | closeReceiver d => exact h

/-- Nothing is sent to a channel that is not used any more. -/
theorem accepted_of_unused (h : (b.channel c).receiverOpen = false ∨ b.openOn c = ∅) (u : Use) :
    Ledger.accepted c [b.entry u] = [] := by
  rw [Ledger.accepted_singleton]
  split
  · next hc =>
    cases hsent : (b.entry u).sent with
    | none => rfl
    | some e =>
      obtain ⟨t, v⟩ := e
      obtain ⟨huse, hdone⟩ := sent_eq_some hsent
      obtain rfl : u = .send t v := huse
      obtain rfl : (b.sender t).channel = c := hc
      -- whoever sent was open, and so was the receiver
      obtain ⟨ho, hr⟩ := (b.perform_send_eq_done t v).mp hdone
      rcases h with hclosed | hnone
      · rw [hr] at hclosed
        cases hclosed
      · have hmem : t ∈ b.openOn (b.sender t).channel := mem_openOn.mpr ⟨ho, rfl⟩
        rw [hnone] at hmem
        exact absurd hmem (Finset.notMem_empty t)
  · rfl

/-- Where nothing comes in, an empty queue stays empty. -/
theorem Moves.queue_eq_nil {ch ch' : Channel} {outs : List Int} (h : Moves ch [] outs ch')
    (hq : ch.queue = []) : ch'.queue = [] := by
  cases h with
  | rest queue => rw [queue, hq]
  | handOut vs queue =>
    rw [hq] at queue
    exact (List.append_eq_nil_iff.mp queue.symm).2
  | close queue => exact queue

theorem Dead.perform (h : Dead b c) {u : Use} (hu : u.isWhole = true) :
    Dead (b.perform u).2 c := by
  have hsize := Nat.lt_of_lt_of_le h.exists_channel (b.size_le_perform u)
  rcases b.moves_perform u c with hs | ⟨_, -, rfl⟩
  · unfold Shifts at hs
    rw [accepted_of_unused h.unused] at hs
    refine ⟨hsize, hs.queue_eq_nil h.queue, ?_⟩
    rcases h.unused with hclosed | hnone
    · exact .inl (hs.stays_closed hclosed)
    · exact .inr (openOn_perform hu h.exists_channel hnone)
  · exact absurd h.exists_channel (Nat.lt_irrefl _)

/-- Whatever is done later, nothing is accepted any more, and no sender is opened if none is open. -/
theorem Dead.record {us : List Use} (h : Dead (record us).2 c) {vs : List Use}
    (hvs : ∀ v ∈ vs, v.isWhole = true) :
    Dead (Switchboard.record (us ++ vs)).2 c ∧
      (Switchboard.record (us ++ vs)).1.accepted c = (Switchboard.record us).1.accepted c ∧
      ((Switchboard.record us).2.openOn c = ∅ →
        (Switchboard.record (us ++ vs)).2.openOn c = ∅) := by
  induction vs using List.reverseRecOn with
  | nil =>
    rw [List.append_nil]
    exact ⟨h, rfl, id⟩
  | append_singleton vs v ih =>
    obtain ⟨hdead, hin, hnone⟩ := ih fun u hu => hvs u (List.mem_append_left _ hu)
    have hv : v.isWhole = true := hvs v (List.mem_append_right _ List.mem_cons_self)
    rw [← List.append_assoc, record_concat]
    refine ⟨hdead.perform hv, ?_, ?_⟩
    · rw [Ledger.accepted_append, accepted_of_unused hdead.unused, List.append_nil, hin]
    · intro h
      exact openOn_perform hv hdead.exists_channel (hnone h)

/-- A receive that finds the end has found a channel that is dead. -/
theorem dead_of_ended {us : List Use} (hc : c < (record us).2.channels.size)
    (h : (record us).2.Ended c) : Dead (record us).2 c := by
  rcases ((staffed_record us).ended_iff c).mp h with hclosed | ⟨hqueue, hnone⟩
  · exact ⟨hc, (inOrder_record us c).closed hclosed, .inl hclosed⟩
  · exact ⟨hc, hqueue, .inr hnone⟩

/-- After any uses of any channels, of which half-done clones may be some: a channel counts the
    senders that are open; a receive reports its end if and only if the receiver is closed or
    nothing is queued and no sender is open, and it has to wait if and only if the receiver is open,
    nothing is queued and some sender is open. Once it has reported the end, no later use that is
    done as a whole queues a value, nor opens a sender if none was open then; so every later receive
    reports the end, and every later drain gives nothing. Clones that were begun before the end and
    are still to be finished after it are left out. -/
theorem closure_is_final (us : List Use) (c : Nat) :
    let b := (record us).2
    (b.channel c).openSenders = (b.openOn c).card ∧
    (b.Ended c ↔ (b.channel c).receiverOpen = false ∨
      (b.channel c).queue = [] ∧ b.openOn c = ∅) ∧
    (b.Waiting c ↔ (b.channel c).receiverOpen = true ∧ (b.channel c).queue = [] ∧
      (b.openOn c).Nonempty) ∧
    (c < b.channels.size → b.Ended c → ∀ vs : List Use, (∀ v ∈ vs, v.isWhole = true) →
      let L' := (record (us ++ vs)).1
      let b' := (record (us ++ vs)).2
      L'.accepted c = (record us).1.accepted c ∧ (b'.channel c).queue = [] ∧
        (b.openOn c = ∅ → b'.openOn c = ∅) ∧
        b'.Ended c ∧ (b'.perform (.drain c)).1 = .values []) := by
  intro b
  have hstaffed := staffed_record us
  refine ⟨hstaffed.counted c, hstaffed.ended_iff c, hstaffed.waiting_iff c, ?_⟩
  intro hc hended vs hvs L' b'
  obtain ⟨hdead, hin, hnone⟩ := (dead_of_ended hc hended).record hvs
  refine ⟨hin, hdead.queue, hnone, ?_, ?_⟩
  · rw [(staffed_record (us ++ vs)).ended_iff c]
    rcases hdead.unused with hclosed | hlost
    · exact .inl hclosed
    · exact .inr ⟨hdead.queue, hlost⟩
  · exact congrArg Answer.values hdead.queue

/-- Once a receive has found the end of a channel, no later use opens a sender or queues a value. -/
def ClosesForGood (us : List Use) (c : Nat) : Prop :=
  (record us).2.Ended c → ∀ vs : List Use, (∀ v ∈ vs, v.isWhole = true) →
    (record (us ++ vs)).2.openOn c ⊆ (record us).2.openOn c ∧
      ((record (us ++ vs)).2.channel c).queue = []

/-- The receiver closes first, and the sender, which is still open, is cloned. -/
theorem not_closesForGood :
    ¬ClosesForGood [.openChannel "channel", .closeReceiver 0, .receive 0] 0 := by
  intro h
  obtain ⟨hopen, -⟩ := h rfl [.clone 0] (by decide)
  -- the clone is a new sender, and it is open
  revert hopen
  decide +kernel

end Switchboard

end TapeNet
