import Mathlib.Data.Finset.Card
import TapeNet.Net.Switchboard

/-! # Accounts of a switchboard

    What each operation does to the view of a switchboard, which is the
    channels `b.channel c` and the senders `b.sender t`.

    - `Counted`: every channel counts its own open senders. All operations
      keep this, so a channel reports its end exactly when nobody is left who
      could send (`waits_iff`).
    - `send_cases` and `receive_cases` say all that a send and a receive can
      do. A send that is refused and a receive that finds the end leave the
      switchboard as it was.
-/

namespace TapeNet

namespace Switchboard

/-! ### Endpoints that exist -/

theorem channel_of_size_le {b : Switchboard} {c : Nat} (h : b.channels.size ≤ c) :
    b.channel c = .gone := by
  simp [channel, Array.getD_eq_getD_getElem?, Array.getElem?_eq_none h]

theorem sender_of_size_le {b : Switchboard} {t : Nat} (h : b.senders.size ≤ t) :
    b.sender t = .gone := by
  simp [sender, Array.getD_eq_getD_getElem?, Array.getElem?_eq_none h]

theorem lt_size_of_receiverOpen {b : Switchboard} {c : Nat}
    (h : (b.channel c).receiverOpen = true) : c < b.channels.size := by
  by_contra hc
  rw [channel_of_size_le (Nat.not_lt.mp hc)] at h
  cases h

theorem lt_size_of_isOpen {b : Switchboard} {t : Nat}
    (h : (b.sender t).isOpen = true) : t < b.senders.size := by
  by_contra ht
  rw [sender_of_size_le (Nat.not_lt.mp ht)] at h
  cases h

/-! ### Counting open senders -/

/-- The open senders of a channel. -/
def openOn (b : Switchboard) (c : Nat) : Finset Nat :=
  (Finset.range b.senders.size).filter fun t =>
    (b.sender t).isOpen = true ∧ (b.sender t).channel = c

/-- Every channel counts its own open senders. -/
def Counted (b : Switchboard) : Prop :=
  ∀ c, (b.channel c).openSenders = (b.openOn c).card

theorem mem_openOn {b : Switchboard} {c t : Nat} :
    t ∈ b.openOn c ↔ (b.sender t).isOpen = true ∧ (b.sender t).channel = c := by
  simp only [openOn, Finset.mem_filter, Finset.mem_range]
  constructor
  · exact fun h => h.2
  · exact fun h => ⟨lt_size_of_isOpen h.1, h⟩

/-- A receive has to wait if and only if nothing is queued and somebody could still send. -/
theorem waits_iff {b : Switchboard} (hb : b.Counted) (c : Nat) :
    b.waits c = true ↔ (b.channel c).receiverOpen = true ∧ (b.channel c).queue = [] ∧
      ∃ t, (b.sender t).isOpen = true ∧ (b.sender t).channel = c := by
  have hcard : (b.channel c).openSenders ≠ 0 ↔
      ∃ t, (b.sender t).isOpen = true ∧ (b.sender t).channel = c := by
    rw [hb c, Finset.card_ne_zero]
    constructor
    · rintro ⟨t, ht⟩
      exact ⟨t, mem_openOn.mp ht⟩
    · rintro ⟨t, ht⟩
      exact ⟨t, mem_openOn.mpr ht⟩
  simp only [waits, Bool.and_eq_true, List.isEmpty_iff, bne_iff_ne]
  rw [and_assoc, hcard]

/-- An operation on the channels that leaves the counts alone keeps them right. -/
theorem Counted.onChannel {b : Switchboard} (hb : b.Counted) (c : Nat) {f : Channel → Channel}
    (hf : ∀ ch, (f ch).openSenders = ch.openSenders) : (b.onChannel c f).Counted := by
  intro d
  have hopen : (b.onChannel c f).openOn d = b.openOn d := rfl
  rw [hopen, channel_onChannel]
  split
  · next h => rw [hf, ← hb d, h.1]
  · exact hb d

/-! ### Closing -/

theorem sender_closeSender (b : Switchboard) (t u : Nat) :
    (b.closeSender t).sender u =
      if u = t then { b.sender u with isOpen := false } else b.sender u := by
  unfold closeSender
  split
  · next h =>
    rw [sender_onChannel, sender_onSender]
    have ht := lt_size_of_isOpen h
    by_cases hu : u = t
    · subst hu; simp [ht]
    · simp [hu]
  · next h =>
    -- closing a closed sender changes nothing, and it says so already
    split
    · next hu =>
      subst hu
      cases hs : b.sender u with
      | mk channel isOpen => rw [hs] at h; simp_all
    · rfl

theorem openOn_closeSender (b : Switchboard) (t c : Nat) :
    (b.closeSender t).openOn c = (b.openOn c).erase t := by
  ext u
  rw [Finset.mem_erase, mem_openOn, mem_openOn, sender_closeSender]
  by_cases hu : u = t
  · simp [hu]
  · simp [hu]

/-- Closing a sender takes nothing from the queues and closes no receiver. -/
theorem channel_closeSender (b : Switchboard) (t c : Nat) :
    ((b.closeSender t).channel c).queue = (b.channel c).queue ∧
      ((b.closeSender t).channel c).receiverOpen = (b.channel c).receiverOpen := by
  unfold closeSender
  split
  · rw [channel_onChannel, channel_onSender]
    split
    · next h => rw [h.1]; exact ⟨rfl, rfl⟩
    · exact ⟨rfl, rfl⟩
  · exact ⟨rfl, rfl⟩

/-- Closing an open sender is counted by its channel, and by no other one. -/
theorem channel_closeSender_of_isOpen {b : Switchboard} {t : Nat}
    (h : (b.sender t).isOpen = true) (c : Nat) :
    (b.closeSender t).channel c =
      if c = (b.sender t).channel ∧ (b.sender t).channel < b.channels.size then
        { b.channel (b.sender t).channel with
          openSenders := (b.channel (b.sender t).channel).openSenders - 1 }
      else b.channel c := by
  unfold closeSender
  rw [if_pos h]
  exact channel_onChannel _ _ c _

theorem Counted.closeSender {b : Switchboard} (hb : b.Counted) (t : Nat) :
    (b.closeSender t).Counted := by
  intro c
  rw [openOn_closeSender]
  by_cases ht : (b.sender t).isOpen = true
  · by_cases hc : (b.sender t).channel = c
    · have hmem : t ∈ b.openOn c := mem_openOn.mpr ⟨ht, hc⟩
      -- the channel exists, because it counts this sender
      have hlt : c < b.channels.size := by
        by_contra hge
        have hzero : (b.openOn c).card = 0 := by
          rw [← hb c, channel_of_size_le (Nat.not_lt.mp hge)]
          rfl
        rw [Finset.card_eq_zero] at hzero
        rw [hzero] at hmem
        exact Finset.notMem_empty t hmem
      have hcount : ((b.closeSender t).channel c).openSenders =
          (b.channel c).openSenders - 1 := by
        rw [channel_closeSender_of_isOpen ht, if_pos ⟨hc.symm, by rw [hc]; exact hlt⟩, hc]
      rw [hcount, Finset.card_erase_of_mem hmem, hb c]
    · have hmem : t ∉ b.openOn c := fun h => hc (mem_openOn.mp h).2
      have hcount : ((b.closeSender t).channel c).openSenders = (b.channel c).openSenders := by
        rw [channel_closeSender_of_isOpen ht, if_neg (fun h => hc h.1.symm)]
      rw [hcount, Finset.erase_eq_of_notMem hmem, hb c]
  · have hmem : t ∉ b.openOn c := fun h => ht (mem_openOn.mp h).1
    have hsame : b.closeSender t = b := by
      unfold Switchboard.closeSender
      rw [if_neg ht]
    rw [hsame, Finset.erase_eq_of_notMem hmem, hb c]

theorem channel_closeReceiver (b : Switchboard) (c d : Nat) :
    (b.closeReceiver c).channel d =
      if d = c ∧ c < b.channels.size then
        { b.channel c with queue := [], receiverOpen := false }
      else b.channel d :=
  channel_onChannel b c d _

/-- Whatever a closed receiver was, it has nothing queued any more. -/
theorem receiverOpen_closeReceiver_self (b : Switchboard) (c : Nat) :
    ((b.closeReceiver c).channel c).receiverOpen = false := by
  rw [channel_closeReceiver]
  split
  · rfl
  · next h =>
    rw [channel_of_size_le (by simpa using h)]
    rfl

theorem Counted.closeReceiver {b : Switchboard} (hb : b.Counted) (c : Nat) :
    (b.closeReceiver c).Counted :=
  hb.onChannel c fun _ => rfl

/-! ### Sending and receiving -/

/-- The switchboard once a value is queued on a channel. -/
def enqueue (b : Switchboard) (c : Nat) (vs : List Int) : Switchboard :=
  b.onChannel c fun ch => { ch with queue := ch.queue ++ vs }

/-- The switchboard once the oldest value of a channel is taken. -/
def dequeue (b : Switchboard) (c : Nat) : Switchboard :=
  b.onChannel c fun ch => { ch with queue := ch.queue.tail }

/-- All that a send can do: it queues the value, or it is refused and changes nothing. An open
    sender is refused only if the receiver is closed. -/
theorem send_cases (b : Switchboard) (t : Nat) (v : Int) :
    ((b.sender t).isOpen = true ∧ (b.channel (b.sender t).channel).receiverOpen = true ∧
      b.send t v = (.ok 0, b.enqueue (b.sender t).channel [v])) ∨
    (∃ cause, b.send t v = (.error (.closed cause), b) ∧
      ((b.sender t).isOpen = true →
        (b.channel (b.sender t).channel).receiverOpen = false)) := by
  cases ho : (b.sender t).isOpen with
  | false =>
    have hs : b.send t v = (.error (.closed (.senderClosed (b.nameOf t))), b) := by
      simp [send, ho]
    exact .inr ⟨_, hs, fun h => Bool.noConfusion h⟩
  | true =>
    cases hr : (b.channel (b.sender t).channel).receiverOpen with
    | false =>
      have hs : b.send t v = (.error (.closed (.receiverGone (b.nameOf t))), b) := by
        simp [send, ho, hr]
      exact .inr ⟨_, hs, fun _ => rfl⟩
    | true =>
      have hs : b.send t v = (.ok 0, b.enqueue (b.sender t).channel [v]) := by
        simp [send, ho, hr, enqueue]
      exact .inl ⟨rfl, rfl, hs⟩

/-- All that a receive can do if it does not have to wait: it takes the oldest value, or it finds
    the end of the channel and changes nothing. An open receiver finds the end only if nothing is
    queued and no sender is left. -/
theorem receive_cases (b : Switchboard) (c : Nat) (hw : b.waits c = false) :
    (∃ v rest, (b.channel c).receiverOpen = true ∧ (b.channel c).queue = v :: rest ∧
      b.receive c = (.ok v, b.dequeue c)) ∨
    (∃ cause, b.receive c = (.error (.closed cause), b) ∧
      ((b.channel c).receiverOpen = true →
        (b.channel c).queue = [] ∧ (b.channel c).openSenders = 0)) := by
  cases ho : (b.channel c).receiverOpen with
  | false =>
    have hs : b.receive c = (.error (.closed (.ended (b.channel c).name)), b) := by
      simp [receive, ho, hw]
    exact .inr ⟨_, hs, fun h => Bool.noConfusion h⟩
  | true =>
    cases hq : (b.channel c).queue with
    | cons v rest =>
      have hs : b.receive c = (.ok v, b.dequeue c) := by
        simp [receive, ho, hq, dequeue]
      exact .inl ⟨v, rest, rfl, rfl, hs⟩
    | nil =>
      have hs : b.receive c = (.error (.closed (.ended (b.channel c).name)), b) := by
        simp [receive, ho, hq, hw]
      have hzero : (b.channel c).openSenders = 0 := by
        simpa [waits, ho, hq] using hw
      exact .inr ⟨_, hs, fun _ => ⟨rfl, hzero⟩⟩

/-- A receive that delivers a value takes the oldest one, and nothing else. -/
theorem receive_delivered {b : Switchboard} {c : Nat} {v : Int}
    (h : (b.receive c).1 = .ok v) :
    (∃ vs, (b.channel c).queue = v :: vs) ∧ (b.receive c).2 = b.dequeue c := by
  unfold receive at h ⊢
  split
  · next w vs hopen hqueue =>
    rw [hopen, hqueue] at h
    cases h
    exact ⟨⟨vs, hqueue⟩, rfl⟩
  · next hnone =>
    exfalso
    split at h
    · next w vs hopen hqueue => exact hnone w vs hopen hqueue
    · split at h
      · cases h
      · cases h

theorem channel_enqueue (b : Switchboard) (c d : Nat) (vs : List Int) :
    (b.enqueue c vs).channel d =
      if d = c ∧ c < b.channels.size then
        { b.channel c with queue := (b.channel c).queue ++ vs }
      else b.channel d :=
  channel_onChannel b c d _

theorem enqueue_nil (b : Switchboard) (c : Nat) : b.enqueue c [] = b := by
  simp only [enqueue, onChannel, List.append_nil]
  congr 1
  apply Array.ext_getElem?
  intro d
  rw [Array.getElem?_modify]
  split
  · simp
  · rfl

theorem enqueue_enqueue (b : Switchboard) (c : Nat) (us vs : List Int) :
    (b.enqueue c us).enqueue c vs = b.enqueue c (us ++ vs) := by
  simp only [enqueue, onChannel]
  congr 1
  apply Array.ext_getElem?
  intro d
  rw [Array.getElem?_modify, Array.getElem?_modify, Array.getElem?_modify]
  split
  · rw [Option.map_map]
    congr 1
    funext ch
    simp
  · rfl

theorem channel_dequeue (b : Switchboard) (c d : Nat) :
    (b.dequeue c).channel d =
      if d = c ∧ c < b.channels.size then
        { b.channel c with queue := (b.channel c).queue.tail }
      else b.channel d :=
  channel_onChannel b c d _

theorem Counted.send {b : Switchboard} (hb : b.Counted) (t : Nat) (v : Int) :
    (b.send t v).2.Counted := by
  obtain ⟨-, -, h⟩ | ⟨_, h, -⟩ := b.send_cases t v
  · rw [h]
    exact hb.onChannel _ fun _ => rfl
  · rw [h]
    exact hb

theorem Counted.receive {b : Switchboard} (hb : b.Counted) {c : Nat} (hw : b.waits c = false) :
    (b.receive c).2.Counted := by
  obtain ⟨_, _, -, -, h⟩ | ⟨_, h, -⟩ := b.receive_cases c hw
  · rw [h]
    exact hb.onChannel _ fun _ => rfl
  · rw [h]
    exact hb

theorem Counted.sendAll {b : Switchboard} (hb : b.Counted) (t : Nat) (vs : List Int) :
    (b.sendAll t vs).2.Counted := by
  induction vs generalizing b with
  | nil => exact hb
  | cons v vs ih =>
    have hsend := hb.send t v
    rw [Switchboard.sendAll]
    rcases h : b.send t v with ⟨_ | _, b'⟩
    · rw [h] at hsend
      exact hsend
    · rw [h] at hsend
      exact ih hsend

/-- A sender that is not refused queues all its values in order. -/
theorem sendAll_eq_enqueue {b : Switchboard} {t : Nat} (ho : (b.sender t).isOpen = true)
    (hr : (b.channel (b.sender t).channel).receiverOpen = true) (vs : List Int) :
    b.sendAll t vs = (.ok 0, b.enqueue (b.sender t).channel vs) := by
  induction vs generalizing b with
  | nil =>
    rw [enqueue_nil]
    rfl
  | cons v vs ih =>
    rcases b.send_cases t v with ⟨-, -, hs⟩ | ⟨_, -, hclosed⟩
    · have hlt := lt_size_of_receiverOpen hr
      have hsender : (b.enqueue (b.sender t).channel [v]).sender t = b.sender t := rfl
      have hnext := ih (b := b.enqueue (b.sender t).channel [v]) ho (by
        rw [hsender, channel_enqueue, if_pos ⟨rfl, hlt⟩]
        exact hr)
      -- the first value went through, and the others follow it
      rw [sendAll, hs]
      simp only [hnext, hsender, enqueue_enqueue, List.singleton_append]
    · rw [hclosed ho] at hr
      cases hr

/-- A sender that is not refused changes nothing but the queue of its channel. -/
theorem sendAll_eq {b : Switchboard} {t : Nat} (ho : (b.sender t).isOpen = true)
    (hr : (b.channel (b.sender t).channel).receiverOpen = true) (vs : List Int) :
    (∀ u, (b.sendAll t vs).2.sender u = b.sender u) ∧ ∀ c,
      ((b.sendAll t vs).2.channel c).receiverOpen = (b.channel c).receiverOpen ∧
      ((b.sendAll t vs).2.channel c).queue =
        if c = (b.sender t).channel then (b.channel c).queue ++ vs else (b.channel c).queue := by
  rw [sendAll_eq_enqueue ho hr]
  refine ⟨fun _ => rfl, fun c => ?_⟩
  have hlt := lt_size_of_receiverOpen hr
  rw [channel_enqueue]
  by_cases hc : c = (b.sender t).channel
  · subst hc
    simp [hlt]
  · simp [hc]

/-! ### Serving -/

/-- A request changes a sender only by closing it. -/
theorem sender_serve (b : Switchboard) {r : Request} (hr : b.blocks r = false) (t : Nat) :
    (b.serve r).2.sender t =
      if r = .closeSender t then { b.sender t with isOpen := false } else b.sender t := by
  cases r with
  | pause => rfl
  | closeReceiver c => rfl
  | closeSender u =>
    show (b.closeSender u).sender t = _
    rw [sender_closeSender]
    by_cases ht : t = u
    · simp [ht]
    · simp [ht, Ne.symm ht]
  | send u v =>
    show (b.send u v).2.sender t = _
    obtain ⟨-, -, h⟩ | ⟨_, h, -⟩ := b.send_cases u v
    · rw [h]
      rfl
    · rw [h]
      rfl
  | receive c =>
    show (b.receive c).2.sender t = _
    obtain ⟨_, _, -, -, h⟩ | ⟨_, h, -⟩ := b.receive_cases c hr
    · rw [h]
      rfl
    · rw [h]
      rfl

/-- A sender always belongs to the same channel. -/
theorem channel_sender_serve (b : Switchboard) {r : Request} (hr : b.blocks r = false) (t : Nat) :
    ((b.serve r).2.sender t).channel = (b.sender t).channel := by
  rw [sender_serve b hr]
  split
  · rfl
  · rfl

/-- A request closes a receiver only if it asks for it. -/
theorem receiverOpen_serve (b : Switchboard) {r : Request} (hr : b.blocks r = false) (c : Nat) :
    ((b.serve r).2.channel c).receiverOpen = true ↔
      (b.channel c).receiverOpen = true ∧ r ≠ .closeReceiver c := by
  cases r with
  | pause => simp [serve]
  | closeSender u =>
    show ((b.closeSender u).channel c).receiverOpen = true ↔ _
    simp [(b.channel_closeSender u c).2]
  | closeReceiver d =>
    show ((b.closeReceiver d).channel c).receiverOpen = true ↔ _
    by_cases hd : c = d
    · simp [hd, receiverOpen_closeReceiver_self]
    · simp [channel_closeReceiver, hd, Ne.symm hd]
  | send u v =>
    show ((b.send u v).2.channel c).receiverOpen = true ↔ _
    obtain ⟨-, -, h⟩ | ⟨_, h, -⟩ := b.send_cases u v
    · rw [h, channel_enqueue]
      split
      · next hc => simp [hc.1]
      · simp
    · rw [h]
      simp
  | receive d =>
    show ((b.receive d).2.channel c).receiverOpen = true ↔ _
    obtain ⟨_, _, -, -, h⟩ | ⟨_, h, -⟩ := b.receive_cases d hr
    · rw [h, channel_dequeue]
      split
      · next hc => simp [hc.1]
      · simp
    · rw [h]
      simp

/-- Serving any request that does not have to wait keeps the counts right. -/
theorem Counted.serve {b : Switchboard} (hb : b.Counted) {r : Request}
    (hr : b.blocks r = false) : (b.serve r).2.Counted := by
  cases r with
  | pause => exact hb
  | send t v => exact hb.send t v
  | receive c => exact hb.receive hr
  | closeSender t => exact hb.closeSender t
  | closeReceiver c => exact hb.closeReceiver c

/-! ### Opening -/

/-- A sender that does not exist yet is not among the open ones. -/
theorem size_notMem_openOn (b : Switchboard) (c : Nat) : b.senders.size ∉ b.openOn c := by
  intro h
  exact Nat.lt_irrefl _ (lt_size_of_isOpen (mem_openOn.mp h).1)

/-- A new sender counts for its own channel only. -/
theorem openOn_of_new_sender {b b' : Switchboard} {c : Nat}
    (h : ∀ t, b'.sender t = if t = b.senders.size then ⟨c, true⟩ else b.sender t) (d : Nat) :
    b'.openOn d = if d = c then insert b.senders.size (b.openOn d) else b.openOn d := by
  ext t
  rw [mem_openOn, h]
  by_cases ht : t = b.senders.size
  · subst ht
    rw [if_pos rfl]
    split
    · next hd => simp [hd]
    · next hd =>
      have hnew := b.size_notMem_openOn d
      simp [hnew, Ne.symm hd]
  · rw [if_neg ht]
    split
    · rw [Finset.mem_insert, mem_openOn]
      exact ⟨Or.inr, fun h => h.resolve_left ht⟩
    · rw [mem_openOn]

@[simp] theorem size_channels_openChannel (b : Switchboard) (name : String) :
    (b.openChannel name).2.channels.size = b.channels.size + 1 := by
  simp [openChannel]

@[simp] theorem size_senders_openChannel (b : Switchboard) (name : String) :
    (b.openChannel name).2.senders.size = b.senders.size + 1 := by
  simp [openChannel]

theorem sender_openChannel (b : Switchboard) (name : String) (t : Nat) :
    (b.openChannel name).2.sender t =
      if t = b.senders.size then ⟨b.channels.size, true⟩ else b.sender t := by
  simp only [openChannel, sender, Array.getD_eq_getD_getElem?, Array.getElem?_push]
  split <;> simp_all

theorem channel_openChannel (b : Switchboard) (name : String) (c : Nat) :
    (b.openChannel name).2.channel c =
      if c = b.channels.size then ⟨name, [], 1, true⟩ else b.channel c := by
  simp only [openChannel, channel, Array.getD_eq_getD_getElem?, Array.getElem?_push]
  split <;> simp_all

theorem Counted.openChannel {b : Switchboard} (hb : b.Counted) (name : String) :
    (b.openChannel name).2.Counted := by
  intro c
  rw [channel_openChannel, openOn_of_new_sender (b.sender_openChannel name)]
  by_cases hc : c = b.channels.size
  · -- nobody could send to the channel before it was there
    have hnone : b.openOn c = ∅ := by
      rw [← Finset.card_eq_zero, ← hb c, channel_of_size_le hc.ge]
      rfl
    rw [if_pos hc, if_pos hc, hnone]
    rfl
  · rw [if_neg hc, if_neg hc]
    exact hb c

/-- The switchboard with one more sender for a channel. -/
def withSender (b : Switchboard) (c : Nat) : Switchboard where
  channels := b.channels.modify c fun ch => { ch with openSenders := ch.openSenders + 1 }
  senders := b.senders.push ⟨c, true⟩

@[simp] theorem size_channels_withSender (b : Switchboard) (c : Nat) :
    (b.withSender c).channels.size = b.channels.size := by
  simp [withSender]

@[simp] theorem size_senders_withSender (b : Switchboard) (c : Nat) :
    (b.withSender c).senders.size = b.senders.size + 1 := by
  simp [withSender]

theorem clone_of_isOpen {b : Switchboard} {t : Nat} (h : (b.sender t).isOpen = true) :
    b.clone t = (.ok b.senders.size, b.withSender (b.sender t).channel) := by
  unfold clone
  rw [if_pos h]
  rfl

theorem sender_withSender (b : Switchboard) (c t : Nat) :
    (b.withSender c).sender t = if t = b.senders.size then ⟨c, true⟩ else b.sender t := by
  simp only [withSender, sender, Array.getD_eq_getD_getElem?, Array.getElem?_push]
  split <;> simp_all

theorem channel_withSender (b : Switchboard) (c d : Nat) :
    (b.withSender c).channel d =
      if d = c ∧ c < b.channels.size then
        { b.channel c with openSenders := (b.channel c).openSenders + 1 }
      else b.channel d :=
  channel_onChannel b c d fun ch => { ch with openSenders := ch.openSenders + 1 }

theorem Counted.withSender {b : Switchboard} (hb : b.Counted) {c : Nat}
    (hc : c < b.channels.size) : (b.withSender c).Counted := by
  intro d
  rw [channel_withSender, openOn_of_new_sender (b.sender_withSender c)]
  by_cases hd : d = c
  · rw [if_pos ⟨hd, hc⟩, if_pos hd, Finset.card_insert_of_notMem (b.size_notMem_openOn d), ← hb d,
      hd]
  · rw [if_neg fun h => hd h.1, if_neg hd]
    exact hb d

end Switchboard

end TapeNet
