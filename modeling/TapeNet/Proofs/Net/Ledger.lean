import Mathlib.Data.List.Basic
import TapeNet.Proofs.Net.Accounts

/-! # Ledgers

    Anybody may use a switchboard, through any endpoint and at any time. A
    ledger is the list of all that was ever done with one, with the answers.

    - `perform` is one use, and `record` is what any uses in turn leave
      behind. Nothing is assumed about who takes turns with whom.
    - `Moves` lists all that a use can do to a channel: a value comes in at
      the back of the queue, values leave at its front, or the receiver
      closes (`moves_perform`).
    - `accepted c` are the values that were sent to a channel with success,
      each with its sender, and `handedOut c` those that its receiver got.
      `InOrder` compares them with the queue; every use keeps it
      (`InOrder.perform`).
    - `channels_lossless`: no value is lost, doubled or overtaken while the
      receiver is open, and a closed one is closed for good.
-/

namespace TapeNet

namespace Switchboard

/-! ### Using a switchboard -/

/-- One use of a switchboard. -/
inductive Use
  | openChannel (name : String)
  | clone (sender : Nat)
  /-- the second half of a clone: its sender was found to be open, but may be closed by now -/
  | join (sender : Nat)
  | send (sender : Nat) (value : Int)
  | closeSender (sender : Nat)
  | receive (channel : Nat)
  | drain (channel : Nat)
  | closeReceiver (channel : Nat)
deriving DecidableEq, Repr

inductive Answer
  | done
  | opened (sender channel : Nat)
  | sender (number : Nat)
  | value (v : Int)
  | values (vs : List Int)
  | refused (cause : PortError)
deriving DecidableEq, Repr

def Answer.ofExcept {α : Type} (f : α → Answer) : Except PortError α → Answer
  | .ok a => f a
  | .error cause => .refused cause

/-- The second half of a clone. -/
def join (b : Switchboard) (t : Nat) : Except PortError Nat × Switchboard :=
  if t < b.senders.size then (.ok b.senders.size, b.withSender (b.sender t).channel)
  else (.error (.closed (.cloneOfClosed (b.nameOf t))), b)

/-- Uses a switchboard. A receive that would have to wait is refused. -/
def perform (b : Switchboard) : Use → Answer × Switchboard
  | .openChannel name => (.opened (b.openChannel name).1.1 (b.openChannel name).1.2,
      (b.openChannel name).2)
  | .clone t => (.ofExcept .sender (b.clone t).1, (b.clone t).2)
  | .join t => (.ofExcept .sender (b.join t).1, (b.join t).2)
  | .send t v => (.ofExcept (fun _ => .done) (b.send t v).1, (b.send t v).2)
  | .closeSender t => (.done, b.closeSender t)
  | .receive c => (.ofExcept .value (b.receive c).1, (b.receive c).2)
  | .drain c => (.values (b.drain c).1, (b.drain c).2)
  | .closeReceiver c => (.done, b.closeReceiver c)

/-- The channel that a use is about. -/
def about (b : Switchboard) : Use → Nat
  | .openChannel _ => b.channels.size
  | .clone t | .join t | .send t _ | .closeSender t => (b.sender t).channel
  | .receive c | .drain c | .closeReceiver c => c

/-- A line of a ledger. -/
structure Entry where
  use : Use
  channel : Nat
  answer : Answer
deriving DecidableEq, Repr

abbrev Ledger := List Entry

/-- The line for a use. -/
def entry (b : Switchboard) (u : Use) : Entry := ⟨u, b.about u, (b.perform u).1⟩

/-- What some uses of an empty switchboard leave behind: the ledger, and the switchboard itself. -/
def record (us : List Use) : Ledger × Switchboard :=
  us.foldl (fun (L, b) u => (L ++ [b.entry u], (b.perform u).2)) ([], .empty)

theorem record_concat (us : List Use) (u : Use) :
    record (us ++ [u]) =
      ((record us).1 ++ [(record us).2.entry u], ((record us).2.perform u).2) := by
  unfold record
  rw [List.foldl_append]
  rfl

/-! ### Values in a ledger -/

/-- The sender and the value of a send that succeeded. -/
def Entry.sent : Entry → Option (Nat × Int)
  | ⟨.send t v, _, .done⟩ => some (t, v)
  | _ => none

/-- The values that a use took from its channel. -/
def Entry.taken : Entry → List Int
  | ⟨.receive _, _, .value v⟩ => [v]
  | ⟨.drain _, _, .values vs⟩ => vs
  | _ => []

namespace Ledger

/-- The lines about a channel. -/
def on (c : Nat) (L : Ledger) : Ledger := L.filter (·.channel = c)

/-- All sends that succeeded, in order. -/
def sends (L : Ledger) : List (Nat × Int) := L.filterMap Entry.sent

/-- The sends to a channel that succeeded, in order. -/
def accepted (c : Nat) (L : Ledger) : List (Nat × Int) := (L.on c).sends

/-- The values that the receiver of a channel got, in order. -/
def handedOut (c : Nat) (L : Ledger) : List Int := (L.on c).flatMap Entry.taken

theorem accepted_append (c : Nat) (L M : Ledger) :
    accepted c (L ++ M) = accepted c L ++ accepted c M := by
  unfold accepted on sends
  rw [List.filter_append, List.filterMap_append]

theorem handedOut_append (c : Nat) (L M : Ledger) :
    handedOut c (L ++ M) = handedOut c L ++ handedOut c M := by
  unfold handedOut on
  rw [List.filter_append, List.flatMap_append]

theorem accepted_singleton (c : Nat) (e : Entry) :
    accepted c [e] = if e.channel = c then e.sent.toList else [] := by
  unfold accepted on sends
  by_cases h : e.channel = c
  · cases hs : e.sent <;> simp [h, hs]
  · simp [h]

theorem handedOut_singleton (c : Nat) (e : Entry) :
    handedOut c [e] = if e.channel = c then e.taken else [] := by
  unfold handedOut on
  by_cases h : e.channel = c
  · simp [h]
  · simp [h]

end Ledger

open Ledger

/-! ### What a use does to a channel -/

/-- All that can happen to a channel: what came in, what went out, and what it is then. -/
inductive Moves (ch : Channel) : List (Nat × Int) → List Int → Channel → Prop
  | rest {ch' : Channel} (queue : ch'.queue = ch.queue)
      (receiver : ch'.receiverOpen = ch.receiverOpen) : Moves ch [] [] ch'
  | accept {ch' : Channel} (t : Nat) (v : Int) (queue : ch'.queue = ch.queue ++ [v])
      (was_open : ch.receiverOpen = true) (still_open : ch'.receiverOpen = true) :
      Moves ch [(t, v)] [] ch'
  | handOut {ch' : Channel} (vs : List Int) (queue : ch.queue = vs ++ ch'.queue)
      (receiver : ch'.receiverOpen = ch.receiverOpen) : Moves ch [] vs ch'
  | close {ch' : Channel} (queue : ch'.queue = []) (closed : ch'.receiverOpen = false) :
      Moves ch [] [] ch'

namespace Moves

variable {ch ch' : Channel} {ins : List (Nat × Int)} {outs : List Int}

/-- A closed receiver stays closed. -/
theorem stays_closed (h : Moves ch ins outs ch') (hclosed : ch.receiverOpen = false) :
    ch'.receiverOpen = false := by
  cases h with
  | rest queue receiver => exact receiver.trans hclosed
  | accept t v queue was_open still_open =>
    rw [hclosed] at was_open
    cases was_open
  | handOut vs queue receiver => exact receiver.trans hclosed
  | close queue closed => exact closed

/-- Nothing moves behind a closed receiver, nor while it closes. -/
theorem of_closed (h : Moves ch ins outs ch') (hclosed : ch'.receiverOpen = false)
    (hqueue : ch.receiverOpen = false → ch.queue = []) :
    ins = [] ∧ outs = [] ∧ ch'.queue = [] := by
  cases h with
  | rest queue receiver => exact ⟨rfl, rfl, queue.trans (hqueue (receiver.symm.trans hclosed))⟩
  | accept t v queue was_open still_open =>
    rw [hclosed] at still_open
    cases still_open
  | handOut vs queue receiver =>
    -- there is nothing that could be handed out
    rw [hqueue (receiver.symm.trans hclosed)] at queue
    obtain ⟨houts, hrest⟩ := List.append_eq_nil_iff.mp queue.symm
    exact ⟨rfl, houts, hrest⟩
  | close queue closed => exact ⟨rfl, rfl, queue⟩

/-- What goes out and stays is what was there and came in, in this order. -/
theorem of_open (h : Moves ch ins outs ch') (hopen : ch'.receiverOpen = true) :
    ch.receiverOpen = true ∧ outs ++ ch'.queue = ch.queue ++ ins.map Prod.snd := by
  cases h with
  | rest queue receiver => simp [← receiver, hopen, queue]
  | accept t v queue was_open still_open => simp [was_open, queue]
  | handOut vs queue receiver => simp [← receiver, hopen, queue]
  | close queue closed =>
    rw [hopen] at closed
    cases closed

end Moves

/-- What a use brings into a channel and takes out of it. -/
def Shifts (b : Switchboard) (u : Use) (c : Nat) : Prop :=
  Moves (b.channel c) (accepted c [b.entry u]) (handedOut c [b.entry u])
    ((b.perform u).2.channel c)

/-- A use that moves no values and closes no receiver. -/
theorem Shifts.idle {b : Switchboard} {u : Use} {c : Nat}
    (hsent : (b.entry u).channel = c → (b.entry u).sent = none)
    (htaken : (b.entry u).channel = c → (b.entry u).taken = [])
    (hqueue : ((b.perform u).2.channel c).queue = (b.channel c).queue)
    (hreceiver : ((b.perform u).2.channel c).receiverOpen = (b.channel c).receiverOpen) :
    b.Shifts u c := by
  have hin : accepted c [b.entry u] = [] := by
    rw [accepted_singleton]
    split
    · next h => rw [hsent h]; rfl
    · rfl
  have hout : handedOut c [b.entry u] = [] := by
    rw [handedOut_singleton]
    split
    · next h => rw [htaken h]
    · rfl
  unfold Shifts
  rw [hin, hout]
  exact .rest hqueue hreceiver

theorem shifts_send (b : Switchboard) (t : Nat) (v : Int) (c : Nat) : b.Shifts (.send t v) c := by
  rcases b.send_cases t v with ⟨-, hopen, h⟩ | ⟨cause, h, -⟩
  · have hentry : b.entry (.send t v) = ⟨.send t v, (b.sender t).channel, .done⟩ := by
      simp [entry, about, perform, h, Answer.ofExcept]
    have hboard : (b.perform (.send t v)).2 = b.enqueue (b.sender t).channel [v] := by
      simp [perform, h]
    by_cases hc : (b.sender t).channel = c
    · -- the value comes in at the back
      rw [hc] at hopen hentry hboard
      have hlt := lt_size_of_receiverOpen hopen
      unfold Shifts
      rw [accepted_singleton, handedOut_singleton, hentry, hboard, channel_enqueue,
        if_pos rfl, if_pos rfl, if_pos ⟨rfl, hlt⟩]
      exact .accept t v rfl hopen hopen
    · have hsame : (b.perform (.send t v)).2.channel c = b.channel c := by
        rw [hboard, channel_enqueue, if_neg fun hand => hc hand.1.symm]
      exact .idle (fun he => by rw [hentry] at he; exact absurd he hc) (fun _ => rfl)
        (by rw [hsame]) (by rw [hsame])
  · have hentry : b.entry (.send t v) =
        ⟨.send t v, (b.sender t).channel, .refused (.closed cause)⟩ := by
      simp [entry, about, perform, h, Answer.ofExcept]
    have hboard : (b.perform (.send t v)).2 = b := by simp [perform, h]
    exact .idle (fun _ => by rw [hentry]; rfl) (fun _ => rfl) (by rw [hboard]) (by rw [hboard])

/-- A receive that has to wait changes nothing. -/
theorem receive_of_waits {b : Switchboard} {c : Nat} (hw : b.waits c = true) :
    b.receive c = (.error .wouldBlock, b) := by
  have hqueue : (b.channel c).queue = [] := by
    unfold waits at hw
    simp only [Bool.and_eq_true, List.isEmpty_iff] at hw
    exact hw.1.2
  simp [receive, hqueue, hw]

/-- A receive takes the oldest value, or it is refused and changes nothing. -/
theorem receive_or_refused (b : Switchboard) (c : Nat) :
    (∃ v rest, (b.channel c).receiverOpen = true ∧ (b.channel c).queue = v :: rest ∧
      b.receive c = (.ok v, b.dequeue c)) ∨ ∃ cause, b.receive c = (.error cause, b) := by
  cases hw : b.waits c with
  | true => exact .inr ⟨_, receive_of_waits hw⟩
  | false =>
    rcases b.receive_cases c hw with htaken | ⟨cause, h, -⟩
    · exact .inl htaken
    · exact .inr ⟨_, h⟩

theorem shifts_receive (b : Switchboard) (d c : Nat) : b.Shifts (.receive d) c := by
  rcases b.receive_or_refused d with ⟨v, rest, hopen, hqueue, h⟩ | ⟨cause, h⟩
  · have hentry : b.entry (.receive d) = ⟨.receive d, d, .value v⟩ := by
      simp [entry, about, perform, h, Answer.ofExcept]
    have hboard : (b.perform (.receive d)).2 = b.dequeue d := by simp [perform, h]
    by_cases hc : d = c
    · -- the value goes out at the front
      subst hc
      have hlt := lt_size_of_receiverOpen hopen
      unfold Shifts
      rw [accepted_singleton, handedOut_singleton, hentry, hboard, channel_dequeue,
        if_pos rfl, if_pos rfl, if_pos ⟨rfl, hlt⟩]
      refine .handOut [v] ?_ rfl
      simp [hqueue]
    · have hsame : (b.perform (.receive d)).2.channel c = b.channel c := by
        rw [hboard, channel_dequeue, if_neg fun hand => hc hand.1.symm]
      exact .idle (fun _ => rfl) (fun he => absurd he hc) (by rw [hsame]) (by rw [hsame])
  · have hentry : b.entry (.receive d) = ⟨.receive d, d, .refused cause⟩ := by
      simp [entry, about, perform, h, Answer.ofExcept]
    have hboard : (b.perform (.receive d)).2 = b := by simp [perform, h]
    exact .idle (fun _ => rfl) (fun _ => by rw [hentry]; rfl) (by rw [hboard]) (by rw [hboard])

theorem shifts_drain (b : Switchboard) (d c : Nat) : b.Shifts (.drain d) c := by
  have hboard : (b.perform (.drain d)).2.channel c =
      if c = d ∧ d < b.channels.size then { b.channel d with queue := [] } else b.channel c :=
    channel_onChannel b d c _
  by_cases hc : d = c
  · -- all that is queued goes out, if there is such a channel
    subst hc
    have hentry : b.entry (.drain d) = ⟨.drain d, d, .values (b.channel d).queue⟩ := rfl
    unfold Shifts
    rw [accepted_singleton, handedOut_singleton, hentry, hboard, if_pos rfl, if_pos rfl]
    refine .handOut (b.channel d).queue ?_ ?_
    · split
      · simp
      · next h =>
        rw [channel_of_size_le (by simpa using h)]
        rfl
    · split <;> rfl
  · have hsame : (b.perform (.drain d)).2.channel c = b.channel c := by
      rw [hboard, if_neg fun hand => hc hand.1.symm]
    exact .idle (fun _ => rfl) (fun he => absurd he hc) (by rw [hsame]) (by rw [hsame])

theorem shifts_closeReceiver (b : Switchboard) (d c : Nat) : b.Shifts (.closeReceiver d) c := by
  by_cases hc : c = d ∧ d < b.channels.size
  · have hclosed : (b.perform (.closeReceiver d)).2.channel c =
        { b.channel d with queue := [], receiverOpen := false } := by
      show (b.closeReceiver d).channel c = _
      rw [channel_closeReceiver, if_pos hc]
    unfold Shifts
    rw [accepted_singleton, handedOut_singleton, hclosed]
    have hnone : (b.entry (.closeReceiver d)).sent = none := rfl
    have hempty : (b.entry (.closeReceiver d)).taken = [] := rfl
    rw [hnone, hempty, Option.toList_none, ite_self, ite_self]
    exact .close rfl rfl
  · have hsame : (b.perform (.closeReceiver d)).2.channel c = b.channel c := by
      show (b.closeReceiver d).channel c = _
      rw [channel_closeReceiver, if_neg hc]
    exact .idle (fun _ => rfl) (fun _ => rfl) (by rw [hsame]) (by rw [hsame])

/-- One more sender is nothing to a queue. -/
theorem withSender_moves_nothing (b : Switchboard) (d c : Nat) :
    ((b.withSender d).channel c).queue = (b.channel c).queue ∧
      ((b.withSender d).channel c).receiverOpen = (b.channel c).receiverOpen := by
  rw [channel_withSender]
  split
  · next h => rw [h.1]; exact ⟨rfl, rfl⟩
  · exact ⟨rfl, rfl⟩

theorem clone_cases (b : Switchboard) (t : Nat) :
    b.clone t = (.ok b.senders.size, b.withSender (b.sender t).channel) ∨
      ∃ cause, b.clone t = (.error cause, b) := by
  cases ho : (b.sender t).isOpen with
  | true => exact .inl (clone_of_isOpen ho)
  | false =>
    refine .inr ⟨.closed (.cloneOfClosed (b.nameOf t)), ?_⟩
    unfold clone
    rw [if_neg (by rw [ho]; exact Bool.false_ne_true)]

theorem join_cases (b : Switchboard) (t : Nat) :
    b.join t = (.ok b.senders.size, b.withSender (b.sender t).channel) ∨
      ∃ cause, b.join t = (.error cause, b) := by
  unfold join
  split
  · exact .inl rfl
  · exact .inr ⟨_, rfl⟩

/-- A use that adds a sender, or does nothing, moves nothing. -/
theorem Shifts.joined {b : Switchboard} {u : Use} {d : Nat} (hsent : (b.entry u).sent = none)
    (htaken : (b.entry u).taken = [])
    (h : (b.perform u).2 = b.withSender d ∨ (b.perform u).2 = b) (c : Nat) : b.Shifts u c := by
  rcases h with hjoined | hsame
  · obtain ⟨hqueue, hreceiver⟩ := b.withSender_moves_nothing d c
    exact .idle (fun _ => hsent) (fun _ => htaken) (by rw [hjoined, hqueue])
      (by rw [hjoined, hreceiver])
  · exact .idle (fun _ => hsent) (fun _ => htaken) (by rw [hsame]) (by rw [hsame])

theorem shifts_clone (b : Switchboard) (t c : Nat) : b.Shifts (.clone t) c := by
  refine .joined (d := (b.sender t).channel) rfl rfl ?_ c
  rcases b.clone_cases t with h | ⟨_, h⟩
  · exact .inl (congrArg Prod.snd h)
  · exact .inr (congrArg Prod.snd h)

theorem shifts_join (b : Switchboard) (t c : Nat) : b.Shifts (.join t) c := by
  refine .joined (d := (b.sender t).channel) rfl rfl ?_ c
  rcases b.join_cases t with h | ⟨_, h⟩
  · exact .inl (congrArg Prod.snd h)
  · exact .inr (congrArg Prod.snd h)

/-- All that a use can do to a channel, unless it opens it. -/
theorem moves_perform (b : Switchboard) (u : Use) (c : Nat) :
    b.Shifts u c ∨ ∃ name, u = .openChannel name ∧ c = b.channels.size := by
  cases u with
  | openChannel name =>
    by_cases hc : c = b.channels.size
    · exact .inr ⟨name, rfl, hc⟩
    · have hsame : (b.perform (.openChannel name)).2.channel c = b.channel c := by
        show (b.openChannel name).2.channel c = _
        rw [channel_openChannel, if_neg hc]
      exact .inl (.idle (fun _ => rfl) (fun _ => rfl) (by rw [hsame]) (by rw [hsame]))
  | clone t => exact .inl (b.shifts_clone t c)
  | join t => exact .inl (b.shifts_join t c)
  | send t v => exact .inl (b.shifts_send t v c)
  | closeSender t =>
    have hsame := b.channel_closeSender t c
    exact .inl (.idle (fun _ => rfl) (fun _ => rfl) hsame.1 hsame.2)
  | receive d => exact .inl (b.shifts_receive d c)
  | drain d => exact .inl (b.shifts_drain d c)
  | closeReceiver d => exact .inl (b.shifts_closeReceiver d c)

/-! ### What a use does to a switchboard -/

/-- All that a use can make of a switchboard: it opens a channel, adds a sender, changes one channel
    in place, closes a sender, or leaves everything as it was. -/
theorem perform_cases (b : Switchboard) (u : Use) :
    (∃ name, (b.perform u).2 = (b.openChannel name).2) ∨
    (∃ c, (b.perform u).2 = b.withSender c) ∨
    (∃ c f, (b.perform u).2 = b.onChannel c f) ∨
    (∃ t, (b.perform u).2 = b.closeSender t) ∨
    (b.perform u).2 = b := by
  cases u with
  | openChannel name => exact .inl ⟨name, rfl⟩
  | clone t =>
    rcases b.clone_cases t with h | ⟨_, h⟩
    · exact .inr (.inl ⟨_, congrArg Prod.snd h⟩)
    · exact .inr (.inr (.inr (.inr (congrArg Prod.snd h))))
  | join t =>
    rcases b.join_cases t with h | ⟨_, h⟩
    · exact .inr (.inl ⟨_, congrArg Prod.snd h⟩)
    · exact .inr (.inr (.inr (.inr (congrArg Prod.snd h))))
  | send t v =>
    rcases b.send_cases t v with ⟨-, -, h⟩ | ⟨_, h, -⟩
    · exact .inr (.inr (.inl ⟨_, _, congrArg Prod.snd h⟩))
    · exact .inr (.inr (.inr (.inr (congrArg Prod.snd h))))
  | closeSender t => exact .inr (.inr (.inr (.inl ⟨t, rfl⟩)))
  | receive c =>
    rcases b.receive_or_refused c with ⟨_, _, -, -, h⟩ | ⟨_, h⟩
    · exact .inr (.inr (.inl ⟨_, _, congrArg Prod.snd h⟩))
    · exact .inr (.inr (.inr (.inr (congrArg Prod.snd h))))
  | drain c => exact .inr (.inr (.inl ⟨c, _, rfl⟩))
  | closeReceiver c => exact .inr (.inr (.inl ⟨c, _, rfl⟩))

@[simp] theorem size_channels_closeSender (b : Switchboard) (t : Nat) :
    (b.closeSender t).channels.size = b.channels.size := by
  unfold closeSender
  split
  · simp [onChannel, onSender]
  · rfl

@[simp] theorem size_senders_closeSender (b : Switchboard) (t : Nat) :
    (b.closeSender t).senders.size = b.senders.size := by
  unfold closeSender
  split
  · simp [onChannel, onSender]
  · rfl

theorem size_le_perform (b : Switchboard) (u : Use) :
    b.channels.size ≤ (b.perform u).2.channels.size := by
  rcases b.perform_cases u with ⟨_, h⟩ | ⟨_, h⟩ | ⟨_, _, h⟩ | ⟨_, h⟩ | h
  · simp [h]
  · simp [h]
  · simp [h, onChannel]
  · simp [h]
  · simp [h]

/-- A sender that exists goes on to exist and belongs to the same channel. -/
theorem sender_perform (b : Switchboard) (u : Use) {t : Nat} (ht : t < b.senders.size) :
    t < (b.perform u).2.senders.size ∧
      ((b.perform u).2.sender t).channel = (b.sender t).channel := by
  have hold : t ≠ b.senders.size := Nat.ne_of_lt ht
  rcases b.perform_cases u with ⟨_, h⟩ | ⟨_, h⟩ | ⟨_, _, h⟩ | ⟨s, h⟩ | h
  · rw [h, size_senders_openChannel, sender_openChannel, if_neg hold]
    exact ⟨Nat.lt_succ_of_lt ht, rfl⟩
  · rw [h, size_senders_withSender, sender_withSender, if_neg hold]
    exact ⟨Nat.lt_succ_of_lt ht, rfl⟩
  · rw [h]
    exact ⟨ht, rfl⟩
  · rw [h, size_senders_closeSender, sender_closeSender]
    refine ⟨ht, ?_⟩
    split <;> rfl
  · rw [h]
    exact ⟨ht, rfl⟩

/-! ### Order -/

/-- What a channel accepted and handed out, against what it has queued. -/
structure InOrder (L : Ledger) (b : Switchboard) (c : Nat) : Prop where
  in_order : (b.channel c).receiverOpen = true →
    handedOut c L ++ (b.channel c).queue = (accepted c L).map Prod.snd
  handedOut_le : handedOut c L <+: (accepted c L).map Prod.snd
  closed : (b.channel c).receiverOpen = false → (b.channel c).queue = []
  new : b.channels.size ≤ c → accepted c L = [] ∧ handedOut c L = []

theorem inOrder_empty (c : Nat) : InOrder [] .empty c where
  in_order h := by
    rw [channel_of_size_le (Nat.zero_le c)] at h
    cases h
  handedOut_le := List.nil_prefix
  closed _ := by
    rw [channel_of_size_le (Nat.zero_le c)]
    rfl
  new _ := ⟨rfl, rfl⟩

variable {L : Ledger} {b : Switchboard} {c : Nat}

/-- Values come in and go out in order. -/
theorem InOrder.shift (h : InOrder L b c) {u : Use} (hs : b.Shifts u c) :
    InOrder (L ++ [b.entry u]) (b.perform u).2 c where
  in_order hopen := by
    obtain ⟨hwas, hmoved⟩ := hs.of_open hopen
    calc handedOut c (L ++ [b.entry u]) ++ ((b.perform u).2.channel c).queue
        = handedOut c L ++ (handedOut c [b.entry u] ++ ((b.perform u).2.channel c).queue) := by
          rw [handedOut_append, List.append_assoc]
      _ = (handedOut c L ++ (b.channel c).queue) ++ (accepted c [b.entry u]).map Prod.snd := by
          rw [hmoved, List.append_assoc]
      _ = (accepted c (L ++ [b.entry u])).map Prod.snd := by
          rw [h.in_order hwas, accepted_append, List.map_append]
  handedOut_le := by
    cases ho : ((b.perform u).2.channel c).receiverOpen with
    | true =>
      obtain ⟨hwas, hmoved⟩ := hs.of_open ho
      rw [handedOut_append, accepted_append, List.map_append, ← h.in_order hwas,
        List.append_assoc, ← hmoved, ← List.append_assoc]
      exact List.prefix_append _ _
    | false =>
      obtain ⟨hins, houts, -⟩ := hs.of_closed ho h.closed
      rw [handedOut_append, accepted_append, hins, houts, List.append_nil, List.append_nil]
      exact h.handedOut_le
  closed hclosed := (hs.of_closed hclosed h.closed).2.2
  new hc := by
    -- a channel that is not there yet moves nothing
    have hgone := Nat.le_trans (b.size_le_perform u) hc
    have hclosed := hs.stays_closed (by rw [channel_of_size_le hgone]; rfl)
    obtain ⟨hins, houts, -⟩ := hs.of_closed hclosed h.closed
    rw [handedOut_append, accepted_append, hins, houts, List.append_nil, List.append_nil]
    exact h.new hgone

theorem InOrder.openChannel {name : String} (h : InOrder L b b.channels.size) :
    InOrder (L ++ [b.entry (.openChannel name)]) (b.perform (.openChannel name)).2
      b.channels.size := by
  obtain ⟨hins, houts⟩ := h.new (Nat.le_refl _)
  have hins' : accepted b.channels.size (L ++ [b.entry (.openChannel name)]) = [] := by
    rw [accepted_append, hins, accepted_singleton]
    exact ite_self _
  have houts' : handedOut b.channels.size (L ++ [b.entry (.openChannel name)]) = [] := by
    rw [handedOut_append, houts, handedOut_singleton]
    exact ite_self _
  have hqueue : ((b.perform (.openChannel name)).2.channel b.channels.size).queue = [] := by
    show ((b.openChannel name).2.channel b.channels.size).queue = []
    rw [channel_openChannel, if_pos rfl]
  constructor
  · intro _
    rw [hins', houts', hqueue]
    rfl
  · rw [houts']
    exact List.nil_prefix
  · exact fun _ => hqueue
  · exact fun _ => ⟨hins', houts'⟩

/-- Every use keeps the order. -/
theorem InOrder.perform (h : InOrder L b c) (u : Use) :
    InOrder (L ++ [b.entry u]) (b.perform u).2 c := by
  rcases b.moves_perform u c with hs | ⟨name, rfl, rfl⟩
  · exact h.shift hs
  · exact h.openChannel

theorem inOrder_record (us : List Use) (c : Nat) : InOrder (record us).1 (record us).2 c := by
  induction us using List.reverseRecOn with
  | nil => exact inOrder_empty c
  | append_singleton us u ih =>
    rw [record_concat]
    exact ih.perform u

/-! ### The end of a channel -/

/-- A channel that has lost its receiver. -/
structure Over (b : Switchboard) (c : Nat) : Prop where
  exists_channel : c < b.channels.size
  closed : (b.channel c).receiverOpen = false
  queue : (b.channel c).queue = []

theorem Over.perform (h : Over b c) (u : Use) :
    Over (b.perform u).2 c ∧ accepted c [b.entry u] = [] ∧ handedOut c [b.entry u] = [] := by
  rcases b.moves_perform u c with hs | ⟨name, rfl, rfl⟩
  · have hclosed := hs.stays_closed h.closed
    obtain ⟨hins, houts, hqueue⟩ := hs.of_closed hclosed fun _ => h.queue
    exact ⟨⟨Nat.lt_of_lt_of_le h.exists_channel (b.size_le_perform u), hclosed, hqueue⟩,
      hins, houts⟩
  · exact absurd h.exists_channel (Nat.lt_irrefl _)

/-- Whatever is done later, nothing is accepted or handed out any more. -/
theorem Over.record {us : List Use} (h : Over (record us).2 c) (vs : List Use) :
    Over (Switchboard.record (us ++ vs)).2 c ∧
      accepted c (Switchboard.record (us ++ vs)).1 = accepted c (Switchboard.record us).1 ∧
      handedOut c (Switchboard.record (us ++ vs)).1 = handedOut c (Switchboard.record us).1 := by
  induction vs using List.reverseRecOn with
  | nil =>
    rw [List.append_nil]
    exact ⟨h, rfl, rfl⟩
  | append_singleton vs v ih =>
    obtain ⟨hover, hins, houts⟩ := ih
    obtain ⟨hover', hin, hout⟩ := hover.perform v
    rw [← List.append_assoc, record_concat]
    refine ⟨hover', ?_, ?_⟩
    · rw [accepted_append, hin, List.append_nil, hins]
    · rw [handedOut_append, hout, List.append_nil, houts]

/-! ### Senders -/

/-- Only an open sender sends. -/
theorem perform_send_eq_done (b : Switchboard) (t : Nat) (v : Int) :
    (b.perform (.send t v)).1 = .done ↔
      (b.sender t).isOpen = true ∧ (b.channel (b.sender t).channel).receiverOpen = true := by
  rcases b.send_cases t v with ⟨hopen, hreceiver, h⟩ | ⟨cause, h, hclosed⟩
  · simp [Switchboard.perform, h, hopen, hreceiver, Answer.ofExcept]
  · have hrefused : (b.perform (.send t v)).1 = .refused (.closed cause) := by
      simp [Switchboard.perform, h, Answer.ofExcept]
    rw [hrefused]
    constructor
    · intro hdone
      cases hdone
    · rintro ⟨hopen, hreceiver⟩
      rw [hclosed hopen] at hreceiver
      cases hreceiver

/-- The sends of a ledger are signed by senders of their channels. -/
def Signed (L : Ledger) (b : Switchboard) : Prop :=
  ∀ e ∈ L, ∀ t v, e.sent = some (t, v) → t < b.senders.size ∧ (b.sender t).channel = e.channel

theorem sent_eq_some {e : Entry} {t : Nat} {v : Int} (h : e.sent = some (t, v)) :
    e.use = .send t v ∧ e.answer = .done := by
  unfold Entry.sent at h
  split at h
  · cases h
    exact ⟨rfl, rfl⟩
  · cases h

theorem Signed.perform (h : Signed L b) (u : Use) :
    Signed (L ++ [b.entry u]) (b.perform u).2 := by
  intro e he t v hsent
  have hthen : t < b.senders.size ∧ (b.sender t).channel = e.channel := by
    rcases List.mem_append.mp he with hold | hnew
    · exact h e hold t v hsent
    · obtain rfl := List.mem_singleton.mp hnew
      obtain ⟨huse, hdone⟩ := sent_eq_some hsent
      obtain rfl : u = .send t v := huse
      exact ⟨lt_size_of_isOpen ((b.perform_send_eq_done t v).mp hdone).1, rfl⟩
  obtain ⟨hlt, hchannel⟩ := b.sender_perform u hthen.1
  exact ⟨hlt, hchannel.trans hthen.2⟩

theorem signed_record (us : List Use) : Signed (record us).1 (record us).2 := by
  induction us using List.reverseRecOn with
  | nil => intro e he; cases he
  | append_singleton us u ih =>
    rw [record_concat]
    exact ih.perform u

/-- All that a sender sent was accepted by its channel, in the same order. -/
theorem Signed.sends_of_sender (h : Signed L b) (t : Nat) :
    (accepted (b.sender t).channel L).filter (·.1 = t) = L.sends.filter (·.1 = t) := by
  induction L with
  | nil => rfl
  | cons e L ih =>
    have hrest := ih fun e' he' => h e' (List.mem_cons_of_mem _ he')
    have haccepted : accepted (b.sender t).channel (e :: L) =
        (if e.channel = (b.sender t).channel then e.sent.toList else []) ++
          accepted (b.sender t).channel L := by
      rw [← accepted_singleton, ← accepted_append]
      rfl
    have hsends : sends (e :: L) = e.sent.toList ++ sends L := by
      cases hs : e.sent <;> simp [sends, hs]
    rw [haccepted, hsends, List.filter_append, List.filter_append, hrest]
    congr 1
    split
    · rfl
    · next hc =>
      -- a send to another channel is by another sender
      cases hs : e.sent with
      | none => rfl
      | some s =>
        have hother : s.1 ≠ t := fun hst =>
          hc (by rw [← hst]; exact (h e List.mem_cons_self s.1 s.2 hs).2.symm)
        simp [hother]

/-- A use that fails changes nothing. -/
theorem perform_refused (b : Switchboard) {u : Use} {cause : PortError}
    (h : (b.perform u).1 = .refused cause) : (b.perform u).2 = b := by
  cases u with
  | openChannel name => cases h
  | clone t =>
    rcases b.clone_cases t with hc | ⟨_, hc⟩
    · simp [Switchboard.perform, hc, Answer.ofExcept] at h
    · simp [Switchboard.perform, hc]
  | join t =>
    rcases b.join_cases t with hj | ⟨_, hj⟩
    · simp [Switchboard.perform, hj, Answer.ofExcept] at h
    · simp [Switchboard.perform, hj]
  | send t v =>
    rcases b.send_cases t v with ⟨-, -, hs⟩ | ⟨_, hs, -⟩
    · simp [Switchboard.perform, hs, Answer.ofExcept] at h
    · simp [Switchboard.perform, hs]
  | closeSender t => cases h
  | receive c =>
    rcases b.receive_or_refused c with ⟨_, _, -, -, hr⟩ | ⟨_, hr⟩
    · simp [Switchboard.perform, hr, Answer.ofExcept] at h
    · simp [Switchboard.perform, hr]
  | drain c => cases h
  | closeReceiver c => cases h

/-- After any uses of any channels: while a receiver is open, what it was handed and what is queued
    are the values of all successful sends to its channel, in order, and so are each sender's own; a
    send succeeds if and only if its sender and its receiver are open; a use that fails changes
    nothing; and nothing is queued, accepted or handed out ever again once a receiver is closed. -/
theorem channels_lossless (us : List Use) :
    let L := (record us).1
    let b := (record us).2
    (∀ c, (b.channel c).receiverOpen = true →
      L.handedOut c ++ (b.channel c).queue = (L.accepted c).map Prod.snd) ∧
    (∀ c, L.handedOut c <+: (L.accepted c).map Prod.snd) ∧
    (∀ t, (L.accepted (b.sender t).channel).filter (·.1 = t) = L.sends.filter (·.1 = t)) ∧
    (∀ t v, (b.perform (.send t v)).1 = .done ↔
      (b.sender t).isOpen = true ∧ (b.channel (b.sender t).channel).receiverOpen = true) ∧
    (∀ u cause, (b.perform u).1 = .refused cause → (b.perform u).2 = b) ∧
    ∀ c < b.channels.size, (b.channel c).receiverOpen = false → ∀ vs,
      let L' := (record (us ++ vs)).1
      let b' := (record (us ++ vs)).2
      (b'.channel c).receiverOpen = false ∧ (b'.channel c).queue = [] ∧
        L'.accepted c = L.accepted c ∧ L'.handedOut c = L.handedOut c := by
  intro L b
  refine ⟨fun c => (inOrder_record us c).in_order, fun c => (inOrder_record us c).handedOut_le,
    (signed_record us).sends_of_sender, b.perform_send_eq_done, fun u cause => b.perform_refused,
    fun c hc hclosed vs => ?_⟩
  have hover : Over b c := ⟨hc, hclosed, (inOrder_record us c).closed hclosed⟩
  obtain ⟨hlater, hins, houts⟩ := hover.record vs
  exact ⟨hlater.closed, hlater.queue, hins, houts⟩

end Switchboard

end TapeNet
