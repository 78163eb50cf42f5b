import TapeNet.Port

/-! # The switchboard

    A switchboard holds channels: unbounded first-in-first-out queues, each
    with one receiver and any number of senders.

    - `send` never waits, and fails once the receiver is closed.
    - `receive` hands out queued values even when all senders are closed,
      and fails when nothing is queued and nothing can be sent any more. It
      `blocks` when nothing is queued but some sender is open.
    - Closing an endpoint is the only signal of shutdown. A channel counts
      its open senders, and a closed receiver drops what was queued.

    Channels and senders are named by their numbers, in the order of their
    creation. A number that was never given out stands for an endpoint that
    is closed.
-/

namespace TapeNet

structure Channel where
  name : String
  /-- what was sent and not yet received, the oldest value first -/
  queue : List Int
  /-- the number of its senders that are open -/
  openSenders : Nat
  receiverOpen : Bool
deriving DecidableEq, Repr

/-- A channel with nobody at either end. -/
def Channel.gone : Channel := ⟨"", [], 0, false⟩

structure Sender where
  /-- the channel that it sends to -/
  channel : Nat
  isOpen : Bool
deriving DecidableEq, Repr

/-- A sender that sends nowhere. -/
def Sender.gone : Sender := ⟨0, false⟩

structure Switchboard where
  channels : Array Channel
  senders : Array Sender
deriving DecidableEq, Repr

namespace Switchboard

def empty : Switchboard := ⟨#[], #[]⟩

def channel (b : Switchboard) (c : Nat) : Channel := b.channels.getD c .gone

def sender (b : Switchboard) (s : Nat) : Sender := b.senders.getD s .gone

/-- The name of the channel that a sender belongs to. -/
def nameOf (b : Switchboard) (s : Nat) : String := (b.channel (b.sender s).channel).name

def onChannel (b : Switchboard) (c : Nat) (f : Channel → Channel) : Switchboard :=
  { b with channels := b.channels.modify c f }

def onSender (b : Switchboard) (s : Nat) (f : Sender → Sender) : Switchboard :=
  { b with senders := b.senders.modify s f }

@[simp] theorem sender_onChannel (b : Switchboard) (c : Nat) (f : Channel → Channel)
    (s : Nat) : (b.onChannel c f).sender s = b.sender s := rfl

@[simp] theorem channel_onSender (b : Switchboard) (s : Nat) (f : Sender → Sender)
    (c : Nat) : (b.onSender s f).channel c = b.channel c := rfl

theorem channel_onChannel (b : Switchboard) (c d : Nat) (f : Channel → Channel) :
    (b.onChannel c f).channel d =
      if d = c ∧ c < b.channels.size then f (b.channel c) else b.channel d := by
  simp only [channel, onChannel, Array.getD_eq_getD_getElem?, Array.getElem?_modify]
  by_cases hd : c = d
  · subst hd
    by_cases hc : c < b.channels.size
    · simp [hc]
    · simp [hc]
  · simp [hd, Ne.symm hd]

theorem sender_onSender (b : Switchboard) (s t : Nat) (f : Sender → Sender) :
    (b.onSender s f).sender t =
      if t = s ∧ s < b.senders.size then f (b.sender s) else b.sender t := by
  simp only [sender, onSender, Array.getD_eq_getD_getElem?, Array.getElem?_modify]
  by_cases ht : s = t
  · subst ht
    by_cases hs : s < b.senders.size
    · simp [hs]
    · simp [hs]
  · simp [ht, Ne.symm ht]

/-! ### Opening -/

/-- A new channel with one sender; the answer is the sender and the channel. -/
def openChannel (b : Switchboard) (name : String) : (Nat × Nat) × Switchboard :=
  ((b.senders.size, b.channels.size),
    { channels := b.channels.push ⟨name, [], 1, true⟩
      senders := b.senders.push ⟨b.channels.size, true⟩ })

/-- One more sender for the channel of an open sender. -/
def clone (b : Switchboard) (s : Nat) : Except PortError Nat × Switchboard :=
  if (b.sender s).isOpen then
    let c := (b.sender s).channel
    (.ok b.senders.size,
      { channels := b.channels.modify c fun ch => { ch with openSenders := ch.openSenders + 1 }
        senders := b.senders.push ⟨c, true⟩ })
  else
    (.error (.closed (.cloneOfClosed (b.nameOf s))), b)

/-! ### Sending and receiving -/

def send (b : Switchboard) (s : Nat) (v : Int) : Reply × Switchboard :=
  let c := (b.sender s).channel
  if !(b.sender s).isOpen then
    (.error (.closed (.senderClosed (b.nameOf s))), b)
  else if !(b.channel c).receiverOpen then
    (.error (.closed (.receiverGone (b.nameOf s))), b)
  else
    (.ok 0, b.onChannel c fun ch => { ch with queue := ch.queue ++ [v] })

/-- Whether a receiver would have to wait. -/
def waits (b : Switchboard) (c : Nat) : Bool :=
  (b.channel c).receiverOpen && (b.channel c).queue.isEmpty && (b.channel c).openSenders != 0

def receive (b : Switchboard) (c : Nat) : Reply × Switchboard :=
  match (b.channel c).receiverOpen, (b.channel c).queue with
  | true, v :: _ => (.ok v, b.onChannel c fun ch => { ch with queue := ch.queue.tail })
  | _, _ =>
    if b.waits c then
      (.error .wouldBlock, b)
    else
      (.error (.closed (.ended (b.channel c).name)), b)

/-- Takes all that is queued. -/
def drain (b : Switchboard) (c : Nat) : List Int × Switchboard :=
  ((b.channel c).queue, b.onChannel c fun ch => { ch with queue := [] })

/-- Receives until the channel ends. -/
def collect (b : Switchboard) (c : Nat) : Except PortError (List Int) × Switchboard :=
  let (vs, b) := b.drain c
  if b.waits c then (.error .wouldBlock, b) else (.ok vs, b)

/-- Sends values in turn, up to the first that is refused. -/
def sendAll (b : Switchboard) (s : Nat) : List Int → Reply × Switchboard
  | [] => (.ok 0, b)
  | v :: vs =>
    match b.send s v with
    | (.ok _, b) => b.sendAll s vs
    | (.error e, b) => (.error e, b)

/-- Receives a number of values; a refusal loses those received before. -/
def receiveMany (b : Switchboard) (c : Nat) :
    Nat → Except PortError (List Int) × Switchboard
  | 0 => (.ok [], b)
  | n + 1 =>
    match b.receive c with
    | (.error e, b) => (.error e, b)
    | (.ok v, b) =>
      let (rest, b) := b.receiveMany c n
      (rest.map (v :: ·), b)

/-! ### Closing -/

def closeSender (b : Switchboard) (s : Nat) : Switchboard :=
  if (b.sender s).isOpen then
    let c := (b.sender s).channel
    (b.onSender s fun e => { e with isOpen := false }).onChannel c fun ch =>
      { ch with openSenders := ch.openSenders - 1 }
  else
    b

/-- Closes a receiver; what was queued is dropped. -/
def closeReceiver (b : Switchboard) (c : Nat) : Switchboard :=
  b.onChannel c fun ch => { ch with queue := [], receiverOpen := false }

end Switchboard

/-! ### Requests -/

/-- One atomic use of a switchboard. -/
inductive Request
  /-- a step that leaves the switchboard alone -/
  | pause
  | send (sender : Nat) (value : Int)
  | receive (channel : Nat)
  | closeSender (sender : Nat)
  | closeReceiver (channel : Nat)
deriving DecidableEq, Repr

namespace Switchboard

/-- Whether a request has to wait. -/
def blocks (b : Switchboard) : Request → Bool
  | .receive c => b.waits c
  | _ => false

/-- Serves a request; one that would have to wait is refused. -/
def serve (b : Switchboard) : Request → Reply × Switchboard
  | .pause => (.ok 0, b)
  | .send s v => b.send s v
  | .receive c => b.receive c
  | .closeSender s => (.ok 0, b.closeSender s)
  | .closeReceiver c => (.ok 0, b.closeReceiver c)

end Switchboard

/-! ### Ports on channels -/

/-- The endpoints that a port uses; a missing one behaves like a closed one. -/
structure Link where
  /-- the channel to read from -/
  inbound : Option Nat
  /-- the sender to write with -/
  outbound : Option Nat
deriving DecidableEq, Repr

namespace Link

def get (l : Link) (b : Switchboard) : Reply × Switchboard :=
  match l.inbound with
  | none => (.error (.closed .noInbound), b)
  | some c => b.receive c

def put (l : Link) (v : Int) (b : Switchboard) : Reply × Switchboard :=
  match l.outbound with
  | none => (.error (.closed .noOutbound), b)
  | some s => b.send s v

def close (l : Link) (b : Switchboard) : Switchboard :=
  let b := match l.inbound with
    | none => b
    | some c => b.closeReceiver c
  match l.outbound with
  | none => b
  | some s => b.closeSender s

def port (l : Link) : Port Switchboard := ⟨l.get, l.put, l.close⟩

end Link

end TapeNet
