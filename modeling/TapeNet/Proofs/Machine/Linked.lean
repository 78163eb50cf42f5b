import TapeNet.Proofs.Machine.Flow
import TapeNet.Proofs.Machine.Lockstep
import TapeNet.Proofs.Machine.Atomicity

/-! # Buffers and channels

    A machine on a buffer and the same machine on two channels do the same,
    if the inputs wait on the first channel and nobody can send to it any
    more, and the second channel stays open for the outputs.

    - `Switchboard.rig`: two new channels, prepared like this.
    - `Rig.Mirrors r b w`: the channels of the rig hold on `w` what the buffer
      `b` holds. Gets and puts keep this (`Mirrors.answer`).
    - `onChannel name`: where inputs that are used up appear as the end of a
      channel. Nothing else is different.
    - `buffer_agrees_with_channels`: every step and the end of every run.
-/

namespace TapeNet

/-! ### Refusals -/

/-- A refusal as a channel has it: inputs that are used up are the end of the channel. -/
def PortError.onChannel (name : String) : PortError → PortError
  | .exhausted => .closed (.ended name)
  | cause => cause

/-- An outcome as it is on a channel. -/
def Outcome.onChannel (name : String) : Outcome → Outcome
  | .stopped cause => .stopped (cause.onChannel name)
  | o => o

theorem Outcome.onChannel_eq_continued {name : String} (o : Outcome) :
    o.onChannel name = .continued ↔ o = .continued := by
  cases o with
  | stopped cause => simp [onChannel]
  | _ => rfl

/-! ### Rigs -/

/-- A port on two channels. -/
structure Rig where
  /-- the channel that the port reads from, and its name -/
  inbox : Nat
  inName : String
  /-- the sender that the port writes with, its channel and the name of that -/
  outlet : Nat
  outbox : Nat
  outName : String

namespace Rig

def link (r : Rig) : Link := ⟨some r.inbox, some r.outlet⟩

/-- The rig's channels hold what a buffer holds. What is left of the inputs is queued where nobody
    can send any more, and the outputs are queued where nobody has received any. -/
structure Mirrors (r : Rig) (b : Buffer) (w : Switchboard) : Prop where
  inbox : w.channel r.inbox = ⟨r.inName, b.inputs, 0, true⟩
  outlet : w.sender r.outlet = ⟨r.outbox, true⟩
  outbox : w.channel r.outbox = ⟨r.outName, b.outputs.toList, 1, true⟩
  apart : r.outbox ≠ r.inbox

end Rig

/-- Two new channels: one that was sent the inputs and lost its only sender, and one for the
    outputs. -/
def Switchboard.rig (w : Switchboard) (inName outName : String) (inputs : List Int) :
    Rig × Switchboard :=
  let ((source, inbox), w) := w.openChannel inName
  let ((outlet, outbox), w) := w.openChannel outName
  let (_, w) := w.sendAll source inputs
  (⟨inbox, inName, outlet, outbox, outName⟩, w.closeSender source)

namespace Rig

open Switchboard

variable {r : Rig} {b : Buffer} {w : Switchboard}

/-- The board once a lone sender has sent all its values and is closed. -/
theorem closeSender_sendAll {t c : Nat} {name : String} (ht : w.sender t = ⟨c, true⟩)
    (hc : w.channel c = ⟨name, [], 1, true⟩) (vs : List Int) :
    (∀ d, ((w.sendAll t vs).2.closeSender t).channel d =
      if d = c then ⟨name, vs, 0, true⟩ else w.channel d) ∧
    ∀ u, u ≠ t → ((w.sendAll t vs).2.closeSender t).sender u = w.sender u := by
  have hsent : w.sendAll t vs = (.ok 0, w.enqueue c vs) := by
    have h := sendAll_eq_enqueue (b := w) (t := t) (by rw [ht]) (by rw [ht, hc]) vs
    rwa [ht] at h
  have hlt : c < w.channels.size := lt_size_of_receiverOpen (by rw [hc])
  have hsender : (w.enqueue c vs).sender t = ⟨c, true⟩ := ht
  have hqueued : (w.enqueue c vs).channel c = ⟨name, vs, 1, true⟩ := by
    rw [channel_enqueue, if_pos ⟨rfl, hlt⟩, hc]
    rfl
  rw [hsent]
  constructor
  · intro d
    rw [channel_closeSender_of_isOpen (by rw [hsender]), hsender, hqueued]
    by_cases hd : d = c
    · subst hd
      rw [if_pos rfl, if_pos ⟨rfl, lt_size_of_receiverOpen (by rw [hqueued])⟩]
      rfl
    · rw [if_neg (fun h => hd h.1), if_neg hd, channel_enqueue, if_neg (fun h => hd h.1)]
  · intro u hu
    rw [sender_closeSender, if_neg hu]
    rfl

/-- A new rig holds the inputs and no outputs. -/
theorem mirrors_rig (w : Switchboard) (inName outName : String) (inputs : List Int) :
    (w.rig inName outName inputs).1.Mirrors (.ofInputs inputs) (w.rig inName outName inputs).2 := by
  let w₂ := ((w.openChannel inName).2.openChannel outName).2
  have hinbox : w₂.channel w.channels.size = ⟨inName, [], 1, true⟩ := by
    simp [w₂, channel_openChannel]
  have hsource : w₂.sender w.senders.size = ⟨w.channels.size, true⟩ := by
    simp [w₂, sender_openChannel]
  have houtbox : w₂.channel (w.openChannel inName).2.channels.size = ⟨outName, [], 1, true⟩ := by
    simp [w₂, channel_openChannel]
  have houtlet : w₂.sender (w.openChannel inName).2.senders.size =
      ⟨(w.openChannel inName).2.channels.size, true⟩ := by
    simp [w₂, sender_openChannel]
  have happart : (w.openChannel inName).2.channels.size ≠ w.channels.size := by simp
  have hother : (w.openChannel inName).2.senders.size ≠ w.senders.size := by simp
  -- the inputs go to the first channel, and the second one and its sender are left alone
  obtain ⟨hchannel, hsender⟩ := closeSender_sendAll hsource hinbox inputs
  constructor
  · exact (hchannel _).trans (if_pos rfl)
  · exact (hsender _ hother).trans houtlet
  · exact ((hchannel _).trans (if_neg happart)).trans houtbox
  · exact happart

/-! ### Gets and puts -/

/-- The next input of the buffer is the oldest value of the channel. -/
theorem Mirrors.receive {v : Int} {rest : List Int} (h : r.Mirrors b w)
    (hinputs : b.inputs = v :: rest) :
    w.receive r.inbox = (.ok v, w.dequeue r.inbox) ∧
      r.Mirrors ⟨rest, b.outputs⟩ (w.dequeue r.inbox) := by
  have hlt : r.inbox < w.channels.size := lt_size_of_receiverOpen (by rw [h.inbox])
  constructor
  · simp [Switchboard.receive, h.inbox, hinputs, dequeue]
  · constructor
    · rw [channel_dequeue, if_pos ⟨rfl, hlt⟩, h.inbox, hinputs]
      rfl
    · exact h.outlet
    · rw [channel_dequeue, if_neg (fun hc => h.apart hc.1)]
      exact h.outbox
    · exact h.apart

/-- Where the buffer has no inputs left, the channel has ended. -/
theorem Mirrors.receive_end (h : r.Mirrors b w) (hinputs : b.inputs = []) :
    w.receive r.inbox = (.error (.closed (.ended r.inName)), w) := by
  simp [Switchboard.receive, waits, h.inbox, hinputs]

/-- What the buffer collects is queued on the other channel. -/
theorem Mirrors.send (h : r.Mirrors b w) (v : Int) :
    w.send r.outlet v = (.ok 0, w.enqueue r.outbox [v]) ∧
      r.Mirrors ⟨b.inputs, b.outputs.push v⟩ (w.enqueue r.outbox [v]) := by
  have hlt : r.outbox < w.channels.size := lt_size_of_receiverOpen (by rw [h.outbox])
  constructor
  · simp [Switchboard.send, h.outlet, h.outbox, enqueue]
  · constructor
    · rw [channel_enqueue, if_neg (fun hc => h.apart hc.1.symm)]
      exact h.inbox
    · exact h.outlet
    · rw [channel_enqueue, if_pos ⟨rfl, hlt⟩, h.outbox]
      simp
    · exact h.apart

/-- Whatever is demanded, the rig replies as the buffer does, and goes on as it does. -/
theorem Mirrors.answer (h : r.Mirrors b w) (d : Demand) :
    (r.link.port.answer d w).1 =
        (Buffer.port.answer d b).1.mapError (PortError.onChannel r.inName) ∧
      r.Mirrors (Buffer.port.answer d b).2 (r.link.port.answer d w).2 := by
  obtain ⟨inputs, outputs⟩ := b
  cases d with
  | silent => exact ⟨rfl, h⟩
  | put v =>
    obtain ⟨hsend, hnext⟩ := h.send v
    show (w.send r.outlet v).1 = _ ∧ r.Mirrors _ (w.send r.outlet v).2
    rw [hsend]
    exact ⟨rfl, hnext⟩
  | get =>
    show (w.receive r.inbox).1 = _ ∧ r.Mirrors _ (w.receive r.inbox).2
    cases inputs with
    | nil =>
      rw [h.receive_end rfl]
      exact ⟨rfl, h⟩
    | cons v rest =>
      obtain ⟨hreceive, hnext⟩ := h.receive rfl
      rw [hreceive]
      exact ⟨rfl, hnext⟩

/-! ### The end -/

/-- Once the port is closed, all outputs can be collected, and then the channel ends. -/
theorem Mirrors.collect_close (h : r.Mirrors b w) :
    ∃ w', (r.link.port.close w).collect r.outbox = (.ok b.outputs.toList, w') ∧
      w'.receive r.outbox = (.error (.closed (.ended r.outName)), w') := by
  have hclosed : (r.link.port.close w).channel r.outbox =
      ⟨r.outName, b.outputs.toList, 0, true⟩ := by
    show ((w.closeReceiver r.inbox).closeSender r.outlet).channel r.outbox = _
    have houtlet : (w.closeReceiver r.inbox).sender r.outlet = ⟨r.outbox, true⟩ := h.outlet
    have houtbox : (w.closeReceiver r.inbox).channel r.outbox =
        ⟨r.outName, b.outputs.toList, 1, true⟩ := by
      rw [channel_closeReceiver, if_neg (fun hc => h.apart hc.1)]
      exact h.outbox
    have hlt : r.outbox < (w.closeReceiver r.inbox).channels.size :=
      lt_size_of_receiverOpen (by rw [houtbox])
    rw [channel_closeSender_of_isOpen (by rw [houtlet]), houtlet, if_pos ⟨rfl, hlt⟩, houtbox]
    rfl
  have hlt : r.outbox < (r.link.port.close w).channels.size :=
    lt_size_of_receiverOpen (by rw [hclosed])
  -- what was queued is still there after the closing, and is taken now
  let w' := (r.link.port.close w).onChannel r.outbox fun ch => { ch with queue := [] }
  have hdrained : w'.channel r.outbox = ⟨r.outName, [], 0, true⟩ := by
    rw [channel_onChannel, if_pos ⟨rfl, hlt⟩, hclosed]
  have hwaits : w'.waits r.outbox = false := by simp [waits, hdrained]
  refine ⟨w', ?_, ?_⟩
  · unfold collect
    show (if w'.waits r.outbox = true then _ else _) = _
    rw [hwaits]
    show (Except.ok ((r.link.port.close w).channel r.outbox).queue, w') = _
    rw [hclosed]
  · simp [Switchboard.receive, hwaits, hdrained]

end Rig

/-! ### Steps -/

namespace Machine

/-- A machine that hears of the end of a channel does what it does under the policy to stop when the
    inputs are used up. -/
theorem resume_onChannel {m : Machine} (hm : m.config.haltOnExhaustedInput = true) (c : Config)
    (name : String) {reply : Reply}
    (hreply : (∃ v, reply = .ok v) ∨ (m.demand = .get ∧ reply = .error .exhausted)) :
    (m.withConfig c).resume (reply.mapError (PortError.onChannel name)) =
      ((m.resume reply).1.onChannel name, (m.resume reply).2.withConfig c) := by
  rcases hreply with ⟨v, rfl⟩ | ⟨hget, rfl⟩
  · -- without a refusal the machine is not stopped, and the policy does not matter
    have hkept : (m.resume (.ok v)).1.onChannel name = (m.resume (.ok v)).1 := by
      rcases hresume : m.resume (.ok v) with ⟨o, m'⟩
      cases o with
      | stopped cause =>
        obtain ⟨-, -, hrefused⟩ := resume_stopped hresume
        cases hrefused
      | _ => rfl
    rw [hkept]
    exact resume_withConfig m c v
  · have hasks : (m.withConfig c).demand ≠ .silent := by
      rw [demand_withConfig, hget]
      exact Demand.noConfusion
    rw [resume_exhausted hget, if_pos hm]
    exact resume_closed hasks (.ended name)

/-- A machine on a buffer that stops when the inputs are used up, and the machine on a rig. -/
structure Linked (r : Rig) (c : Config) (q : Machine × Buffer) (q' : Machine × Switchboard) :
    Prop where
  policy : q.1.config.haltOnExhaustedInput = true
  machine : q'.1 = q.1.withConfig c
  port : r.Mirrors q.2 q'.2

theorem lockstep_linked (r : Rig) (c : Config) :
    Lockstep Buffer.port r.link.port (Outcome.onChannel r.inName) (Linked r c) := by
  rintro ⟨m, b⟩ ⟨m', w⟩ ⟨hpolicy, rfl, hport⟩
  -- the buffer gives a value unless it has none left
  have hreply : (∃ v, (Buffer.port.answer m.demand b).1 = .ok v) ∨
      (m.demand = .get ∧ (Buffer.port.answer m.demand b).1 = .error .exhausted) := by
    rcases answer_buffer m.demand b with ⟨v, _, -, -, ha⟩ | ⟨hget, -, ha⟩
    · exact .inl ⟨v, by rw [ha]⟩
    · exact .inr ⟨hget, by rw [ha]⟩
  obtain ⟨hheard, hnext⟩ := hport.answer m.demand
  have hstep : (m.withConfig c).step r.link.port w =
      ((m.resume (Buffer.port.answer m.demand b).1).1.onChannel r.inName,
        (m.resume (Buffer.port.answer m.demand b).1).2.withConfig c,
        (r.link.port.answer m.demand w).2) := by
    rw [step_eq, demand_withConfig, hheard, resume_onChannel hpolicy c r.inName hreply]
  have hkept : (afterStep Buffer.port (m, b)).1.config.haltOnExhaustedInput = true := by
    rw [config_afterStep]
    exact hpolicy
  have hafter : afterStep r.link.port (m.withConfig c, w) =
      ((afterStep Buffer.port (m, b)).1.withConfig c, (r.link.port.answer m.demand w).2) := by
    rw [afterStep, hstep]
    rfl
  refine ⟨?_, hkept, ?_, ?_⟩
  · rw [outcome, hstep]
    rfl
  · rw [hafter]
  · rw [hafter]
    exact hnext

/-- A machine that stops when its inputs are used up does on a buffer what it does, under any name
    and policy, on two channels of which the first one was sent the inputs and lost its only sender.
    After any number of steps the machines are the same but for their configuration, the outputs
    are queued on the second channel, and the next step comes to the same, where the end of the
    inputs is the end of the channel. Runs are equally long; after one that stopped, the second
    channel yields all the outputs and then ends. -/
theorem buffer_agrees_with_channels (w : Switchboard) (inName outName name : String) (c : Config)
    (program inputs : List Int) :
    let r := (w.rig inName outName inputs).1
    let start := (load ⟨name, true⟩ program, Buffer.ofInputs inputs)
    let start' := (load c program, (w.rig inName outName inputs).2)
    (∀ n,
      let q := afterSteps Buffer.port n start
      let q' := afterSteps r.link.port n start'
      q'.1 = q.1.withConfig c ∧ (q'.2.channel r.outbox).queue = q.2.outputs.toList ∧
        outcome r.link.port q' = (outcome Buffer.port q).onChannel inName) ∧
    ∀ fuel, Option.Rel
      (fun (o, m, b) (o', m', w') => o' = o.onChannel inName ∧ m' = m.withConfig c ∧
        ∃ w'', w'.collect r.outbox = (.ok b.outputs.toList, w'') ∧
          w''.receive r.outbox = (.error (.closed (.ended outName)), w''))
      (start.1.run Buffer.port fuel start.2) (start'.1.run r.link.port fuel start'.2) := by
  intro r start start'
  have hstart : Linked r c start start' := ⟨rfl, rfl, Rig.mirrors_rig w inName outName inputs⟩
  constructor
  · intro n q q'
    obtain ⟨h, houtcome⟩ := (lockstep_linked r c).afterSteps hstart n
    refine ⟨h.machine, ?_, houtcome⟩
    rw [h.port.outbox]
  · intro fuel
    refine (lockstep_linked r c).run Outcome.onChannel_eq_continued ?_ hstart fuel
    -- a buffer is as it was when it is closed
    intro o q q' h
    exact ⟨rfl, h.machine, h.port.collect_close⟩

end Machine

end TapeNet
