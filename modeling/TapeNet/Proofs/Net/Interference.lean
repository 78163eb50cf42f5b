import TapeNet.Proofs.Net.Closing
import TapeNet.Proofs.Net.Tidy

/-! # Processes amid others

    A process need not be alone with its switchboard, nor amid well-behaved
    workers. Here the others may use the switchboard in any way and at any
    moment, the endpoints of the process included.

    - `Answers`: a request is served, or a receive is broken off.
    - `Amid p₀ b₀ L p b`: a process and a switchboard get from `p₀` and `b₀`
      to `p` and `b` by the moments `L`, of which some belong to the process
      and some to others. What the process asked and heard are its
      `exchanges`, and these are a story (`Amid.story`); what the others did
      is the `interference`.
    - Whatever the others do, a tenant closes what it held
      (`Amid.sender_closed`, `Amid.receiver_closed`), and each sender only
      once: `Amid.lowered_eq` counts how often a channel has lost a sender to
      the process itself.
-/

namespace TapeNet

open Switchboard Process Tenant

/-! ### What a use does to an endpoint -/

namespace Switchboard

/-- A sender that exists is closed only by a use that says so. -/
theorem isOpen_perform (b : Switchboard) (u : Use) {t : Nat} (ht : t < b.senders.size) :
    ((b.perform u).2.sender t).isOpen = true ↔
      (b.sender t).isOpen = true ∧ u ≠ .closeSender t := by
  have hold : t ≠ b.senders.size := Nat.ne_of_lt ht
  have hjoined : ∀ c, (b.withSender c).sender t = b.sender t := by
    intro c
    rw [sender_withSender, if_neg hold]
  cases u with
  | openChannel name =>
    show ((b.openChannel name).2.sender t).isOpen = true ↔ _
    rw [sender_openChannel, if_neg hold]
    simp
  | clone s =>
    show ((b.clone s).2.sender t).isOpen = true ↔ _
    rcases b.clone_cases s with h | ⟨_, h⟩
    · simp [h, hjoined]
    · simp [h]
  | join s =>
    show ((b.join s).2.sender t).isOpen = true ↔ _
    rcases b.join_cases s with h | ⟨_, h⟩
    · simp [h, hjoined]
    · simp [h]
  | send s v =>
    show ((b.send s v).2.sender t).isOpen = true ↔ _
    rcases b.send_cases s v with ⟨-, -, h⟩ | ⟨_, h, -⟩
    · simp [h, enqueue]
    · simp [h]
  | closeSender s =>
    show ((b.closeSender s).sender t).isOpen = true ↔ _
    rw [sender_closeSender]
    by_cases hs : t = s
    · simp [hs]
    · simp [hs, Ne.symm hs]
  | receive c =>
    show ((b.receive c).2.sender t).isOpen = true ↔ _
    rcases b.receive_or_refused c with ⟨_, _, -, -, h⟩ | ⟨_, h⟩
    · simp [h, dequeue]
    · simp [h]
  | drain c => simp [perform, drain]
  | closeReceiver c => simp [perform, closeReceiver]

/-- A receiver that exists is closed only by a use that says so. -/
theorem receiverOpen_perform (b : Switchboard) (u : Use) {c : Nat} (hc : c < b.channels.size) :
    ((b.perform u).2.channel c).receiverOpen = true ↔
      (b.channel c).receiverOpen = true ∧ u ≠ .closeReceiver c := by
  cases u with
  | openChannel name =>
    show ((b.openChannel name).2.channel c).receiverOpen = true ↔ _
    rw [channel_openChannel, if_neg (Nat.ne_of_lt hc)]
    simp
  | clone t =>
    show ((b.clone t).2.channel c).receiverOpen = true ↔ _
    rcases b.clone_cases t with h | ⟨_, h⟩
    · simp [h, (b.withSender_moves_nothing _ c).2]
    · simp [h]
  | join t =>
    show ((b.join t).2.channel c).receiverOpen = true ↔ _
    rcases b.join_cases t with h | ⟨_, h⟩
    · simp [h, (b.withSender_moves_nothing _ c).2]
    · simp [h]
  | send t v =>
    show ((b.send t v).2.channel c).receiverOpen = true ↔ _
    rcases b.send_cases t v with ⟨-, -, h⟩ | ⟨_, h, -⟩
    · rw [h, channel_enqueue]
      split
      · next hand => simp [hand.1]
      · simp
    · simp [h]
  | closeSender t =>
    show ((b.closeSender t).channel c).receiverOpen = true ↔ _
    rw [(b.channel_closeSender t c).2]
    simp
  | receive d =>
    show ((b.receive d).2.channel c).receiverOpen = true ↔ _
    rcases b.receive_or_refused d with ⟨_, _, -, -, h⟩ | ⟨_, h⟩
    · rw [h, channel_dequeue]
      split
      · next hand => simp [hand.1]
      · simp
    · simp [h]
  | drain d =>
    show ((b.drain d).2.channel c).receiverOpen = true ↔ _
    rw [drain, channel_onChannel]
    split
    · next hand => simp [hand.1]
    · simp
  | closeReceiver d =>
    show ((b.closeReceiver d).channel c).receiverOpen = true ↔ _
    by_cases hd : c = d
    · simp [hd, receiverOpen_closeReceiver_self]
    · simp [channel_closeReceiver, hd, Ne.symm hd]

/-! ### Answers -/

/-- How a request may be answered. One that is to receive may be broken off, by whatever error,
    and then it has changed nothing. -/
inductive Answers (b : Switchboard) : Request → Reply → Switchboard → Prop
  | served (q : Request) : Answers b q (b.serve q).1 (b.serve q).2
  | brokenOff (c : Nat) (e : PortError) : Answers b (.receive c) (.error e) b

namespace Answers

variable {b b' : Switchboard} {q : Request} {reply : Reply}

/-- A request is served without waiting, or it is a receive that gets an error. -/
theorem served_or_error (h : b.Answers q reply b') :
    (b.blocks q = false ∧ reply = (b.serve q).1 ∧ b' = (b.serve q).2) ∨
      ∃ c e, q = .receive c ∧ reply = .error e ∧ b' = b := by
  cases h with
  | brokenOff c e => exact .inr ⟨c, e, rfl, rfl, rfl⟩
  | served q =>
    cases hb : b.blocks q with
    | false => exact .inl ⟨rfl, rfl, rfl⟩
    | true =>
      -- only a receive can block, and it is refused then
      cases q with
      | receive c =>
        have hwaits := receive_of_waits hb
        exact .inr ⟨c, .wouldBlock, rfl, congrArg Prod.fst hwaits, congrArg Prod.snd hwaits⟩
      | _ => cases hb

/-- A request changes a sender only by closing it. -/
theorem sender (h : b.Answers q reply b') (t : Nat) :
    b'.sender t =
      if q = .closeSender t then { b.sender t with isOpen := false } else b.sender t := by
  rcases h.served_or_error with ⟨hb, -, rfl⟩ | ⟨c, e, rfl, -, rfl⟩
  · exact b.sender_serve hb t
  · simp

/-- A request closes a receiver only if it asks for it. -/
theorem receiverOpen (h : b.Answers q reply b') (c : Nat) :
    (b'.channel c).receiverOpen = true ↔
      (b.channel c).receiverOpen = true ∧ q ≠ .closeReceiver c := by
  rcases h.served_or_error with ⟨hb, -, rfl⟩ | ⟨d, e, rfl, -, rfl⟩
  · exact b.receiverOpen_serve hb c
  · simp

/-- An answered request was one of the uses, or it has done nothing. -/
theorem eq_or_perform (h : b.Answers q reply b') : b' = b ∨ ∃ u, b' = (b.perform u).2 := by
  cases h with
  | brokenOff c e => exact .inl rfl
  | served q =>
    cases q with
    | pause => exact .inl rfl
    | send t v => exact .inr ⟨.send t v, rfl⟩
    | receive c => exact .inr ⟨.receive c, rfl⟩
    | closeSender t => exact .inr ⟨.closeSender t, rfl⟩
    | closeReceiver c => exact .inr ⟨.closeReceiver c, rfl⟩

/-- A request changes nothing but the channels that it is about. -/
theorem channel_of_ne (h : b.Answers q reply b') {d : Nat}
    (hs : ∀ t, q.sender? = some t → (b.sender t).channel ≠ d) (hc : q.channel? ≠ some d) :
    b'.channel d = b.channel d := by
  cases h with
  | brokenOff c e => rfl
  | served q =>
    cases q with
    | pause => rfl
    | send t v =>
      have hd : d ≠ (b.sender t).channel := (hs t rfl).symm
      show (b.send t v).2.channel d = _
      rcases b.send_cases t v with ⟨-, -, h⟩ | ⟨_, h, -⟩
      · rw [h, channel_enqueue, if_neg fun hand => hd hand.1]
      · rw [h]
    | receive c =>
      have hd : d ≠ c := fun h => hc (congrArg some h.symm)
      show (b.receive c).2.channel d = _
      rcases b.receive_or_refused c with ⟨_, _, -, -, h⟩ | ⟨_, h⟩
      · rw [h, channel_dequeue, if_neg fun hand => hd hand.1]
      · rw [h]
    | closeSender t =>
      have hd : d ≠ (b.sender t).channel := (hs t rfl).symm
      show (b.closeSender t).channel d = _
      by_cases ho : (b.sender t).isOpen = true
      · rw [channel_closeSender_of_isOpen ho, if_neg fun hand => hd hand.1]
      · unfold closeSender
        rw [if_neg ho]
    | closeReceiver c =>
      have hd : d ≠ c := fun h => hc (congrArg some h.symm)
      show (b.closeReceiver c).channel d = _
      rw [channel_closeReceiver, if_neg fun hand => hd hand.1]

theorem staffed (h : b.Answers q reply b') (hb : b.Staffed) : b'.Staffed := by
  rcases h.eq_or_perform with rfl | ⟨u, rfl⟩
  · exact hb
  · exact hb.perform u

/-- Endpoints do not disappear. -/
theorem exists_channel (h : b.Answers q reply b') : b.channels.size ≤ b'.channels.size := by
  rcases h.eq_or_perform with rfl | ⟨u, rfl⟩
  · exact Nat.le_refl _
  · exact b.size_le_perform u

theorem exists_sender (h : b.Answers q reply b') {t : Nat} (ht : t < b.senders.size) :
    t < b'.senders.size := by
  rcases h.eq_or_perform with rfl | ⟨u, rfl⟩
  · exact ht
  · exact (b.sender_perform u ht).1

/-- Closing an open sender takes one from the count of its channel. -/
theorem openSenders_of_closeSender {d t : Nat} (h : b.Answers (.closeSender t) reply b')
    (hb : b.Staffed) (ht : t ∈ b.openOn d) :
    ((b.channel d).openSenders : Int) - (b'.channel d).openSenders = 1 := by
  have hpos : 0 < (b.openOn d).card := Finset.card_pos.mpr ⟨t, ht⟩
  have herase : b'.openOn d = (b.openOn d).erase t := by
    ext u
    rw [Finset.mem_erase, mem_openOn, mem_openOn, h.sender]
    by_cases hu : t = u
    · simp [hu]
    · simp [hu, Ne.symm hu]
  rw [hb.counted d, (h.staffed hb).counted d, herase, Finset.card_erase_of_mem ht]
  omega

/-- Nothing else changes a count. -/
theorem openSenders_of_forall_ne (h : b.Answers q reply b') (hb : b.Staffed) {d : Nat}
    (hq : ∀ t ∈ b.openOn d, q ≠ .closeSender t) :
    ((b.channel d).openSenders : Int) - (b'.channel d).openSenders = 0 := by
  have hsame : b'.openOn d = b.openOn d := by
    ext u
    rw [mem_openOn, mem_openOn, h.sender]
    split
    · next hclose =>
      -- a sender that is closed once more was not counted
      have hnot : u ∉ b.openOn d := fun hu => hq u hu hclose
      rw [mem_openOn] at hnot
      simpa using hnot
    · rfl
  rw [hb.counted d, (h.staffed hb).counted d, hsame]
  omega

end Answers

end Switchboard

namespace Process

variable {α : Type} [Process α]

/-! ### Moments -/

/-- What happens at a moment. -/
inductive Deed
  /-- the process makes a request and gets a reply -/
  | own (request : Request) (reply : Reply)
  | other (use : Use)

/-- A moment, with the switchboard before and after it. -/
structure Moment where
  deed : Deed
  before : Switchboard
  after : Switchboard

/-- What the process asked and heard at a moment, if it was its own. -/
def Moment.exchange (m : Moment) : Option (Request × Reply) :=
  match m.deed with
  | .own q reply => some (q, reply)
  | .other _ => none

/-- All that a process asked and heard. -/
def exchanges (L : List Moment) : History := L.filterMap Moment.exchange

/-- All that others did. -/
def interference (L : List Moment) : List Use :=
  L.filterMap fun m =>
    match m.deed with
    | .own _ _ => none
    | .other u => some u

/-- Whether others closed a sender that was open until then. -/
def takenAway (t : Nat) (L : List Moment) : Bool :=
  L.any fun m =>
    match m.deed with
    | .own _ _ => false
    | .other u => u = .closeSender t && (m.before.sender t).isOpen

/-- Whether it was the process that closed a sender: it was open at the start and is closed now, but
    not because of others. -/
def closedBySelf (b₀ b : Switchboard) (L : List Moment) (t : Nat) : Bool :=
  (b₀.sender t).isOpen && !takenAway t L && !(b.sender t).isOpen

/-- By how much a process itself has lowered the number of open senders of a channel. -/
def lowered (d : Nat) (L : List Moment) : Int :=
  L.foldl (fun n m =>
    match m.deed with
    | .own _ _ => n + (((m.before.channel d).openSenders : Int) - (m.after.channel d).openSenders)
    | .other _ => n) 0

/-- One more element is counted if one more fulfils the condition. -/
theorem countP_flip {l : List Nat} (hn : l.Nodup) {t : Nat} (ht : t ∈ l) {f g : Nat → Bool}
    (hf : f t = false) (hg : g t = true) (h : ∀ u, u ≠ t → g u = f u) :
    l.countP g = l.countP f + 1 := by
  obtain ⟨before, after, rfl⟩ := List.append_of_mem ht
  obtain ⟨-, hafter, hdisjoint⟩ := List.nodup_append.mp hn
  have hb : before.countP g = before.countP f := by
    apply List.countP_congr
    intro u hu
    rw [h u fun hut => hdisjoint u hu t List.mem_cons_self hut]
  have ha : after.countP g = after.countP f := by
    apply List.countP_congr
    intro u hu
    rw [h u fun hut => (List.nodup_cons.mp hafter).1 (hut ▸ hu)]
  simp only [List.countP_append, List.countP_cons, hf, hg, hb, ha, if_true]
  simp only [Bool.false_eq_true, if_false]
  omega

/-- A process amid others, from its start on. -/
inductive Amid (p₀ : α) (b₀ : Switchboard) : List Moment → α → Switchboard → Prop
  | start : Amid p₀ b₀ [] p₀ b₀
  | own {L : List Moment} {p : α} {b b' : Switchboard} {q : Request} {reply : Reply} :
      Amid p₀ b₀ L p b → request p = some q → b.Answers q reply b' →
        Amid p₀ b₀ (L ++ [⟨.own q reply, b, b'⟩]) (resume p reply) b'
  | other {L : List Moment} {p : α} {b : Switchboard} (u : Use) :
      Amid p₀ b₀ L p b → Amid p₀ b₀ (L ++ [⟨.other u, b, (b.perform u).2⟩]) p (b.perform u).2

@[simp] theorem exchanges_own (L : List Moment) (q : Request) (reply : Reply)
    (b b' : Switchboard) :
    exchanges (L ++ [⟨.own q reply, b, b'⟩]) = exchanges L ++ [(q, reply)] := by
  simp [exchanges, Moment.exchange]

@[simp] theorem exchanges_other (L : List Moment) (u : Use) (b b' : Switchboard) :
    exchanges (L ++ [⟨.other u, b, b'⟩]) = exchanges L := by
  simp [exchanges, Moment.exchange]

@[simp] theorem interference_own (L : List Moment) (q : Request) (reply : Reply)
    (b b' : Switchboard) : interference (L ++ [⟨.own q reply, b, b'⟩]) = interference L := by
  simp [interference]

@[simp] theorem interference_other (L : List Moment) (u : Use) (b b' : Switchboard) :
    interference (L ++ [⟨.other u, b, b'⟩]) = interference L ++ [u] := by
  simp [interference]

@[simp] theorem takenAway_own (t : Nat) (L : List Moment) (q : Request) (reply : Reply)
    (b b' : Switchboard) : takenAway t (L ++ [⟨.own q reply, b, b'⟩]) = takenAway t L := by
  simp [takenAway]

@[simp] theorem takenAway_other (t : Nat) (L : List Moment) (u : Use) (b b' : Switchboard) :
    takenAway t (L ++ [⟨.other u, b, b'⟩]) =
      (takenAway t L || u = .closeSender t && (b.sender t).isOpen) := by
  simp [takenAway]

@[simp] theorem lowered_own (d : Nat) (L : List Moment) (q : Request) (reply : Reply)
    (b b' : Switchboard) :
    lowered d (L ++ [⟨.own q reply, b, b'⟩]) =
      lowered d L + (((b.channel d).openSenders : Int) - (b'.channel d).openSenders) := by
  simp [lowered]

@[simp] theorem lowered_other (d : Nat) (L : List Moment) (u : Use) (b b' : Switchboard) :
    lowered d (L ++ [⟨.other u, b, b'⟩]) = lowered d L := by
  simp [lowered]

/-! ### Schedules -/

/-- What a schedule makes of a process amid others: at each turn, the process goes on or others use
    the switchboard. A process that has finished lets its turns pass. -/
def mingle (p : α) (b : Switchboard) : List (Option Use) → List Moment × α × Switchboard
  | [] => ([], p, b)
  | some u :: turns =>
    let after := mingle p (b.perform u).2 turns
    (⟨.other u, b, (b.perform u).2⟩ :: after.1, after.2)
  | none :: turns =>
    match request p with
    | none => mingle p b turns
    | some q =>
      let after := mingle (resume p (b.serve q).1) (b.serve q).2 turns
      (⟨.own q (b.serve q).1, b, (b.serve q).2⟩ :: after.1, after.2)

namespace Amid

variable {p₀ p : α} {b₀ b : Switchboard} {L : List Moment}

/-- A process amid others goes on as a schedule says. -/
theorem follow (h : Amid p₀ b₀ L p b) (turns : List (Option Use)) :
    Amid p₀ b₀ (L ++ (mingle p b turns).1) (mingle p b turns).2.1 (mingle p b turns).2.2 := by
  induction turns generalizing L p b with
  | nil =>
    rw [mingle, List.append_nil]
    exact h
  | cons turn turns ih =>
    cases turn with
    | some u =>
      have hnext := ih (h.other u)
      rwa [List.append_assoc] at hnext
    | none =>
      rw [mingle]
      cases hq : request p with
      | none => exact ih h
      | some q =>
        have hnext := ih (h.own hq (.served q))
        rwa [List.append_assoc] at hnext

theorem of_schedule (p : α) (b : Switchboard) (turns : List (Option Use)) :
    Amid p b (mingle p b turns).1 (mingle p b turns).2.1 (mingle p b turns).2.2 :=
  Amid.start.follow turns

/-- What a process asked and heard amid others is a story like any other. -/
theorem story (h : Amid p₀ b₀ L p b) : Story p₀ (exchanges L) p := by
  induction h with
  | start => exact .start
  | own _ hq _ ih =>
    rw [exchanges_own]
    exact .hear _ ih hq
  | other u _ ih =>
    rw [exchanges_other]
    exact ih

/-- At every moment of its own, a process has a request and gets it answered. -/
theorem exists_before (h : Amid p₀ b₀ L p b) {m : Moment} (hm : m ∈ L) {q : Request}
    {reply : Reply} (hd : m.deed = .own q reply) :
    ∃ L₁ p₁, Amid p₀ b₀ L₁ p₁ m.before ∧ request p₁ = some q ∧
      m.before.Answers q reply m.after := by
  induction h with
  | start => cases hm
  | @own L p b b' q' reply' hprev hq hanswers ih =>
    rcases List.mem_append.mp hm with hold | hnew
    · exact ih hold
    · obtain rfl := List.mem_singleton.mp hnew
      obtain ⟨rfl, rfl⟩ := Deed.own.inj hd
      exact ⟨L, p, hprev, hq, hanswers⟩
  | other u _ ih =>
    rcases List.mem_append.mp hm with hold | hnew
    · exact ih hold
    · obtain rfl := List.mem_singleton.mp hnew
      cases hd

/-! ### Endpoints amid others -/

theorem staffed (h : Amid p₀ b₀ L p b) (hb : b₀.Staffed) : b.Staffed := by
  induction h with
  | start => exact hb
  | own _ _ hanswers ih => exact hanswers.staffed ih
  | other u _ ih => exact ih.perform u

theorem exists_channel (h : Amid p₀ b₀ L p b) {c : Nat} (hc : c < b₀.channels.size) :
    c < b.channels.size := by
  induction h with
  | start => exact hc
  | own _ _ hanswers ih => exact Nat.lt_of_lt_of_le ih hanswers.exists_channel
  | @other _ _ b u _ ih => exact Nat.lt_of_lt_of_le ih (b.size_le_perform u)

/-- A sender that exists goes on to exist and belongs to the same channel. -/
theorem exists_sender (h : Amid p₀ b₀ L p b) {t : Nat} (ht : t < b₀.senders.size) :
    t < b.senders.size ∧ (b.sender t).channel = (b₀.sender t).channel := by
  induction h with
  | start => exact ⟨ht, rfl⟩
  | own _ _ hanswers ih =>
    refine ⟨hanswers.exists_sender ih.1, ?_⟩
    rw [← ih.2, hanswers.sender]
    split
    · rfl
    · rfl
  | @other _ _ b u _ ih =>
    obtain ⟨hlt, hchannel⟩ := b.sender_perform u ih.1
    exact ⟨hlt, hchannel.trans ih.2⟩

/-- A receiver that is closed stays closed. -/
theorem receiver_stays_closed (h : Amid p₀ b₀ L p b) {c : Nat} (hc : c < b₀.channels.size)
    (hclosed : (b₀.channel c).receiverOpen = false) : (b.channel c).receiverOpen = false := by
  induction h with
  | start => exact hclosed
  | own _ _ hanswers ih =>
    rw [Bool.eq_false_iff] at ih ⊢
    intro hopen
    exact ih ((hanswers.receiverOpen c).mp hopen).1
  | @other _ _ b u hprev ih =>
    rw [Bool.eq_false_iff] at ih ⊢
    intro hopen
    exact ih ((b.receiverOpen_perform u (hprev.exists_channel hc)).mp hopen).1

/-- Nothing is received from a channel whose receiver is closed. -/
theorem received_of_closed (h : Amid p₀ b₀ L p b) {c : Nat} (hc : c < b₀.channels.size)
    (hclosed : (b₀.channel c).receiverOpen = false) :
    History.received c (exchanges L) = [] := by
  induction h with
  | start => rfl
  | other u _ ih => rwa [exchanges_other]
  | @own L p b b' q reply hprev hq hanswers ih =>
    rw [exchanges_own, History.received_concat, ih, List.nil_append]
    cases hv : History.receivedIn c (q, reply) with
    | none => rfl
    | some v =>
      obtain ⟨rfl, rfl⟩ := Prod.mk.inj (History.receivedIn_eq_some hv)
      have hstill := hprev.receiver_stays_closed hc hclosed
      rcases hanswers.served_or_error with ⟨-, hserved, -⟩ | ⟨_, _, -, herror, -⟩
      · rcases b.receive_or_refused c with ⟨_, _, hopen, -⟩ | ⟨_, hrefused⟩
        · rw [hstill] at hopen
          cases hopen
        · cases hserved.trans (congrArg Prod.fst hrefused)
      · cases herror

/-- A sender that is open has been open all the time, and nobody has taken it away. -/
theorem open_before (h : Amid p₀ b₀ L p b) {t : Nat} (ht : t < b₀.senders.size)
    (hopen : (b.sender t).isOpen = true) :
    (b₀.sender t).isOpen = true ∧ takenAway t L = false := by
  induction h with
  | start => exact ⟨hopen, rfl⟩
  | own _ _ hanswers ih =>
    rw [takenAway_own]
    apply ih
    rw [hanswers.sender] at hopen
    split at hopen
    · cases hopen
    · exact hopen
  | @other _ _ b u hprev ih =>
    obtain ⟨hbefore, hu⟩ := (b.isOpen_perform u (hprev.exists_sender ht).1).mp hopen
    obtain ⟨hstart, hkept⟩ := ih hbefore
    refine ⟨hstart, ?_⟩
    rw [takenAway_other, hkept]
    simp [hu]

/-- A use by others does not change who has closed a sender. -/
theorem closedBySelf_other (h : Amid p₀ b₀ L p b) (u : Use) {t : Nat} (ht : t < b₀.senders.size) :
    closedBySelf b₀ (b.perform u).2 (L ++ [⟨.other u, b, (b.perform u).2⟩]) t =
      closedBySelf b₀ b L t := by
  have hopen := b.isOpen_perform u (h.exists_sender ht).1
  unfold closedBySelf
  rw [takenAway_other]
  by_cases hu : u = .closeSender t
  · -- it is taken away, unless it was closed already
    have hclosed : ((b.perform u).2.sender t).isOpen = false := by
      rw [Bool.eq_false_iff]
      exact fun ho => (hopen.mp ho).2 hu
    rw [hclosed]
    cases hb : (b.sender t).isOpen with
    | true => simp [hu]
    | false => simp
  · have hsame : ((b.perform u).2.sender t).isOpen = (b.sender t).isOpen := by
      rw [Bool.eq_iff_iff, hopen]
      exact and_iff_left hu
    simp [hu, hsame]

/-- A request that does not close an open sender does not change who has closed it. -/
theorem closedBySelf_own {b' : Switchboard} {q : Request} {reply : Reply} {t : Nat}
    (h : b.Answers q reply b') (hq : (b.sender t).isOpen = true → q ≠ .closeSender t) :
    closedBySelf b₀ b' (L ++ [⟨.own q reply, b, b'⟩]) t = closedBySelf b₀ b L t := by
  have hsame : (b'.sender t).isOpen = (b.sender t).isOpen := by
    rw [h.sender]
    split
    · next hclose =>
      rw [Bool.eq_false_iff.mpr fun ho => hq ho hclose]
    · rfl
  unfold closedBySelf
  rw [takenAway_own, hsame]

/-! ### Tenants amid others -/

section Tenants

variable [Tenant α]

/-- A process closes every sender that it gives up. -/
theorem sender_closed (h : Amid p₀ b₀ L p b) (h₀ : Sound p₀) {t : Nat}
    (ht : t < b₀.senders.size) (hheld : t ∈ holds p₀) (hgone : t ∉ holds p) :
    (b.sender t).isOpen = false := by
  induction h with
  | start => exact absurd hheld hgone
  | @own L p b b' q reply hprev hq hanswers ih =>
    rw [holds_resume reply hq, Request.mem_sendersLeft (nodup_holds (hprev.story.sound h₀))]
      at hgone
    rw [hanswers.sender]
    split
    · rfl
    · next hne => exact ih fun hold => hgone ⟨hold, hne⟩
  | @other L p b u hprev ih =>
    have hbefore := ih hgone
    rw [Bool.eq_false_iff] at hbefore ⊢
    intro hopen
    exact hbefore ((b.isOpen_perform u (hprev.exists_sender ht).1).mp hopen).1

/-- A process closes every receiver that it gives up. -/
theorem receiver_closed (h : Amid p₀ b₀ L p b) {c : Nat} (hc : c < b₀.channels.size)
    (hread : c ∈ reads p₀) (hgone : c ∉ reads p) : (b.channel c).receiverOpen = false := by
  induction h with
  | start => exact absurd hread hgone
  | @own L p b b' q reply hprev hq hanswers ih =>
    rw [reads_resume reply hq, Request.mem_receiversLeft (nodup_reads p)] at hgone
    rw [Bool.eq_false_iff]
    intro hopen
    obtain ⟨hbefore, hne⟩ := (hanswers.receiverOpen c).mp hopen
    rw [ih fun hold => hgone ⟨hold, hne⟩] at hbefore
    cases hbefore
  | @other L p b u hprev ih =>
    have hbefore := ih hgone
    rw [Bool.eq_false_iff] at hbefore ⊢
    intro hopen
    exact hbefore ((b.receiverOpen_perform u (hprev.exists_channel hc)).mp hopen).1

/-- Whatever a process does concerns the endpoints that it held at the start. -/
theorem touches_only_held (h : Amid p₀ b₀ L p b) (h₀ : Sound p₀)
    (hall : ∀ t ∈ holds p₀, t < b₀.senders.size) {m : Moment} (hm : m ∈ L) {q : Request}
    {reply : Reply} (hd : m.deed = .own q reply) :
    (∀ t ∉ holds p₀, m.after.sender t = m.before.sender t) ∧
      ∀ d ∉ reads p₀, (m.after.channel d).receiverOpen = (m.before.channel d).receiverOpen ∧
        ((∀ t ∈ holds p₀, (b₀.sender t).channel ≠ d) →
          m.after.channel d = m.before.channel d) := by
  obtain ⟨L₁, p₁, hbefore, hq, hanswers⟩ := h.exists_before hm hd
  have hsound := hbefore.story.sound h₀
  obtain ⟨hheld, hread⟩ := hbefore.story.holds_subset
  refine ⟨?_, ?_⟩
  · intro t ht
    rw [hanswers.sender, if_neg]
    intro hclose
    exact ht (hheld (sender_mem hsound hq (by rw [hclose]; rfl)))
  · intro d hdread
    have hnot : q.channel? ≠ some d := fun hc => hdread (hread (channel_mem hsound hq hc))
    refine ⟨?_, ?_⟩
    · rw [Bool.eq_iff_iff, hanswers.receiverOpen]
      apply and_iff_left
      intro hclose
      exact hnot (by rw [hclose]; rfl)
    · intro hother
      refine hanswers.channel_of_ne ?_ hnot
      intro t ht
      have hmem := hheld (sender_mem hsound hq ht)
      rw [(hbefore.exists_sender (hall t hmem)).2]
      exact hother t hmem

/-- What a channel has lost to a process are the senders that the process has closed, each of them
    once, whatever the others did. -/
theorem lowered_eq (h : Amid p₀ b₀ L p b) (h₀ : Sound p₀) (hb : b₀.Staffed)
    (hall : ∀ t ∈ holds p₀, t < b₀.senders.size) (d : Nat) :
    lowered d L = ((holds p₀).countP fun t =>
      (b₀.sender t).channel = d && closedBySelf b₀ b L t : Nat) := by
  induction h with
  | start =>
    have hnone : ∀ t, closedBySelf b₀ b₀ [] t = false := by
      intro t
      cases ho : (b₀.sender t).isOpen <;> simp [closedBySelf, ho]
    simp [lowered, hnone]
  | @other L p b u hprev ih =>
    rw [lowered_other, ih]
    congr 1
    apply List.countP_congr
    intro t ht
    rw [hprev.closedBySelf_other u (hall t ht)]
  | @own L p b b' q reply hprev hq hanswers ih =>
    rw [lowered_own, ih]
    by_cases hclose : ∃ t ∈ b.openOn d, q = .closeSender t
    · -- the sender that is closed was open, so it was not counted yet
      obtain ⟨t, ht, rfl⟩ := hclose
      rw [hanswers.openSenders_of_closeSender (hprev.staffed hb) ht]
      obtain ⟨hopen, hchannel⟩ := mem_openOn.mp ht
      have hheld : t ∈ holds p₀ :=
        hprev.story.holds_subset.1 (sender_mem (hprev.story.sound h₀) hq rfl)
      obtain ⟨hstart, hkept⟩ := hprev.open_before (hall t hheld) hopen
      rw [(hprev.exists_sender (hall t hheld)).2] at hchannel
      have hflip : ((holds p₀).countP fun s => (b₀.sender s).channel = d &&
          closedBySelf b₀ b' (L ++ [⟨.own (.closeSender t) reply, b, b'⟩]) s) =
          ((holds p₀).countP fun s => (b₀.sender s).channel = d && closedBySelf b₀ b L s) + 1 := by
        apply countP_flip (nodup_holds h₀) hheld
        · simp [closedBySelf, hopen]
        · simp [closedBySelf, hchannel, hstart, hkept, hanswers.sender]
        · intro s hs
          rw [closedBySelf_own hanswers fun _ he => hs (Request.closeSender.inj he).symm]
      rw [hflip]
      omega
    · rw [hanswers.openSenders_of_forall_ne (hprev.staffed hb) fun t ht he => hclose ⟨t, ht, he⟩,
        Int.add_zero]
      congr 1
      apply List.countP_congr
      intro t ht
      by_cases hd : (b₀.sender t).channel = d
      · have hne : (b.sender t).isOpen = true → q ≠ .closeSender t := by
          intro ho he
          have hchannel := (hprev.exists_sender (hall t ht)).2.trans hd
          exact hclose ⟨t, mem_openOn.mpr ⟨ho, hchannel⟩, he⟩
        rw [closedBySelf_own hanswers hne]
      · simp [hd]

end Tenants

end Amid

end Process

end TapeNet
