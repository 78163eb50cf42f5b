import TapeNet.Net.Station
import TapeNet.Net.Relay
import TapeNet.Proofs.Net.Accounts
import TapeNet.Proofs.Net.History

/-! # Tenancy

    Every endpoint that is in use has exactly one holder, and the holder is
    the one who closes it.

    - `Tenant`: a process whose endpoints are known at every moment. It only
      uses what it holds, gives an endpoint up by closing it and by nothing
      else, and has none left when it has finished.
    - Stations and relays are tenants, and so are sums of tenants.
-/

namespace TapeNet

namespace Request

/-- The sender that a request uses. -/
def sender? : Request → Option Nat
  | .send t _ => some t
  | .closeSender t => some t
  | _ => none

/-- The channel whose receiver a request uses. -/
def channel? : Request → Option Nat
  | .receive c => some c
  | .closeReceiver c => some c
  | _ => none

/-- What is left of some senders once a request is served. -/
def sendersLeft : Request → List Nat → List Nat
  | .closeSender t, held => held.erase t
  | _, held => held

/-- What is left of some receivers once a request is served. -/
def receiversLeft : Request → List Nat → List Nat
  | .closeReceiver c, read => read.erase c
  | _, read => read

theorem mem_sendersLeft {r : Request} {held : List Nat} (hn : held.Nodup) {t : Nat} :
    t ∈ r.sendersLeft held ↔ t ∈ held ∧ r ≠ .closeSender t := by
  cases r with
  | closeSender u =>
    simp only [sendersLeft, hn.mem_erase_iff, ne_eq, closeSender.injEq]
    exact ⟨fun h => ⟨h.2, fun he => h.1 he.symm⟩, fun h => ⟨fun he => h.2 he.symm, h.1⟩⟩
  | _ => simp [sendersLeft]

theorem mem_receiversLeft {r : Request} {read : List Nat} (hn : read.Nodup) {c : Nat} :
    c ∈ r.receiversLeft read ↔ c ∈ read ∧ r ≠ .closeReceiver c := by
  cases r with
  | closeReceiver d =>
    simp only [receiversLeft, hn.mem_erase_iff, ne_eq, closeReceiver.injEq]
    exact ⟨fun h => ⟨h.2, fun he => h.1 he.symm⟩, fun h => ⟨fun he => h.2 he.symm, h.1⟩⟩
  | _ => simp [receiversLeft]

end Request

/-! ### Tenants -/

/-- A process whose endpoints are known at every moment. -/
class Tenant (α : Type) [Process α] where
  /-- the senders that the process has still to close -/
  holds : α → List Nat
  /-- the channels whose receivers the process has still to close -/
  reads : α → List Nat
  /-- what the process relies on to know its endpoints -/
  Sound : α → Prop
  sound_resume {p : α} {r : Request} (reply : Reply) :
    Sound p → Process.request p = some r → Sound (Process.resume p reply)
  holds_resume {p : α} {r : Request} (reply : Reply) :
    Process.request p = some r → holds (Process.resume p reply) = r.sendersLeft (holds p)
  reads_resume {p : α} {r : Request} (reply : Reply) :
    Process.request p = some r → reads (Process.resume p reply) = r.receiversLeft (reads p)
  sender_mem {p : α} {r : Request} {t : Nat} :
    Sound p → Process.request p = some r → r.sender? = some t → t ∈ holds p
  channel_mem {p : α} {r : Request} {c : Nat} :
    Sound p → Process.request p = some r → r.channel? = some c → c ∈ reads p
  nodup_holds {p : α} : Sound p → (holds p).Nodup
  nodup_reads (p : α) : (reads p).Nodup
  free_of_finished {p : α} : Process.request p = none → holds p = [] ∧ reads p = []

open Tenant

namespace Station

/-- The outlet, until it is closed. -/
def held (w : Station) : List Nat :=
  match w.stage with
  | .finished => []
  | _ => [w.outlet]

/-- The inbox, until it is closed. -/
def read (w : Station) : List Nat :=
  match w.stage with
  | .working => [w.inbox]
  | .closingInbox => [w.inbox]
  | _ => []

@[simp] theorem inbox_settle (c t : Nat) (r : Outcome × Machine) :
    (settle c t r).inbox = c := by
  obtain ⟨_ | _ | _ | _ | _, m⟩ := r <;> rfl

@[simp] theorem outlet_settle (c t : Nat) (r : Outcome × Machine) :
    (settle c t r).outlet = t := by
  obtain ⟨_ | _ | _ | _ | _, m⟩ := r <;> rfl

theorem stage_settle (c t : Nat) (r : Outcome × Machine) :
    (settle c t r).stage = .working ∨ (settle c t r).stage = .closingInbox := by
  obtain ⟨_ | _ | _ | _ | _, m⟩ := r
  all_goals first | exact .inl rfl | exact .inr rfl

theorem held_settle (c t : Nat) (r : Outcome × Machine) : (settle c t r).held = [t] := by
  obtain h | h := stage_settle c t r <;> simp [held, h]

theorem read_settle (c t : Nat) (r : Outcome × Machine) : (settle c t r).read = [c] := by
  obtain h | h := stage_settle c t r <;> simp [read, h]

@[simp] theorem inbox_resume (w : Station) (reply : Reply) : (w.resume reply).inbox = w.inbox := by
  obtain ⟨m, c, t, stage, fault⟩ := w
  cases stage with
  | working => exact inbox_settle c t _
  | _ => rfl

@[simp] theorem outlet_resume (w : Station) (reply : Reply) :
    (w.resume reply).outlet = w.outlet := by
  obtain ⟨m, c, t, stage, fault⟩ := w
  cases stage with
  | working => exact outlet_settle c t _
  | _ => rfl

/-- A working station asks for what its machine demands, and for nothing else. -/
theorem requestFor_cases (w : Station) (d : Demand) :
    (d = .silent ∧ w.requestFor d = .pause) ∨ (d = .get ∧ w.requestFor d = .receive w.inbox) ∨
      ∃ v, d = .put v ∧ w.requestFor d = .send w.outlet v := by
  cases d with
  | silent => exact .inl ⟨rfl, rfl⟩
  | get => exact .inr (.inl ⟨rfl, rfl⟩)
  | put v => exact .inr (.inr ⟨v, rfl, rfl⟩)

theorem held_resume {w : Station} {r : Request} (reply : Reply) (h : w.request = some r) :
    (w.resume reply).held = r.sendersLeft w.held := by
  obtain ⟨m, c, t, stage, fault⟩ := w
  cases stage with
  | working =>
    have hr : requestFor _ m.demand = r := Option.some.inj h
    -- a machine closes nothing, and a station that has just stopped has closed nothing yet
    show (settle c t (m.resume reply)).held = _
    rw [held_settle, ← hr]
    rcases requestFor_cases _ m.demand with ⟨-, hd⟩ | ⟨-, hd⟩ | ⟨_, -, hd⟩ <;> (rw [hd]; rfl)
  | closingInbox =>
    obtain rfl := Option.some.inj h
    rfl
  | closingOutlet =>
    obtain rfl := Option.some.inj h
    exact (List.erase_cons_head t []).symm
  | finished => cases h

theorem read_resume {w : Station} {r : Request} (reply : Reply) (h : w.request = some r) :
    (w.resume reply).read = r.receiversLeft w.read := by
  obtain ⟨m, c, t, stage, fault⟩ := w
  cases stage with
  | working =>
    have hr : requestFor _ m.demand = r := Option.some.inj h
    show (settle c t (m.resume reply)).read = _
    rw [read_settle, ← hr]
    rcases requestFor_cases _ m.demand with ⟨-, hd⟩ | ⟨-, hd⟩ | ⟨_, -, hd⟩ <;> (rw [hd]; rfl)
  | closingInbox =>
    obtain rfl := Option.some.inj h
    exact (List.erase_cons_head c []).symm
  | closingOutlet =>
    obtain rfl := Option.some.inj h
    rfl
  | finished => cases h

theorem sender_mem_held {w : Station} {r : Request} {u : Nat} (h : w.request = some r)
    (hu : r.sender? = some u) : u ∈ w.held := by
  obtain ⟨m, c, t, stage, fault⟩ := w
  cases stage with
  | working =>
    have hr : requestFor _ m.demand = r := Option.some.inj h
    rw [← hr] at hu
    rcases requestFor_cases _ m.demand with ⟨-, hd⟩ | ⟨-, hd⟩ | ⟨_, -, hd⟩
    · rw [hd] at hu
      cases hu
    · rw [hd] at hu
      cases hu
    · rw [hd] at hu
      obtain rfl := Option.some.inj hu
      exact List.mem_singleton_self _
  | closingInbox =>
    obtain rfl := Option.some.inj h
    cases hu
  | closingOutlet =>
    obtain rfl := Option.some.inj h
    obtain rfl := Option.some.inj hu
    exact List.mem_singleton_self _
  | finished => cases h

theorem channel_mem_read {w : Station} {r : Request} {d : Nat} (h : w.request = some r)
    (hd : r.channel? = some d) : d ∈ w.read := by
  obtain ⟨m, c, t, stage, fault⟩ := w
  cases stage with
  | working =>
    have hr : requestFor _ m.demand = r := Option.some.inj h
    rw [← hr] at hd
    rcases requestFor_cases _ m.demand with ⟨-, hq⟩ | ⟨-, hq⟩ | ⟨_, -, hq⟩
    · rw [hq] at hd
      cases hd
    · rw [hq] at hd
      obtain rfl := Option.some.inj hd
      exact List.mem_singleton_self _
    · rw [hq] at hd
      cases hd
  | closingInbox =>
    obtain rfl := Option.some.inj h
    obtain rfl := Option.some.inj hd
    exact List.mem_singleton_self _
  | closingOutlet =>
    obtain rfl := Option.some.inj h
    cases hd
  | finished => cases h

theorem nodup_held (w : Station) : w.held.Nodup := by
  unfold held
  split
  · exact List.nodup_nil
  · exact List.nodup_singleton _

theorem nodup_read (w : Station) : w.read.Nodup := by
  unfold read
  split
  · exact List.nodup_singleton _
  · exact List.nodup_singleton _
  · exact List.nodup_nil

theorem free_of_request_eq_none {w : Station} (h : w.request = none) :
    w.held = [] ∧ w.read = [] := by
  obtain ⟨m, c, t, stage, fault⟩ := w
  cases stage with
  | finished => exact ⟨rfl, rfl⟩
  | _ => cases h

end Station

instance : Tenant Station where
  holds := Station.held
  reads := Station.read
  Sound _ := True
  sound_resume _ _ _ := trivial
  holds_resume := Station.held_resume
  reads_resume := Station.read_resume
  sender_mem _ := Station.sender_mem_held
  channel_mem _ := Station.channel_mem_read
  nodup_holds {w} _ := w.nodup_held
  nodup_reads := Station.nodup_read
  free_of_finished := Station.free_of_request_eq_none

namespace Relay

/-- The targets, less those that are already closed. -/
def held (r : Relay) : List Nat :=
  match r.stage with
  | .closingTarget t rest => t :: rest
  | .finished => []
  | _ => r.targets

/-- The inbound channel, until it is closed. -/
def read (r : Relay) : List Nat :=
  match r.stage with
  | .closingTarget _ _ => []
  | .finished => []
  | _ => [r.inbound]

/-- No target is there twice, and a value is still to be sent to the last ones of them. -/
def Sound (r : Relay) : Prop :=
  r.targets.Nodup ∧
    match r.stage with
    | .sending _ t rest => (t :: rest) <:+ r.targets
    | .dropping _ t rest => (t :: rest) <:+ r.targets
    | .closingTarget t rest => (t :: rest).Nodup
    | _ => True

@[simp] theorem inbound_forward (r : Relay) (v : Int) (rest : List Nat) :
    (r.forward v rest).inbound = r.inbound := by
  cases rest with
  | cons t rest => rfl
  | nil =>
    simp only [forward]
    split
    · rfl
    · rfl

@[simp] theorem inbound_release (r : Relay) (rest : List Nat) :
    (r.release rest).inbound = r.inbound := by
  cases rest <;> rfl

@[simp] theorem inbound_resume (r : Relay) (reply : Reply) :
    (r.resume reply).inbound = r.inbound := by
  obtain ⟨name, c, targets, relayed, stage, failure, events⟩ := r
  cases stage with
  | receiving =>
    rcases reply with (_ | _ | _ | _) | v
    all_goals first | rfl | exact inbound_forward _ _ _
  | sending v t rest =>
    rcases reply with _ | _
    · rfl
    · exact inbound_forward _ _ _
  | dropping v t rest => exact inbound_forward _ _ _
  | closingInbound => exact inbound_release _ _
  | closingTarget t rest => exact inbound_release _ _
  | finished => rfl

theorem held_forward (r : Relay) (v : Int) (rest : List Nat) :
    (r.forward v rest).held = r.targets := by
  cases rest with
  | cons t rest => rfl
  | nil =>
    simp only [forward]
    split
    · rfl
    · rfl

theorem read_forward (r : Relay) (v : Int) (rest : List Nat) :
    (r.forward v rest).read = [r.inbound] := by
  cases rest with
  | cons t rest => rfl
  | nil =>
    simp only [forward]
    split
    · rfl
    · rfl

theorem held_release (r : Relay) (rest : List Nat) : (r.release rest).held = rest := by
  cases rest <;> rfl

theorem read_release (r : Relay) (rest : List Nat) : (r.release rest).read = [] := by
  cases rest <;> rfl

theorem sound_forward {r : Relay} (hn : r.targets.Nodup) (v : Int) {rest : List Nat}
    (hs : rest <:+ r.targets) : (r.forward v rest).Sound := by
  cases rest with
  | cons t rest => exact ⟨hn, hs⟩
  | nil =>
    simp only [forward]
    split
    · exact ⟨hn, trivial⟩
    · exact ⟨hn, trivial⟩

theorem sound_release {r : Relay} (hn : r.targets.Nodup) {rest : List Nat} (hr : rest.Nodup) :
    (r.release rest).Sound := by
  cases rest with
  | cons t rest => exact ⟨hn, hr⟩
  | nil => exact ⟨hn, trivial⟩

/-- Once the target that comes next is dropped, the others behind it are still the last ones. -/
theorem isSuffix_erase {targets rest : List Nat} {t : Nat} (hn : targets.Nodup)
    (hs : (t :: rest) <:+ targets) : rest <:+ targets.erase t := by
  obtain ⟨done, rfl⟩ := hs
  -- no target is there twice, so it is not among those that are done
  have ht : t ∉ done := fun h =>
    (List.nodup_append.mp hn).2.2 t h t List.mem_cons_self rfl
  rw [List.erase_append_right _ ht, List.erase_cons_head]
  exact List.suffix_append done rest

theorem sound_resume {r : Relay} {q : Request} (reply : Reply) (hs : r.Sound)
    (h : r.request = some q) : (r.resume reply).Sound := by
  obtain ⟨name, c, targets, relayed, stage, failure, events⟩ := r
  obtain ⟨hn, hst⟩ := hs
  cases stage with
  | receiving =>
    rcases reply with (_ | _ | _ | _) | v
    all_goals first | exact ⟨hn, trivial⟩ | exact sound_forward hn _ (List.suffix_refl _)
  | sending v t rest =>
    rcases reply with _ | _
    · exact ⟨hn, hst⟩
    · exact sound_forward hn v ((List.suffix_cons t rest).trans hst)
  | dropping v t rest => exact sound_forward (hn.erase t) v (isSuffix_erase hn hst)
  | closingInbound => exact sound_release hn hn
  | closingTarget t rest => exact sound_release hn (List.nodup_cons.mp hst).2
  | finished => cases h

theorem held_resume {r : Relay} {q : Request} (reply : Reply) (h : r.request = some q) :
    (r.resume reply).held = q.sendersLeft r.held := by
  obtain ⟨name, c, targets, relayed, stage, failure, events⟩ := r
  cases stage with
  | receiving =>
    obtain rfl := Option.some.inj h
    rcases reply with (_ | _ | _ | _) | v
    all_goals first | rfl | exact held_forward _ _ _
  | sending v t rest =>
    obtain rfl := Option.some.inj h
    rcases reply with _ | _
    · rfl
    · exact held_forward _ _ _
  | dropping v t rest =>
    obtain rfl := Option.some.inj h
    exact held_forward _ _ _
  | closingInbound =>
    obtain rfl := Option.some.inj h
    exact held_release _ _
  | closingTarget t rest =>
    obtain rfl := Option.some.inj h
    exact (held_release _ _).trans (List.erase_cons_head t rest).symm
  | finished => cases h

theorem read_resume {r : Relay} {q : Request} (reply : Reply) (h : r.request = some q) :
    (r.resume reply).read = q.receiversLeft r.read := by
  obtain ⟨name, c, targets, relayed, stage, failure, events⟩ := r
  cases stage with
  | receiving =>
    obtain rfl := Option.some.inj h
    rcases reply with (_ | _ | _ | _) | v
    all_goals first | rfl | exact read_forward _ _ _
  | sending v t rest =>
    obtain rfl := Option.some.inj h
    rcases reply with _ | _
    · rfl
    · exact read_forward _ _ _
  | dropping v t rest =>
    obtain rfl := Option.some.inj h
    exact read_forward _ _ _
  | closingInbound =>
    obtain rfl := Option.some.inj h
    exact (read_release _ _).trans (List.erase_cons_head c []).symm
  | closingTarget t rest =>
    obtain rfl := Option.some.inj h
    exact read_release _ _
  | finished => cases h

theorem sender_mem_held {r : Relay} {q : Request} {u : Nat} (hs : r.Sound)
    (h : r.request = some q) (hu : q.sender? = some u) : u ∈ r.held := by
  obtain ⟨name, c, targets, relayed, stage, failure, events⟩ := r
  obtain ⟨-, hst⟩ := hs
  cases stage with
  | receiving =>
    obtain rfl := Option.some.inj h
    cases hu
  | sending v t rest =>
    obtain rfl := Option.some.inj h
    obtain rfl := Option.some.inj hu
    exact hst.subset List.mem_cons_self
  | dropping v t rest =>
    obtain rfl := Option.some.inj h
    obtain rfl := Option.some.inj hu
    exact hst.subset List.mem_cons_self
  | closingInbound =>
    obtain rfl := Option.some.inj h
    cases hu
  | closingTarget t rest =>
    obtain rfl := Option.some.inj h
    obtain rfl := Option.some.inj hu
    exact List.mem_cons_self
  | finished => cases h

theorem channel_mem_read {r : Relay} {q : Request} {d : Nat} (h : r.request = some q)
    (hd : q.channel? = some d) : d ∈ r.read := by
  obtain ⟨name, c, targets, relayed, stage, failure, events⟩ := r
  cases stage with
  | receiving =>
    obtain rfl := Option.some.inj h
    obtain rfl := Option.some.inj hd
    exact List.mem_singleton_self _
  | closingInbound =>
    obtain rfl := Option.some.inj h
    obtain rfl := Option.some.inj hd
    exact List.mem_singleton_self _
  | finished => cases h
  | _ =>
    obtain rfl := Option.some.inj h
    cases hd

theorem nodup_held {r : Relay} (hs : r.Sound) : r.held.Nodup := by
  obtain ⟨name, c, targets, relayed, stage, failure, events⟩ := r
  cases stage with
  | closingTarget t rest => exact hs.2
  | finished => exact List.nodup_nil
  | _ => exact hs.1

theorem nodup_read (r : Relay) : r.read.Nodup := by
  unfold read
  split
  · exact List.nodup_nil
  · exact List.nodup_nil
  · exact List.nodup_singleton _

theorem free_of_request_eq_none {r : Relay} (h : r.request = none) :
    r.held = [] ∧ r.read = [] := by
  obtain ⟨name, c, targets, relayed, stage, failure, events⟩ := r
  cases stage with
  | finished => exact ⟨rfl, rfl⟩
  | _ => cases h

end Relay

instance : Tenant Relay where
  holds := Relay.held
  reads := Relay.read
  Sound := Relay.Sound
  sound_resume := Relay.sound_resume
  holds_resume := Relay.held_resume
  reads_resume := Relay.read_resume
  sender_mem := Relay.sender_mem_held
  channel_mem _ := Relay.channel_mem_read
  nodup_holds := Relay.nodup_held
  nodup_reads := Relay.nodup_read
  free_of_finished := Relay.free_of_request_eq_none

instance {α β : Type} [Process α] [Process β] [Tenant α] [Tenant β] : Tenant (α ⊕ β) where
  holds := Sum.elim holds holds
  reads := Sum.elim reads reads
  Sound := Sum.elim Sound Sound
  sound_resume {p r} reply hs h := by
    cases p with
    | inl p => exact sound_resume (p := p) reply hs h
    | inr p => exact sound_resume (p := p) reply hs h
  holds_resume {p r} reply h := by
    cases p with
    | inl p => exact holds_resume (p := p) reply h
    | inr p => exact holds_resume (p := p) reply h
  reads_resume {p r} reply h := by
    cases p with
    | inl p => exact reads_resume (p := p) reply h
    | inr p => exact reads_resume (p := p) reply h
  sender_mem {p r t} hs h ht := by
    cases p with
    | inl p => exact sender_mem (p := p) hs h ht
    | inr p => exact sender_mem (p := p) hs h ht
  channel_mem {p r c} hs h hc := by
    cases p with
    | inl p => exact channel_mem (p := p) hs h hc
    | inr p => exact channel_mem (p := p) hs h hc
  nodup_holds {p} hs := by
    cases p with
    | inl p => exact nodup_holds (p := p) hs
    | inr p => exact nodup_holds (p := p) hs
  nodup_reads p := by
    cases p with
    | inl p => exact nodup_reads p
    | inr p => exact nodup_reads p
  free_of_finished {p} h := by
    cases p with
    | inl p => exact free_of_finished (p := p) h
    | inr p => exact free_of_finished (p := p) h

end TapeNet
