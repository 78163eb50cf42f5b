import TapeNet.Proofs.Net.RemoteStory
import TapeNet.Proofs.Net.Shutdown

/-! # Dialogues

    A machine and its pilot, in any interleaving of the two. Channel 0 leads
    to the machine and channel 1 to the pilot.

    - `said`, `caught`, `given` and `taken`: what the pilot said, what the
      machine took of it, what the machine gave, and what the pilot took of
      that.
    - `Dialogue`: a log, the station and the remote control that it leads to,
      and their stories.
    - A pilot is only refused, and only finds the end, when the machine has
      stopped (`Dialogue.stopped_of_refused`, `Dialogue.stopped_of_ended`).
      While the pilot is talking, the machine can only have stopped of its
      own accord (`Dialogue.ends_of_stopped`). So a pilot whose machine never
      does that says and hears all it wants to (`going_of_patient`).
-/

namespace TapeNet

namespace Remote

open History Process Machine Tenant TapeNet.System

/-! ### The start -/

/-- The machine of a dialogue at its start. -/
def machine (name : String) (program : List Int) : Machine := .load { name } program

section Start

variable {γ : Type} (name : String) (program : List Int) (pilot : γ)

theorem workers_system : (system name program pilot).workers =
    #[.inl (.start (machine name program) 0 1), .inr ⟨pilot, 0, 1, .talking⟩] := rfl

/-- The two workers, by their places. -/
theorem worker_cases {i : Nat} {p : Station ⊕ Remote γ}
    (hp : (system name program pilot).workers[i]? = some p) :
    (i = 0 ∧ p = .inl (.start (machine name program) 0 1)) ∨
      (i = 1 ∧ p = .inr ⟨pilot, 0, 1, .talking⟩) := by
  rw [workers_system] at hp
  match i with
  | 0 => exact .inl ⟨rfl, (Option.some.inj hp).symm⟩
  | 1 => exact .inr ⟨rfl, (Option.some.inj hp).symm⟩
  | i + 2 => simp at hp

/-- There is one sender for each channel. -/
theorem sender_system (t : Nat) : (system name program pilot).board.sender t =
    if t = 0 then ⟨0, true⟩ else if t = 1 then ⟨1, true⟩ else .gone := by
  match t with
  | 0 => rfl
  | 1 => rfl
  | t + 2 => rfl

theorem channel_system {c : Nat} (hc : c < 2) :
    ((system name program pilot).board.channel c).queue = [] ∧
      ((system name program pilot).board.channel c).receiverOpen = true := by
  match c with
  | 0 => exact ⟨rfl, rfl⟩
  | 1 => exact ⟨rfl, rfl⟩

theorem counted_system : (system name program pilot).board.Counted := by
  have hempty : Switchboard.empty.Counted := fun c => by
    rw [Switchboard.channel_of_size_le (Nat.zero_le c)]
    rfl
  exact (hempty.openChannel (name ++ ".in")).openChannel (name ++ ".out")

variable [Pilot γ]

/-- The machine holds sender 1, and the pilot sender 0. -/
theorem sender_of_place {i t : Nat} {p : Station ⊕ Remote γ}
    (hp : (system name program pilot).workers[i]? = some p) (ht : t ∈ holds p) :
    (i = 0 ∧ t = 1) ∨ (i = 1 ∧ t = 0) := by
  rcases worker_cases name program pilot hp with ⟨hi, rfl⟩ | ⟨hi, rfl⟩
  · exact .inl ⟨hi, List.mem_singleton.mp ht⟩
  · exact .inr ⟨hi, List.mem_singleton.mp ht⟩

/-- The machine has receiver 0, and the pilot receiver 1. -/
theorem channel_of_place {i c : Nat} {p : Station ⊕ Remote γ}
    (hp : (system name program pilot).workers[i]? = some p) (hc : c ∈ reads p) :
    i = c ∧ c < 2 := by
  rcases worker_cases name program pilot hp with ⟨rfl, rfl⟩ | ⟨rfl, rfl⟩
  · obtain rfl : c = 0 := List.mem_singleton.mp hc
    decide
  · obtain rfl : c = 1 := List.mem_singleton.mp hc
    decide

theorem tidy_system : (system name program pilot).Tidy where
  counted := counted_system name program pilot
  sound hp := by
    rcases worker_cases name program pilot hp with ⟨-, rfl⟩ | ⟨-, rfl⟩
    · exact trivial
    · exact trivial
  isOpen_iff t := by
    rw [sender_system]
    constructor
    · intro hopen
      split at hopen
      · next ht => exact ⟨1, _, rfl, by rw [ht]; exact List.mem_singleton_self 0⟩
      · split at hopen
        · next ht => exact ⟨0, _, rfl, by rw [ht]; exact List.mem_singleton_self 1⟩
        · cases hopen
    · rintro ⟨i, p, hp, ht⟩
      rcases sender_of_place name program pilot hp ht with ⟨-, rfl⟩ | ⟨-, rfl⟩
      · rfl
      · rfl
  holder_unique hp hq ht ht' := by
    have hi := sender_of_place name program pilot hp ht
    have hj := sender_of_place name program pilot hq ht'
    omega
  receiverOpen hp hc :=
    (channel_system name program pilot (channel_of_place name program pilot hp hc).2).2
  reader_unique hp hq hc hc' :=
    (channel_of_place name program pilot hp hc).1.trans
      (channel_of_place name program pilot hq hc').1.symm

end Start

/-! ### What was said -/

/-- What the pilot said. -/
def said (log : List Exchange) : List Int := sent (· == 0) (script log)

/-- What the machine took of it. -/
def caught (log : List Exchange) : List Int := received 0 (script log)

/-- What the machine gave. -/
def given (log : List Exchange) : List Int := sent (· == 1) (script log)

/-- What the pilot took of it. -/
def taken (log : List Exchange) : List Int := received 1 (script log)

/-- A machine and its pilot after the exchanges of a log. -/
structure Dialogue {γ : Type} [Pilot γ] (name : String) (program : List Int) (pilot : γ)
    (log : List Exchange) (s : System (Station ⊕ Remote γ)) (w : Station) (r : Remote γ) :
    Prop where
  records : Records (system name program pilot) log s
  workers : s.workers = #[.inl w, .inr r]
  station : Story (.start (machine name program) 0 1) (heard 0 log) w
  remote : Story (⟨pilot, 0, 1, .talking⟩ : Remote γ) (heard 1 log) r

variable {γ : Type} [Pilot γ] {name : String} {program : List Int} {pilot : γ}
  {log : List Exchange} {s : System (Station ⊕ Remote γ)}

theorem size_workers (h : Records (system name program pilot) log s) : s.workers.size = 2 := by
  induction h with
  | start => rfl
  | @serve log s i r _ _ _ ih =>
    have hsize : (s.serve i r).workers.size = s.workers.size := Array.size_modify
    rw [hsize, ih]

/-- Every log is a dialogue. -/
theorem exists_dialogue (h : Records (system name program pilot) log s) :
    ∃ w r, Dialogue name program pilot log s w r := by
  obtain ⟨p, hp, hstation⟩ := h.exists_worker (i := 0) rfl
  obtain ⟨q, hq, hremote⟩ := h.exists_worker (i := 1) rfl
  obtain ⟨w, rfl, hw⟩ := hstation.inl
  obtain ⟨r, rfl, hr⟩ := hremote.inr
  have hworkers : s.workers = #[.inl w, .inr r] := by
    refine Array.ext_getElem? fun i => ?_
    match i with
    | 0 => exact hp
    | 1 => exact hq
    | i + 2 => rw [Array.getElem?_eq_none (by rw [size_workers h]; omega)]; simp
  exact ⟨w, r, h, hworkers, hw, hr⟩

/-- A talk is one of the interleavings. -/
theorem reaches_of_talk {fuel : Nat} {w : Station} {p : γ}
    (h : talk fuel name program pilot = some (w, p)) :
    ∃ s, Reaches (system name program pilot) s ∧ s.finished = true ∧ outcome? s = some (w, p) := by
  obtain ⟨s, hs, houtcome⟩ := Option.bind_eq_some_iff.mp h
  obtain ⟨hreaches, hf⟩ := reaches_of_run hs
  exact ⟨s, hreaches, hf, houtcome⟩

namespace Dialogue

variable {w : Station} {r : Remote γ}

theorem outcome (D : Dialogue name program pilot log s w r) : outcome? s = some (w, r.pilot) := by
  simp [outcome?, D.workers]

theorem tidy (D : Dialogue name program pilot log s w r) : s.Tidy :=
  D.records.tidy (tidy_system name program pilot)

theorem station_worker (D : Dialogue name program pilot log s w r) :
    s.workers[0]? = some (.inl w) := by
  rw [D.workers]
  rfl

theorem remote_worker (D : Dialogue name program pilot log s w r) :
    s.workers[1]? = some (.inr r) := by
  rw [D.workers]
  rfl

theorem inbox (D : Dialogue name program pilot log s w r) : w.inbox = 0 :=
  D.station.keeps Station.inbox Station.inbox_resume

theorem outlet (D : Dialogue name program pilot log s w r) : w.outlet = 1 :=
  D.station.keeps Station.outlet Station.outlet_resume

theorem outgoing (D : Dialogue name program pilot log s w r) : r.outgoing = 0 :=
  D.remote.keeps Remote.outgoing outgoing_resume

theorem incoming (D : Dialogue name program pilot log s w r) : r.incoming = 1 :=
  D.remote.keeps Remote.incoming incoming_resume

/-! ### Who says what -/

/-- Sender 0 and receiver 1 are the pilot's, sender 1 and receiver 0 the machine's. -/
theorem worker_of_sender (D : Dialogue name program pilot log s w r) {e : Exchange} (he : e ∈ log)
    {t : Nat} (ht : e.request.sender? = some t) :
    (e.worker = 0 ∧ t = 1) ∨ (e.worker = 1 ∧ t = 0) := by
  obtain ⟨p, hp, hmem⟩ := D.records.holder_of_sender (tidy_system name program pilot) he ht
  exact sender_of_place name program pilot hp hmem

theorem worker_of_channel (D : Dialogue name program pilot log s w r) {e : Exchange} (he : e ∈ log)
    {c : Nat} (hc : e.request.channel? = some c) : e.worker = c ∧ c < 2 := by
  obtain ⟨p, hp, hmem⟩ := D.records.reader_of_channel (tidy_system name program pilot) he hc
  exact channel_of_place name program pilot hp hmem

theorem sent_eq (D : Dialogue name program pilot log s w r) {i t : Nat}
    (hplace : (i = 0 ∧ t = 1) ∨ (i = 1 ∧ t = 0)) :
    sent (· == t) (script log) = sent (· == t) (heard i log) := by
  refine sent_script_eq fun e he u v hr hu => ?_
  obtain rfl : u = t := by simpa using hu
  have huser := D.worker_of_sender he (t := u) (by rw [hr]; rfl)
  omega

theorem received_eq (D : Dialogue name program pilot log s w r) (c : Nat) :
    received c (script log) = received c (heard c log) :=
  received_script_eq fun _ he hr => (D.worker_of_channel he (c := c) (by rw [hr]; rfl)).1

theorem said_eq (D : Dialogue name program pilot log s w r) :
    said log = sent (· == 0) (heard 1 log) :=
  D.sent_eq (.inr ⟨rfl, rfl⟩)

theorem given_eq (D : Dialogue name program pilot log s w r) :
    given log = sent (· == 1) (heard 0 log) :=
  D.sent_eq (.inl ⟨rfl, rfl⟩)

theorem caught_eq (D : Dialogue name program pilot log s w r) :
    caught log = received 0 (heard 0 log) :=
  D.received_eq 0

theorem taken_eq (D : Dialogue name program pilot log s w r) :
    taken log = received 1 (heard 1 log) :=
  D.received_eq 1

/-- What arrives over a channel is what was sent over its only sender, which has its number. -/
theorem arrived_eq (D : Dialogue name program pilot log s w r) {c : Nat} (hc : c < 2) :
    (system name program pilot).arrived c log = sent (· == c) (script log) := by
  rw [arrived, (channel_system name program pilot hc).1, List.nil_append]
  refine sent_congr fun t v reply hmem => ?_
  obtain ⟨i, he⟩ := mem_script.mp hmem
  have hcases : c = 0 ∨ c = 1 := by omega
  rcases D.worker_of_sender he (t := t) rfl with ⟨-, rfl⟩ | ⟨-, rfl⟩
  · rcases hcases with rfl | rfl <;> rfl
  · rcases hcases with rfl | rfl <;> rfl

theorem received_le (D : Dialogue name program pilot log s w r) {c : Nat} (hc : c < 2) :
    received c (script log) <+: sent (· == c) (script log) := by
  rw [← D.arrived_eq hc]
  exact (D.records.fifo c).received_le

theorem caught_le (D : Dialogue name program pilot log s w r) : caught log <+: said log :=
  D.received_le (by decide)

theorem taken_le (D : Dialogue name program pilot log s w r) : taken log <+: given log :=
  D.received_le (by decide)

/-- A pilot that finds the end has taken all that the machine gave. -/
theorem taken_of_ended (D : Dialogue name program pilot log s w r)
    (he : Ended 1 (heard 1 log)) : taken log = given log := by
  have hall := (D.records.over (tidy_system name program pilot) he.script).all_received
  rwa [D.arrived_eq (by decide)] at hall

/-! ### Who stops first -/

theorem account (D : Dialogue name program pilot log s w r) :
    Station.Account (machine name program) 0 1 (heard 0 log) w :=
  Station.station_story D.station (D.records.plain 0)

/-- The pilot is refused by a machine that has stopped. -/
theorem stopped_of_refused (D : Dialogue name program pilot log s w r)
    (hr : Refused 0 (heard 1 log)) : w.stage ≠ .working := by
  intro hworking
  have hclosed := D.records.receiver_closed (tidy_system name program pilot) hr.script
  have hopen := D.tidy.receiverOpen D.station_worker (c := w.inbox)
    (by simp [reads, Station.read, hworking])
  rw [D.inbox] at hopen
  rw [sender_system, if_pos rfl, hopen] at hclosed
  cases hclosed

/-- The pilot finds the end of what a machine gave that has stopped. -/
theorem stopped_of_ended (D : Dialogue name program pilot log s w r)
    (he : Ended 1 (heard 1 log)) : w.stage ≠ .working := by
  intro hworking
  have hclosed := (D.records.over (tidy_system name program pilot) he.script).all_closed 1 rfl
  have hopen := (D.tidy.isOpen_iff w.outlet).mpr
    ⟨0, _, D.station_worker, by simp [holds, Station.held, hworking]⟩
  rw [D.outlet, hclosed] at hopen
  cases hopen

/-- While the pilot is talking, no machine is cut off: one that has stopped ended of its own
    accord. -/
theorem ends_of_stopped (D : Dialogue name program pilot log s w r) (htalking : r.stage = .talking)
    (hstopped : w.stage ≠ .working) :
    ∃ o, Ends (machine name program) (caught log) (given log) o := by
  rcases D.account with ⟨hworking, -⟩ | ⟨-, hs⟩
  · exact absurd hworking hstopped
  · rw [← D.caught_eq, ← D.given_eq] at hs
    generalize w.fault = fault at hs
    cases hs with
    | starved _ _ he =>
      -- the pilot has not closed its sender yet
      have hclosed := (D.records.over (tidy_system name program pilot) he.script).all_closed 0 rfl
      have hopen := (D.tidy.isOpen_iff r.outgoing).mpr
        ⟨1, _, D.remote_worker, by simp [holds, held, htalking]⟩
      rw [D.outgoing, hclosed] at hopen
      cases hopen
    | refused _ hr =>
      -- nor its receiver
      have hclosed := D.records.receiver_closed (tidy_system name program pilot) hr.script
      have hopen := D.tidy.receiverOpen D.remote_worker (c := r.incoming)
        (by simp [reads, read, htalking])
      rw [D.incoming] at hopen
      rw [sender_system, if_neg (by decide), if_pos rfl, hopen] at hclosed
      cases hclosed
    | ended hends => exact ⟨_, hends⟩

/-- A machine that never ends of its own accord has no fault. -/
theorem fault_eq_none (D : Dialogue name program pilot log s w r)
    (hnever : ∀ o, ¬Ends (machine name program) (caught log) (given log) o)
    (hstopped : w.stage ≠ .working) : w.fault = none := by
  rcases D.account with ⟨hworking, -⟩ | ⟨-, hs⟩
  · exact absurd hworking hstopped
  · rw [← D.caught_eq, ← D.given_eq] at hs
    generalize w.fault = fault at hs ⊢
    cases hs with
    | starved _ _ _ => rfl
    | refused _ _ => rfl
    | ended hends => exact absurd hends (hnever _)

/-! ### The end -/

/-- When both have finished, their four endpoints are closed. -/
theorem all_closed (D : Dialogue name program pilot log s w r) (hf : s.finished = true) :
    (∀ t, (s.board.sender t).isOpen = false) ∧
      ∀ c < 2, (s.board.channel c).receiverOpen = false := by
  refine ⟨D.tidy.sender_closed_of_finished hf, fun c hc => ?_⟩
  match c, hc with
  | 0, _ => exact D.records.receiver_closed_of_finished hf (i := 0) rfl (List.mem_singleton_self _)
  | 1, _ => exact D.records.receiver_closed_of_finished hf (i := 1) rfl (List.mem_singleton_self _)

/-- When both have finished, the machine has stopped, and its pilot wanted to. -/
theorem stopped_of_finished (D : Dialogue name program pilot log s w r) (hf : s.finished = true)
    (hgives : Pilot.GivesUp γ) :
    w.stage ≠ .working ∧ Pilot.intent r.pilot = .stop := by
  have hstation : w.request = none := request_of_finished hf D.station_worker
  have hremote : r.request = none := request_of_finished hf D.remote_worker
  refine ⟨Station.not_working_of_request_eq_none hstation, ?_⟩
  refine (remote_story hgives D.remote (D.records.plain 1)).2 fun htalking => ?_
  obtain ⟨p, t, c, stage⟩ := r
  obtain rfl : stage = .talking := htalking
  cases hi : Pilot.intent p <;> simp [request, hi] at hremote

end Dialogue

/-! ### Patient machines -/

/-- What a machine is like that never ends of its own accord, whatever its pilot says. -/
def Patient {γ : Type} [Pilot γ] (name : String) (program : List Int) (pilot : γ) : Prop :=
  ∀ (cs zs : List Int) (p : γ), Pilot.Flow pilot cs zs p → ∀ (xs ys : List Int) (o : Outcome),
    xs <+: cs → ¬Ends (machine name program) xs ys o

/-- A pilot that is refused while it is talking has a machine that ended. -/
theorem Dialogue.not_patient {w : Station} {r : Remote γ}
    (D : Dialogue name program pilot log s w r) (htalking : r.stage = .talking)
    (hrefused : Refused 0 (heard 1 log) ∨ Ended 1 (heard 1 log)) {p : γ}
    (hflow : Pilot.Flow pilot (sent (· == 0) (heard 1 log)) (received 1 (heard 1 log)) p) :
    ¬Patient name program pilot := by
  intro hpatient
  rw [← D.said_eq, ← D.taken_eq] at hflow
  have hstopped : w.stage ≠ .working := hrefused.elim D.stopped_of_refused D.stopped_of_ended
  obtain ⟨o, hends⟩ := D.ends_of_stopped htalking hstopped
  exact hpatient _ _ p hflow _ _ o D.caught_le hends

/-- The pilot of a patient machine makes one more exchange, and it is not refused. -/
theorem Dialogue.exchange (hgives : Pilot.GivesUp γ) (hpatient : Patient name program pilot)
    {w w' : Station} {r : Remote γ} (D : Dialogue name program pilot log s w r)
    (hflow : Pilot.Flow pilot (sent (· == 0) (heard 1 log)) (received 1 (heard 1 log)) r.pilot)
    {q : Request} {reply : Reply} (hq : r.request = some q) (hp : Plain (q, reply))
    {s' : System (Station ⊕ Remote γ)}
    (D' : Dialogue name program pilot (log ++ [⟨1, q, reply⟩]) s' w' (r.resume reply)) :
    Pilot.Flow pilot (sent (· == 0) (heard 1 (log ++ [⟨1, q, reply⟩])))
      (received 1 (heard 1 (log ++ [⟨1, q, reply⟩]))) (r.resume reply).pilot := by
  have hacc : Account pilot r.outgoing r.incoming (heard 1 log) r.pilot := by
    rw [D.outgoing, D.incoming]
    exact .going hflow
  have hnext := hacc.exchange hgives hq hp
  rw [D.outgoing, D.incoming, ← heard_concat_self] at hnext
  rcases hnext.flow_or_refused with hgoing | ⟨hrefused, p, hflow'⟩
  · exact hgoing
  · rcases exchange_cases hq hp with
      ⟨v, hs, -, -, hresume, -⟩ | ⟨hs, -, -, hresume, -⟩ | ⟨-, hclose, hpilot, -⟩
    · exact absurd hpatient (D'.not_patient (by rw [hresume]; exact hs) hrefused hflow')
    · exact absurd hpatient (D'.not_patient (by rw [hresume]; exact hs) hrefused hflow')
    · -- closing carries no value
      rw [hpilot, heard_concat_self, sent_concat, received_concat]
      rcases hclose with rfl | rfl
      · simpa [sentIn, receivedIn] using hflow
      · simpa [sentIn, receivedIn] using hflow

/-- The pilot of a patient machine is never refused. -/
theorem going_of_patient (hgives : Pilot.GivesUp γ) (hpatient : Patient name program pilot)
    (h : Records (system name program pilot) log s) {w : Station} {r : Remote γ}
    (D : Dialogue name program pilot log s w r) :
    Pilot.Flow pilot (said log) (taken log) r.pilot := by
  rw [D.said_eq, D.taken_eq]
  -- by induction on the log; a refusal would need a machine that had ended before it
  induction h generalizing w r with
  | start =>
    obtain rfl : r = ⟨pilot, 0, 1, .talking⟩ :=
      Sum.inr.inj (Option.some.inj (D.remote_worker.symm.trans rfl))
    exact .start
  | @serve log s i q hrec hreq hb ih =>
    obtain ⟨w₀, r₀, D₀⟩ := exists_dialogue hrec
    have hworker := D.remote_worker
    rw [getElem?_workers_serve] at hworker
    by_cases hi : i = 1
    · subst hi
      rw [if_pos rfl, D₀.remote_worker] at hworker
      obtain rfl : r₀.resume (s.board.serve q).1 = r := Sum.inr.inj (Option.some.inj hworker)
      obtain ⟨p, hp, hq⟩ := exists_worker_of_request hreq
      rw [D₀.remote_worker] at hp
      obtain rfl := Option.some.inj hp
      exact D₀.exchange hgives hpatient (ih D₀) hq (plain_serve hb) D
    · -- the machine made the exchange, and the pilot did not notice
      rw [if_neg hi, D₀.remote_worker] at hworker
      obtain rfl : r₀ = r := Sum.inr.inj (Option.some.inj hworker)
      rw [heard_concat_of_ne _ (Ne.symm hi)]
      exact ih D₀

end Remote

end TapeNet
