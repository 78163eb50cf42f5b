import Mathlib.Data.List.Basic
import TapeNet.Net.System

/-! # Histories

    A system keeps no record of its past. Here one is kept beside it: a log
    of all exchanges, in the order in which they were served.

    - `Records s₀ log s`: the system gets from `s₀` to `s` by serving the
      exchanges of `log`. Every interleaving has a log
      (`exists_records_of_reaches`), and that of a schedule is its
      `transcript`.
    - `heard i log` is the part of worker `i`, and `Story p₀ h p` says that a
      process that asked and heard `h` went from `p₀` to `p`. A worker only
      depends on what it heard (`Records.story`).
    - `received c` and `sent on` are the values that a history took from a
      channel and gave to some senders.
-/

namespace TapeNet

/-- What was asked, and what was replied, in order. -/
abbrev History := List (Request × Reply)

namespace History

/-! ### Values in a history -/

/-- The value that an exchange took from a channel. -/
def receivedIn (c : Nat) : Request × Reply → Option Int
  | (.receive d, .ok v) => if d = c then some v else none
  | _ => none

/-- The value that an exchange gave to one of some senders. -/
def sentIn (on : Nat → Bool) : Request × Reply → Option Int
  | (.send t v, .ok _) => if on t then some v else none
  | _ => none

/-- The values taken from a channel, in order. -/
def received (c : Nat) (h : History) : List Int := h.filterMap (receivedIn c)

/-- The values given to some senders, in order. -/
def sent (on : Nat → Bool) (h : History) : List Int := h.filterMap (sentIn on)

/-- Whether a channel was found to have ended. -/
def Ended (c : Nat) (h : History) : Prop := ∃ e, (Request.receive c, Except.error e) ∈ h

/-- Whether a sender was refused a value. -/
def Refused (t : Nat) (h : History) : Prop := ∃ v e, (Request.send t v, Except.error e) ∈ h

theorem received_concat (c : Nat) (h : History) (e : Request × Reply) :
    received c (h ++ [e]) = received c h ++ (receivedIn c e).toList := by
  rw [received, List.filterMap_append]
  cases he : receivedIn c e <;> simp [received, he]

theorem sent_concat (on : Nat → Bool) (h : History) (e : Request × Reply) :
    sent on (h ++ [e]) = sent on h ++ (sentIn on e).toList := by
  rw [sent, List.filterMap_append]
  cases he : sentIn on e <;> simp [sent, he]

theorem receivedIn_eq_some {c : Nat} {e : Request × Reply} {v : Int}
    (h : receivedIn c e = some v) : e = (.receive c, .ok v) := by
  obtain ⟨r, reply⟩ := e
  cases r with
  | receive d =>
    cases reply with
    | ok w =>
      have hreceived : (if d = c then some w else none) = some v := h
      split at hreceived
      · next hd => rw [hd, Option.some.inj hreceived]
      · cases hreceived
    | error _ => cases h
  | _ => cases h

theorem sentIn_eq_some {on : Nat → Bool} {e : Request × Reply} {v : Int}
    (h : sentIn on e = some v) : ∃ t w, e = (.send t v, .ok w) ∧ on t = true := by
  obtain ⟨r, reply⟩ := e
  cases r with
  | send t u =>
    cases reply with
    | ok w =>
      have hsent : (if on t then some u else none) = some v := h
      split at hsent
      · next hon =>
        obtain rfl := Option.some.inj hsent
        exact ⟨t, w, rfl, hon⟩
      · cases hsent
    | error _ => cases h
  | _ => cases h

/-- What is sent only depends on the senders that are used. -/
theorem sent_congr {on on' : Nat → Bool} {h : History}
    (hon : ∀ t v reply, (Request.send t v, reply) ∈ h → on t = on' t) :
    sent on h = sent on' h := by
  refine List.filterMap_congr fun e he => ?_
  obtain ⟨r, reply⟩ := e
  cases r with
  | send t v =>
    cases reply with
    | ok w =>
      show (if on t then some v else none) = if on' t then some v else none
      rw [hon t v _ he]
    | error _ => rfl
  | _ => rfl

theorem Ended.mono {c : Nat} {h : History} (he : Ended c h) (e : Request × Reply) :
    Ended c (h ++ [e]) := by
  obtain ⟨cause, hc⟩ := he
  exact ⟨cause, List.mem_append_left _ hc⟩

theorem Refused.mono {t : Nat} {h : History} (hr : Refused t h) (e : Request × Reply) :
    Refused t (h ++ [e]) := by
  obtain ⟨v, cause, hc⟩ := hr
  exact ⟨v, cause, List.mem_append_left _ hc⟩

theorem ended_concat {c : Nat} {h : History} {e : Request × Reply} :
    Ended c (h ++ [e]) ↔ Ended c h ∨ ∃ cause, e = (.receive c, .error cause) := by
  simp only [Ended, List.mem_append, List.mem_singleton, exists_or, eq_comm]

theorem refused_concat {t : Nat} {h : History} {e : Request × Reply} :
    Refused t (h ++ [e]) ↔ Refused t h ∨ ∃ v cause, e = (.send t v, .error cause) := by
  simp only [Refused, List.mem_append, List.mem_singleton, exists_or, eq_comm]

end History

/-! ### Stories of a process -/

namespace Process

variable {α β : Type} [Process α] [Process β]

/-- A process that asked and heard a history, from its start on. -/
inductive Story (p₀ : α) : History → α → Prop
  | start : Story p₀ [] p₀
  | hear {h : History} {p : α} {r : Request} (reply : Reply) :
      Story p₀ h p → request p = some r → Story p₀ (h ++ [(r, reply)]) (resume p reply)

/-- What no reply changes is what it was at the start. -/
theorem Story.keeps {γ : Type} (f : α → γ) (hf : ∀ p reply, f (resume p reply) = f p) {p₀ p : α}
    {h : History} (hs : Story p₀ h p) : f p = f p₀ := by
  induction hs with
  | start => rfl
  | hear reply _ _ ih => rw [hf, ih]

/-- A process that heard nothing has not changed. -/
theorem Story.eq_of_nil {p₀ p : α} (hs : Story p₀ [] p) : p = p₀ := by
  generalize hh : ([] : History) = h at hs
  cases hs with
  | start => rfl
  | hear _ _ _ => simp at hh

/-- A story can be told in two parts. -/
theorem Story.split {p₀ p : α} {h₁ h₂ : History} (hs : Story p₀ (h₁ ++ h₂) p) :
    ∃ q, Story p₀ h₁ q ∧ Story q h₂ p := by
  generalize hh : h₁ ++ h₂ = h at hs
  induction hs generalizing h₂ with
  | start =>
    obtain ⟨rfl, rfl⟩ := List.append_eq_nil_iff.mp hh
    exact ⟨p₀, .start, .start⟩
  | @hear h p r reply hprev hr ih =>
    rcases List.eq_nil_or_concat h₂ with rfl | ⟨rest, e, rfl⟩
    · -- the second part has not begun
      rw [List.append_nil] at hh
      rw [hh]
      exact ⟨_, .hear reply hprev hr, .start⟩
    · rw [List.concat_eq_append, ← List.append_assoc] at hh
      obtain ⟨hrest, hlast⟩ := List.append_inj' hh rfl
      obtain ⟨q, hfirst, hsecond⟩ := ih hrest
      obtain rfl := List.singleton_inj.mp hlast
      rw [List.concat_eq_append]
      exact ⟨q, hfirst, .hear reply hsecond hr⟩

/-- A story that has begun began with the first request. -/
theorem Story.cases_head {p₀ p : α} {h : History} (hs : Story p₀ h p) :
    h = [] ∨ ∃ e rest, h = e :: rest ∧ request p₀ = some e.1 ∧ Story (resume p₀ e.2) rest p := by
  induction hs with
  | start => exact .inl rfl
  | @hear h p r reply hprev hr ih =>
    apply Or.inr
    rcases ih with rfl | ⟨e, rest, rfl, he, hrest⟩
    · cases hprev.eq_of_nil
      exact ⟨(r, reply), [], rfl, hr, .start⟩
    · exact ⟨e, rest ++ [(r, reply)], rfl, he, .hear reply hrest hr⟩

theorem Story.head {p₀ p : α} {e : Request × Reply} {h : History} (hs : Story p₀ (e :: h) p) :
    request p₀ = some e.1 ∧ Story (resume p₀ e.2) h p := by
  rcases hs.cases_head with hnil | ⟨e', rest, heq, he, hrest⟩
  · cases hnil
  · obtain ⟨rfl, rfl⟩ := List.cons.inj heq
    exact ⟨he, hrest⟩

theorem Story.inl {p₀ : α} {h : History} {q : α ⊕ β} (hs : Story (.inl p₀ : α ⊕ β) h q) :
    ∃ p, q = .inl p ∧ Story p₀ h p := by
  induction hs with
  | start => exact ⟨p₀, rfl, .start⟩
  | hear reply _ hr ih =>
    obtain ⟨p, rfl, hp⟩ := ih
    exact ⟨resume p reply, rfl, .hear reply hp hr⟩

theorem Story.inr {p₀ : β} {h : History} {q : α ⊕ β} (hs : Story (.inr p₀ : α ⊕ β) h q) :
    ∃ p, q = .inr p ∧ Story p₀ h p := by
  induction hs with
  | start => exact ⟨p₀, rfl, .start⟩
  | hear reply _ hr ih =>
    obtain ⟨p, rfl, hp⟩ := ih
    exact ⟨resume p reply, rfl, .hear reply hp hr⟩

end Process

/-! ### Logs of a system -/

/-- One served request: who made it, what it was and what was replied. -/
structure Exchange where
  worker : Nat
  request : Request
  reply : Reply

/-- All exchanges of a log, whoever made them. -/
def script (log : List Exchange) : History := log.map fun e => (e.request, e.reply)

/-- What one worker asked and heard. -/
def heard (i : Nat) (log : List Exchange) : History :=
  log.filterMap fun e => if e.worker = i then some (e.request, e.reply) else none

@[simp] theorem script_concat (log : List Exchange) (e : Exchange) :
    script (log ++ [e]) = script log ++ [(e.request, e.reply)] := by
  simp [script]

theorem heard_concat_self (log : List Exchange) (i : Nat) (r : Request) (reply : Reply) :
    heard i (log ++ [⟨i, r, reply⟩]) = heard i log ++ [(r, reply)] := by
  simp [heard, List.filterMap_append]

theorem heard_concat_of_ne (log : List Exchange) {i j : Nat} (hij : i ≠ j) (r : Request)
    (reply : Reply) : heard i (log ++ [⟨j, r, reply⟩]) = heard i log := by
  simp [heard, List.filterMap_append, hij.symm]

theorem mem_heard {i : Nat} {log : List Exchange} {e : Request × Reply} :
    e ∈ heard i log ↔ ⟨i, e.1, e.2⟩ ∈ log := by
  simp only [heard, List.mem_filterMap]
  constructor
  · rintro ⟨x, hx, he⟩
    split at he
    · next hi =>
      obtain rfl := Option.some.inj he
      rw [← hi]
      exact hx
    · cases he
  · exact fun h => ⟨_, h, by simp⟩

theorem mem_script {log : List Exchange} {e : Request × Reply} :
    e ∈ script log ↔ ∃ i, ⟨i, e.1, e.2⟩ ∈ log := by
  simp only [script, List.mem_map]
  constructor
  · rintro ⟨x, hx, rfl⟩
    exact ⟨x.worker, hx⟩
  · rintro ⟨i, h⟩
    exact ⟨_, h, rfl⟩

theorem History.Ended.script {c i : Nat} {log : List Exchange} (h : Ended c (heard i log)) :
    Ended c (TapeNet.script log) := by
  obtain ⟨e, he⟩ := h
  exact ⟨e, mem_script.mpr ⟨i, mem_heard.mp he⟩⟩

theorem History.Refused.script {t i : Nat} {log : List Exchange} (h : Refused t (heard i log)) :
    Refused t (TapeNet.script log) := by
  obtain ⟨v, e, he⟩ := h
  exact ⟨v, e, mem_script.mpr ⟨i, mem_heard.mp he⟩⟩

/-- What only one worker does can be read off what that worker heard. -/
theorem filterMap_script_eq {β : Type} {log : List Exchange} {i : Nat}
    {f : Request × Reply → Option β}
    (h : ∀ e ∈ log, e.worker ≠ i → f (e.request, e.reply) = none) :
    (script log).filterMap f = (heard i log).filterMap f := by
  induction log with
  | nil => rfl
  | cons e log ih =>
    have htail := ih fun x hx => h x (List.mem_cons_of_mem _ hx)
    simp only [script, heard, List.map_cons, List.filterMap_cons] at htail ⊢
    by_cases hi : e.worker = i
    · simp only [hi, if_true, List.filterMap_cons, htail]
    · -- an exchange of another worker counts for nothing
      simp only [h e List.mem_cons_self hi, hi, if_false, htail]

/-- What is received from a channel is received by the only worker that uses it. -/
theorem received_script_eq {log : List Exchange} {i c : Nat}
    (h : ∀ e ∈ log, e.request = .receive c → e.worker = i) :
    History.received c (script log) = History.received c (heard i log) := by
  refine filterMap_script_eq fun e he hi => ?_
  by_contra hsome
  obtain ⟨v, hv⟩ := Option.ne_none_iff_exists'.mp hsome
  exact hi (h e he (Prod.mk.inj (History.receivedIn_eq_some hv)).1)

/-- What is sent over some senders is sent by the only worker that uses them. -/
theorem sent_script_eq {log : List Exchange} {i : Nat} {on : Nat → Bool}
    (h : ∀ e ∈ log, ∀ t v, e.request = .send t v → on t = true → e.worker = i) :
    History.sent on (script log) = History.sent on (heard i log) := by
  refine filterMap_script_eq fun e he hi => ?_
  by_contra hsome
  obtain ⟨v, hv⟩ := Option.ne_none_iff_exists'.mp hsome
  obtain ⟨t, w, heq, ht⟩ := History.sentIn_eq_some hv
  exact hi (h e he t v (Prod.mk.inj heq).1 ht)

namespace System

variable {α : Type} [Process α]

/-- The exchanges that bring a system from one state to another. -/
inductive Records (s₀ : System α) : List Exchange → System α → Prop
  | start : Records s₀ [] s₀
  | serve {log : List Exchange} {s : System α} {i : Nat} {r : Request} :
      Records s₀ log s → s.request i = some r → s.board.blocks r = false →
        Records s₀ (log ++ [⟨i, r, (s.board.serve r).1⟩]) (s.serve i r)

/-- Every interleaving has a log. -/
theorem exists_records_of_reaches {s₀ s : System α} (h : Reaches s₀ s) :
    ∃ log, Records s₀ log s := by
  induction h with
  | refl => exact ⟨[], .start⟩
  | @step t _ _ hstep ih =>
    obtain ⟨log, hlog⟩ := ih
    obtain ⟨i, hready⟩ := hstep
    simp only [ready] at hready
    split at hready
    · next r hr =>
      rw [Bool.not_eq_true'] at hready
      refine ⟨log ++ [⟨i, r, (t.board.serve r).1⟩], ?_⟩
      rw [advance, hr]
      exact .serve hlog hr hready
    · cases hready

/-- What a schedule makes of a system: the exchanges that are served, in order. -/
def transcript (s : System α) : List Nat → List Exchange
  | [] => []
  | i :: schedule =>
    match s.request i with
    | some r =>
      if s.board.blocks r then s.transcript schedule
      else ⟨i, r, (s.board.serve r).1⟩ :: (s.serve i r).transcript schedule
    | none => s.transcript schedule

/-- A log goes on with the transcript of a schedule. -/
theorem Records.follow {s₀ s : System α} {log : List Exchange} (h : Records s₀ log s)
    (schedule : List Nat) :
    Records s₀ (log ++ s.transcript schedule) (s.follow schedule) := by
  induction schedule generalizing s log with
  | nil =>
    rw [transcript, List.append_nil]
    exact h
  | cons i schedule ih =>
    rw [System.follow, turn, transcript]
    cases hr : s.request i with
    | none => exact ih h
    | some r =>
      simp only
      split
      · exact ih h
      · next hb =>
        have hserved := ih (h.serve hr (Bool.eq_false_iff.mpr hb))
        rwa [List.append_assoc, List.singleton_append] at hserved

theorem records_transcript (s : System α) (schedule : List Nat) :
    Records s (s.transcript schedule) (s.follow schedule) :=
  Records.start.follow schedule

@[simp] theorem board_serve (s : System α) (i : Nat) (r : Request) :
    (s.serve i r).board = (s.board.serve r).2 := rfl

theorem getElem?_workers_serve (s : System α) (i j : Nat) (r : Request) :
    (s.serve i r).workers[j]? =
      if i = j then s.workers[j]?.map (Process.resume · (s.board.serve r).1)
      else s.workers[j]? := by
  show (s.workers.modify i fun w => Process.resume w (s.board.serve r).1)[j]? = _
  rw [Array.getElem?_modify]

/-- After a step, a worker is either the one it was or the one who took the step. -/
theorem worker_serve_cases {s : System α} {i j : Nat} {r : Request} {q : α}
    (h : (s.serve i r).workers[j]? = some q) :
    (i ≠ j ∧ s.workers[j]? = some q) ∨
      (i = j ∧ ∃ p, s.workers[j]? = some p ∧ q = Process.resume p (s.board.serve r).1) := by
  rw [getElem?_workers_serve] at h
  split at h
  · next hij =>
    obtain ⟨p, hp, hq⟩ := Option.map_eq_some_iff.mp h
    exact .inr ⟨hij, p, hp, hq.symm⟩
  · next hij => exact .inl ⟨hij, h⟩

theorem worker_serve_self {s : System α} {i : Nat} {r : Request} {p : α}
    (h : s.workers[i]? = some p) :
    (s.serve i r).workers[i]? = some (Process.resume p (s.board.serve r).1) := by
  rw [getElem?_workers_serve, if_pos rfl, h]
  rfl

theorem worker_serve_of_ne {s : System α} {i j : Nat} {r : Request} (hij : i ≠ j) :
    (s.serve i r).workers[j]? = s.workers[j]? := by
  rw [getElem?_workers_serve, if_neg hij]

/-- Who made the request of a worker. -/
theorem exists_worker_of_request {s : System α} {i : Nat} {r : Request}
    (h : s.request i = some r) : ∃ p, s.workers[i]? = some p ∧ Process.request p = some r := by
  simpa only [request, Option.bind_eq_some_iff] using h

/-- In a system that has finished no worker has a request. -/
theorem request_of_finished {s : System α} (hf : s.finished = true) {i : Nat} {p : α}
    (hp : s.workers[i]? = some p) : Process.request p = none := by
  have hmem : p ∈ s.workers := Array.mem_iff_getElem?.mpr ⟨i, hp⟩
  have hall := Array.all_eq_true_iff_forall_mem.mp hf p hmem
  exact Option.isNone_iff_eq_none.mp hall

/-- What a worker is now is the end of the story of what it was at the start. -/
theorem Records.story {s₀ s : System α} {log : List Exchange} (h : Records s₀ log s) {i : Nat}
    {p : α} (hp : s.workers[i]? = some p) :
    ∃ p₀, s₀.workers[i]? = some p₀ ∧ Process.Story p₀ (heard i log) p := by
  induction h generalizing p with
  | start => exact ⟨p, hp, .start⟩
  | @serve log s j r _ hr _ ih =>
    rw [getElem?_workers_serve] at hp
    split at hp
    · next hij =>
      -- the worker that made the request hears one more reply
      subst hij
      obtain ⟨q, hq, hreq⟩ := exists_worker_of_request hr
      rw [hq] at hp
      obtain rfl := Option.some.inj hp
      obtain ⟨p₀, hp₀, hstory⟩ := ih hq
      refine ⟨p₀, hp₀, ?_⟩
      rw [heard_concat_self]
      exact .hear _ hstory hreq
    · next hij =>
      -- all others hear nothing
      obtain ⟨p₀, hp₀, hstory⟩ := ih hp
      refine ⟨p₀, hp₀, ?_⟩
      rw [heard_concat_of_ne _ (Ne.symm hij)]
      exact hstory

/-- No worker ever disappears. -/
theorem Records.exists_worker {s₀ s : System α} {log : List Exchange} (h : Records s₀ log s)
    {i : Nat} {p₀ : α} (hp₀ : s₀.workers[i]? = some p₀) :
    ∃ p, s.workers[i]? = some p ∧ Process.Story p₀ (heard i log) p := by
  have hsome : ∃ p, s.workers[i]? = some p := by
    induction h with
    | start => exact ⟨p₀, hp₀⟩
    | serve _ _ _ ih =>
      obtain ⟨p, hp⟩ := ih
      rw [getElem?_workers_serve, hp]
      split
      · exact ⟨_, rfl⟩
      · exact ⟨p, rfl⟩
  obtain ⟨p, hp⟩ := hsome
  obtain ⟨q, hq, hstory⟩ := h.story hp
  rw [hp₀] at hq
  obtain rfl := Option.some.inj hq
  exact ⟨p, hp, hstory⟩

/-- Who made an exchange is a worker, and the exchange is part of its story. -/
theorem Records.story_of_mem {s₀ s : System α} {log : List Exchange} (h : Records s₀ log s)
    {e : Exchange} (he : e ∈ log) :
    ∃ p₀ p, s₀.workers[e.worker]? = some p₀ ∧ Process.Story p₀ (heard e.worker log) p := by
  have hstart : ∃ p₀, s₀.workers[e.worker]? = some p₀ := by
    induction h with
    | start => exact absurd he List.not_mem_nil
    | serve hrec hr _ ih =>
      rcases List.mem_append.mp he with hold | hnew
      · exact ih hold
      · obtain rfl := List.mem_singleton.mp hnew
        obtain ⟨q, hq, -⟩ := exists_worker_of_request hr
        obtain ⟨p₀, hp₀, -⟩ := hrec.story hq
        exact ⟨p₀, hp₀⟩
  obtain ⟨p₀, hp₀⟩ := hstart
  obtain ⟨p, -, hp⟩ := h.exists_worker hp₀
  exact ⟨p₀, p, hp₀, hp⟩

end System

end TapeNet
