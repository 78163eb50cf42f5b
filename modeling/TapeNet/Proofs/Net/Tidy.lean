import TapeNet.Proofs.Net.Tenancy

/-! # Tidy systems

    A system of tenants is tidy if its switchboard and its workers agree on
    who has what.

    - A sender is open if and only if some worker holds it, and then only one
      does; a receiver that a worker holds is open, and only one worker holds
      it.
    - Every step of every worker keeps a system tidy (`Tidy.serve`), so it is
      tidy in every interleaving (`Records.tidy`).
    - A worker never uses an endpoint that it did not hold at the start
      (`Records.holder_of_sender`, `Records.reader_of_channel`).
-/

namespace TapeNet

open Tenant

variable {α : Type} [Process α] [Tenant α]

/-! ### One process -/

namespace Process

/-- A sound process stays sound, whatever it hears. -/
theorem Story.sound {p₀ p : α} {h : History} (hs : Story p₀ h p) (h₀ : Sound p₀) : Sound p := by
  induction hs with
  | start => exact h₀
  | hear reply _ hr ih => exact sound_resume reply ih hr

/-- A process never gets an endpoint that it did not hold. -/
theorem Story.holds_subset {p₀ p : α} {h : History} (hs : Story p₀ h p) :
    holds p ⊆ holds p₀ ∧ reads p ⊆ reads p₀ := by
  induction hs with
  | start => exact ⟨List.Subset.refl _, List.Subset.refl _⟩
  | @hear h p r reply _ hr ih =>
    rw [holds_resume reply hr, reads_resume reply hr]
    constructor
    · intro t ht
      cases r with
      | closeSender u => exact ih.1 (List.mem_of_mem_erase ht)
      | _ => exact ih.1 ht
    · intro c hc
      cases r with
      | closeReceiver d => exact ih.2 (List.mem_of_mem_erase hc)
      | _ => exact ih.2 hc

/-- All that a process ever asked concerned endpoints that it held at the start. -/
theorem Story.uses_held {p₀ p : α} {h : History} (hs : Story p₀ h p) (h₀ : Sound p₀)
    {e : Request × Reply} (he : e ∈ h) :
    (∀ t, e.1.sender? = some t → t ∈ holds p₀) ∧ (∀ c, e.1.channel? = some c → c ∈ reads p₀) := by
  induction hs with
  | start => exact absurd he List.not_mem_nil
  | @hear h p r reply hprev hr ih =>
    rcases List.mem_append.mp he with hold | hnew
    · exact ih hold
    · obtain rfl := List.mem_singleton.mp hnew
      have hsound := hprev.sound h₀
      constructor
      · exact fun t ht => hprev.holds_subset.1 (sender_mem hsound hr ht)
      · exact fun c hc => hprev.holds_subset.2 (channel_mem hsound hr hc)

end Process

namespace System

/-! ### The invariant -/

/-- The switchboard and the workers agree on who has what. -/
structure Tidy (s : System α) : Prop where
  counted : s.board.Counted
  sound : ∀ {i : Nat} {p : α}, s.workers[i]? = some p → Sound p
  isOpen_iff : ∀ t, (s.board.sender t).isOpen = true ↔
    ∃ (i : Nat) (p : α), s.workers[i]? = some p ∧ t ∈ holds p
  holder_unique : ∀ {i j : Nat} {p q : α} {t : Nat}, s.workers[i]? = some p →
    s.workers[j]? = some q → t ∈ holds p → t ∈ holds q → i = j
  receiverOpen : ∀ {i : Nat} {p : α} {c : Nat}, s.workers[i]? = some p → c ∈ reads p →
    (s.board.channel c).receiverOpen = true
  reader_unique : ∀ {i j : Nat} {p q : α} {c : Nat}, s.workers[i]? = some p →
    s.workers[j]? = some q → c ∈ reads p → c ∈ reads q → i = j

/-- Whoever uses a sender holds it, so it is open. -/
theorem Tidy.isOpen_of_request {s : System α} (hs : s.Tidy) {i t : Nat} {r : Request}
    (hr : s.request i = some r) (ht : r.sender? = some t) : (s.board.sender t).isOpen = true := by
  obtain ⟨p, hp, hreq⟩ := exists_worker_of_request hr
  exact (hs.isOpen_iff t).mpr ⟨i, p, hp, sender_mem (hs.sound hp) hreq ht⟩

/-- Whoever uses a receiver holds it, so it is open. -/
theorem Tidy.receiverOpen_of_request {s : System α} (hs : s.Tidy) {i c : Nat} {r : Request}
    (hr : s.request i = some r) (hc : r.channel? = some c) :
    (s.board.channel c).receiverOpen = true := by
  obtain ⟨p, hp, hreq⟩ := exists_worker_of_request hr
  exact hs.receiverOpen hp (channel_mem (hs.sound hp) hreq hc)

/-- What a worker holds after a step, it held before, and the step did not close it. -/
theorem Tidy.holds_before {s : System α} (hs : s.Tidy) {i j : Nat} {r : Request}
    (hr : s.request i = some r) {q : α} (hq : (s.serve i r).workers[j]? = some q) {t : Nat}
    (ht : t ∈ holds q) :
    r ≠ .closeSender t ∧ ∃ p, s.workers[j]? = some p ∧ t ∈ holds p := by
  obtain ⟨pi, hpi, hreq⟩ := exists_worker_of_request hr
  rcases worker_serve_cases hq with ⟨hij, hj⟩ | ⟨rfl, p, hp, rfl⟩
  · -- another worker closed something, but nobody else holds this sender
    refine ⟨?_, q, hj, ht⟩
    rintro rfl
    exact hij (hs.holder_unique hpi hj (sender_mem (hs.sound hpi) hreq rfl) ht)
  · rw [hp] at hpi
    obtain rfl := Option.some.inj hpi
    rw [holds_resume _ hreq, Request.mem_sendersLeft (nodup_holds (hs.sound hp))] at ht
    exact ⟨ht.2, p, hp, ht.1⟩

/-- What a worker reads after a step, it read before, and the step did not close it. -/
theorem Tidy.reads_before {s : System α} (hs : s.Tidy) {i j : Nat} {r : Request}
    (hr : s.request i = some r) {q : α} (hq : (s.serve i r).workers[j]? = some q) {c : Nat}
    (hc : c ∈ reads q) :
    r ≠ .closeReceiver c ∧ ∃ p, s.workers[j]? = some p ∧ c ∈ reads p := by
  obtain ⟨pi, hpi, hreq⟩ := exists_worker_of_request hr
  rcases worker_serve_cases hq with ⟨hij, hj⟩ | ⟨rfl, p, hp, rfl⟩
  · -- another worker closed something, but nobody else has this receiver
    refine ⟨?_, q, hj, hc⟩
    rintro rfl
    exact hij (hs.reader_unique hpi hj (channel_mem (hs.sound hpi) hreq rfl) hc)
  · rw [hp] at hpi
    obtain rfl := Option.some.inj hpi
    rw [reads_resume _ hreq, Request.mem_receiversLeft (nodup_reads p)] at hc
    exact ⟨hc.2, p, hp, hc.1⟩

/-- Every step of every worker keeps a system tidy. -/
theorem Tidy.serve {s : System α} (hs : s.Tidy) {i : Nat} {r : Request}
    (hr : s.request i = some r) (hb : s.board.blocks r = false) : (s.serve i r).Tidy where
  counted := hs.counted.serve hb
  sound {j q} hq := by
    obtain ⟨pi, hpi, hreq⟩ := exists_worker_of_request hr
    rcases worker_serve_cases hq with ⟨-, hj⟩ | ⟨rfl, p, hp, rfl⟩
    · exact hs.sound hj
    · rw [hp] at hpi
      obtain rfl := Option.some.inj hpi
      exact sound_resume _ (hs.sound hp) hreq
  isOpen_iff t := by
    obtain ⟨pi, hpi, hreq⟩ := exists_worker_of_request hr
    rw [board_serve, Switchboard.sender_serve _ hb]
    constructor
    · intro hopen
      split at hopen
      · cases hopen
      · next hne =>
        -- it was open before, and whoever held it holds it still
        obtain ⟨j, p, hp, ht⟩ := (hs.isOpen_iff t).mp hopen
        by_cases hij : i = j
        · subst hij
          refine ⟨i, _, worker_serve_self hp, ?_⟩
          rw [hp] at hpi
          obtain rfl := Option.some.inj hpi
          rw [holds_resume _ hreq, Request.mem_sendersLeft (nodup_holds (hs.sound hp))]
          exact ⟨ht, hne⟩
        · exact ⟨j, p, (worker_serve_of_ne hij).trans hp, ht⟩
    · -- who holds it now held it before, and nobody has closed it
      rintro ⟨j, q, hq, ht⟩
      obtain ⟨hne, p, hp, hold⟩ := hs.holds_before hr hq ht
      rw [if_neg hne]
      exact (hs.isOpen_iff t).mpr ⟨j, p, hp, hold⟩
  holder_unique {j k q q' t} hq hq' ht ht' := by
    obtain ⟨-, p, hp, hold⟩ := hs.holds_before hr hq ht
    obtain ⟨-, p', hp', hold'⟩ := hs.holds_before hr hq' ht'
    exact hs.holder_unique hp hp' hold hold'
  receiverOpen {j q c} hq hc := by
    obtain ⟨hne, p, hp, hold⟩ := hs.reads_before hr hq hc
    rw [board_serve, Switchboard.receiverOpen_serve _ hb]
    exact ⟨hs.receiverOpen hp hold, hne⟩
  reader_unique {j k q q' c} hq hq' hc hc' := by
    obtain ⟨-, p, hp, hold⟩ := hs.reads_before hr hq hc
    obtain ⟨-, p', hp', hold'⟩ := hs.reads_before hr hq' hc'
    exact hs.reader_unique hp hp' hold hold'

/-! ### Runs of a tidy system -/

variable {s₀ s : System α} {log : List Exchange}

/-- A system is tidy in every interleaving. -/
theorem Records.tidy (h : Records s₀ log s) (h₀ : s₀.Tidy) : s.Tidy := by
  induction h with
  | start => exact h₀
  | serve _ hr hb ih => exact ih.serve hr hb

omit [Tenant α] in
/-- A sender belongs to the same channel all the time. -/
theorem Records.channel_sender (h : Records s₀ log s) (t : Nat) :
    (s.board.sender t).channel = (s₀.board.sender t).channel := by
  induction h with
  | start => rfl
  | serve _ _ hb ih => rw [board_serve, Switchboard.channel_sender_serve _ hb, ih]

/-- Only who held a sender at the start ever uses it. -/
theorem Records.holder_of_sender (h : Records s₀ log s) (h₀ : s₀.Tidy) {e : Exchange}
    (he : e ∈ log) {t : Nat} (ht : e.request.sender? = some t) :
    ∃ p₀, s₀.workers[e.worker]? = some p₀ ∧ t ∈ holds p₀ := by
  obtain ⟨p₀, p, hp₀, hstory⟩ := h.story_of_mem he
  have hmem : (e.request, e.reply) ∈ heard e.worker log := mem_heard.mpr he
  exact ⟨p₀, hp₀, (hstory.uses_held (h₀.sound hp₀) hmem).1 t ht⟩

/-- Only who held a receiver at the start ever uses it. -/
theorem Records.reader_of_channel (h : Records s₀ log s) (h₀ : s₀.Tidy) {e : Exchange}
    (he : e ∈ log) {c : Nat} (hc : e.request.channel? = some c) :
    ∃ p₀, s₀.workers[e.worker]? = some p₀ ∧ c ∈ reads p₀ := by
  obtain ⟨p₀, p, hp₀, hstory⟩ := h.story_of_mem he
  have hmem : (e.request, e.reply) ∈ heard e.worker log := mem_heard.mpr he
  exact ⟨p₀, hp₀, (hstory.uses_held (h₀.sound hp₀) hmem).2 c hc⟩

end System

end TapeNet
