import TapeNet.Net.Remote
import TapeNet.Proofs.Net.StationStory

/-! # What a remote control does

    A remote control passes on what its pilot says, and lets it hear what it
    receives. Seen from its machine, a pilot turns what it hears into what it
    says.

    - `Pilot.Flow p₀ cs zs p`: a pilot that was never refused got from `p₀` to
      `p`; it said `cs` and heard `zs`.
    - `exchange_cases` lists all that one exchange of a remote control can
      be, and `remote_story` is what it comes to: a flow of its pilot, or a
      flow and then the refusal at which the pilot gave up.
    - A remote control is a tenant: it holds its two endpoints until it has
      closed them.
-/

namespace TapeNet

/-! ### Pilots as functions of what they hear -/

namespace Pilot

variable {γ : Type} [Pilot γ]

/-- What a pilot said and heard that was never refused. -/
inductive Flow (p₀ : γ) : List Int → List Int → γ → Prop
  | start : Flow p₀ [] [] p₀
  | say {cs zs : List Int} {p : γ} {v : Int} :
      Flow p₀ cs zs p → intent p = .send v → Flow p₀ (cs ++ [v]) zs (hear p (.ok 0))
  | hear {cs zs : List Int} {p : γ} (v : Int) :
      Flow p₀ cs zs p → intent p = .receive → Flow p₀ cs (zs ++ [v]) (hear p (.ok v))

/-- A pilot of this kind wants to stop as soon as it is refused. -/
def GivesUp (γ : Type) [Pilot γ] : Prop :=
  ∀ (p : γ) (e : PortError), intent (Pilot.hear p (.error e)) = .stop

end Pilot

namespace Remote

open History Process TapeNet.System

variable {γ : Type} [Pilot γ]

/-! ### One exchange -/

/-- What a remote control asks for, by its stage. -/
theorem request_cases {r : Remote γ} {q : Request} (hq : r.request = some q) :
    (r.stage = .talking ∧ (∃ v, Pilot.intent r.pilot = .send v ∧ q = .send r.outgoing v)) ∨
    (r.stage = .talking ∧ Pilot.intent r.pilot = .receive ∧ q = .receive r.incoming) ∨
    (r.stage = .talking ∧ Pilot.intent r.pilot = .stop ∧ q = .closeSender r.outgoing) ∨
    (r.stage = .closingIncoming ∧ q = .closeReceiver r.incoming) := by
  obtain ⟨pilot, outgoing, incoming, stage⟩ := r
  cases stage with
  | talking =>
    cases hi : Pilot.intent pilot with
    | send v => exact .inl ⟨rfl, v, rfl, by simpa [request, hi] using hq.symm⟩
    | receive => exact .inr (.inl ⟨rfl, rfl, by simpa [request, hi] using hq.symm⟩)
    | stop => exact .inr (.inr (.inl ⟨rfl, rfl, by simpa [request, hi] using hq.symm⟩))
  | closingIncoming => exact .inr (.inr (.inr ⟨rfl, (Option.some.inj hq).symm⟩))
  | finished => cases hq

/-- All that an exchange of a remote control can be: its pilot says a value or is refused it, it
    hears a value or finds the end, or an endpoint is closed, which the pilot does not notice. -/
theorem exchange_cases {r : Remote γ} {q : Request} {reply : Reply} (hq : r.request = some q)
    (hp : Plain (q, reply)) :
    (∃ v, r.stage = .talking ∧ Pilot.intent r.pilot = .send v ∧ q = .send r.outgoing v ∧
      r.resume reply = { r with pilot := Pilot.hear r.pilot reply } ∧
      (reply = .ok 0 ∨ ∃ cause, reply = .error (.closed cause))) ∨
    (r.stage = .talking ∧ Pilot.intent r.pilot = .receive ∧ q = .receive r.incoming ∧
      r.resume reply = { r with pilot := Pilot.hear r.pilot reply } ∧
      ((∃ v, reply = .ok v) ∨ ∃ cause, reply = .error (.closed cause))) ∨
    ((r.stage = .talking → Pilot.intent r.pilot = .stop) ∧
      (q = .closeSender r.outgoing ∨ q = .closeReceiver r.incoming) ∧
      (r.resume reply).pilot = r.pilot ∧ (r.resume reply).stage ≠ .talking) := by
  rcases request_cases hq with ⟨hs, v, hi, rfl⟩ | ⟨hs, hi, rfl⟩ | ⟨hs, hi, rfl⟩ | ⟨hs, rfl⟩
  · refine .inl ⟨v, hs, hi, rfl, by simp [resume, hs, hi], ?_⟩
    cases hp with
    | served _ => exact .inl rfl
    | refused _ _ cause => exact .inr ⟨cause, rfl⟩
  · refine .inr (.inl ⟨hs, hi, rfl, by simp [resume, hs, hi], ?_⟩)
    cases hp with
    | received _ v => exact .inl ⟨v, rfl⟩
    | ended _ cause => exact .inr ⟨cause, rfl⟩
    | served hr => exact absurd rfl (hr r.incoming)
  · exact .inr (.inr ⟨fun _ => hi, .inl rfl, by simp [resume, hs, hi], by simp [resume, hs, hi]⟩)
  · have hquiet : r.stage ≠ .talking := by rw [hs]; exact Stage.noConfusion
    exact .inr (.inr ⟨fun h => absurd h hquiet, .inr rfl, by simp [resume, hs],
      by simp [resume, hs]⟩)

@[simp] theorem outgoing_resume (r : Remote γ) (reply : Reply) :
    (r.resume reply).outgoing = r.outgoing := by
  unfold resume
  split
  · split <;> rfl
  · rfl

@[simp] theorem incoming_resume (r : Remote γ) (reply : Reply) :
    (r.resume reply).incoming = r.incoming := by
  unfold resume
  split
  · split <;> rfl
  · rfl

/-! ### Stories -/

/-- How a pilot came to be what it is: it was never refused, or it gave up when a value was refused,
    or when it found the end of what it could hear. -/
inductive Account (p₀ : γ) (t c : Nat) (h : History) : γ → Prop
  | going {p : γ} :
      Pilot.Flow p₀ (sent (· == t) h) (received c h) p → Account p₀ t c h p
  | refused {p : γ} {v : Int} (e : PortError) :
      Pilot.Flow p₀ (sent (· == t) h) (received c h) p → Pilot.intent p = .send v → Refused t h →
        Account p₀ t c h (Pilot.hear p (.error e))
  | ended {p : γ} (e : PortError) :
      Pilot.Flow p₀ (sent (· == t) h) (received c h) p → Pilot.intent p = .receive → Ended c h →
        Account p₀ t c h (Pilot.hear p (.error e))

variable {p₀ p : γ} {t c : Nat} {h : History}

/-- A pilot notices no exchange that carries no value. -/
theorem Account.silent (ha : Account p₀ t c h p) {e : Request × Reply}
    (hsent : sentIn (· == t) e = none) (hreceived : receivedIn c e = none) :
    Account p₀ t c (h ++ [e]) p := by
  have hflow : ∀ q : γ, Pilot.Flow p₀ (sent (· == t) h) (received c h) q →
      Pilot.Flow p₀ (sent (· == t) (h ++ [e])) (received c (h ++ [e])) q := by
    intro q hq
    rw [sent_concat, received_concat, hsent, hreceived]
    simpa using hq
  cases ha with
  | going hq => exact .going (hflow _ hq)
  | refused cause hq hi hr => exact .refused cause (hflow _ hq) hi (hr.mono e)
  | ended cause hq hi he => exact .ended cause (hflow _ hq) hi (he.mono e)

/-- A pilot that still wants something was never refused. -/
theorem Account.flow_of_intent (hgives : Pilot.GivesUp γ) (ha : Account p₀ t c h p)
    (hi : Pilot.intent p ≠ .stop) :
    Pilot.Flow p₀ (sent (· == t) h) (received c h) p := by
  cases ha with
  | going hq => exact hq
  | refused cause _ _ _ => exact absurd (hgives _ _) hi
  | ended cause _ _ _ => exact absurd (hgives _ _) hi

theorem Account.flow_or_refused (ha : Account p₀ t c h p) :
    Pilot.Flow p₀ (sent (· == t) h) (received c h) p ∨
      (Refused t h ∨ Ended c h) ∧ ∃ q : γ, Pilot.Flow p₀ (sent (· == t) h) (received c h) q := by
  cases ha with
  | going hq => exact .inl hq
  | refused cause hq _ hr => exact .inr ⟨.inl hr, _, hq⟩
  | ended cause hq _ he => exact .inr ⟨.inr he, _, hq⟩

/-- One more exchange of a remote control. -/
theorem Account.exchange (hgives : Pilot.GivesUp γ) {r : Remote γ}
    (ha : Account p₀ r.outgoing r.incoming h r.pilot) {q : Request} {reply : Reply}
    (hq : r.request = some q) (hp : Plain (q, reply)) :
    Account p₀ r.outgoing r.incoming (h ++ [(q, reply)]) (r.resume reply).pilot := by
  rcases exchange_cases hq hp with
    ⟨v, -, hi, rfl, hresume, hreply⟩ | ⟨-, hi, rfl, hresume, hreply⟩ | ⟨-, hclose, hpilot, -⟩
  · -- it says a value, or gives up at it
    have hflow := ha.flow_of_intent hgives (by rw [hi]; exact Intent.noConfusion)
    rw [hresume]
    rcases hreply with rfl | ⟨cause, rfl⟩
    · refine .going ?_
      rw [sent_concat, received_concat]
      simpa [sentIn, receivedIn] using hflow.say hi
    · refine .refused _ ?_ hi (refused_concat.mpr (.inr ⟨v, _, rfl⟩))
      rw [sent_concat, received_concat]
      simpa [sentIn, receivedIn] using hflow
  · -- it hears a value, or gives up at the end
    have hflow := ha.flow_of_intent hgives (by rw [hi]; exact Intent.noConfusion)
    rw [hresume]
    rcases hreply with ⟨v, rfl⟩ | ⟨cause, rfl⟩
    · refine .going ?_
      rw [sent_concat, received_concat]
      simpa [sentIn, receivedIn] using hflow.hear v hi
    · refine .ended _ ?_ hi (ended_concat.mpr (.inr ⟨_, rfl⟩))
      rw [sent_concat, received_concat]
      simpa [sentIn, receivedIn] using hflow
  · -- closing carries no value
    rw [hpilot]
    rcases hclose with rfl | rfl
    · exact ha.silent rfl rfl
    · exact ha.silent rfl rfl

/-- The history of a remote control is a flow of its pilot, until the pilot gave up. Once an endpoint
    is closed, the pilot wants nothing any more. -/
theorem remote_story (hgives : Pilot.GivesUp γ) {r : Remote γ}
    (hs : Story (⟨p₀, t, c, .talking⟩ : Remote γ) h r) (hp : ∀ e ∈ h, Plain e) :
    Account p₀ t c h r.pilot ∧ (r.stage ≠ .talking → Pilot.intent r.pilot = .stop) := by
  -- by induction on the history; the second part says that closing comes after all talking
  induction hs with
  | start => exact ⟨.going .start, fun hstage => absurd rfl hstage⟩
  | @hear h r q reply hprev hq ih =>
    have hout : r.outgoing = t := hprev.keeps outgoing outgoing_resume
    have hinc : r.incoming = c := hprev.keeps incoming incoming_resume
    obtain ⟨hacc, hstop⟩ := ih fun e he => hp e (List.mem_append_left _ he)
    have hlast := hp (q, reply) (List.mem_append_right _ (List.mem_singleton_self _))
    subst hout hinc
    refine ⟨hacc.exchange hgives hq hlast, fun hstage => ?_⟩
    rcases exchange_cases hq hlast with
      ⟨v, htalking, -, -, hresume, -⟩ | ⟨htalking, -, -, hresume, -⟩ | ⟨hintent, -, hpilot, -⟩
    · -- a pilot that said something has closed nothing
      exact absurd (by rw [show Process.resume r reply = _ from hresume]; exact htalking) hstage
    · exact absurd (by rw [show Process.resume r reply = _ from hresume]; exact htalking) hstage
    · show Pilot.intent (r.resume reply).pilot = .stop
      rw [hpilot]
      by_cases htalking : r.stage = .talking
      · exact hintent htalking
      · exact hstop htalking

/-! ### Tenancy -/

/-- The sender to the machine, until it is closed. -/
def held (r : Remote γ) : List Nat :=
  match r.stage with
  | .talking => [r.outgoing]
  | _ => []

/-- The channel from the machine, until it is closed. -/
def read (r : Remote γ) : List Nat :=
  match r.stage with
  | .finished => []
  | _ => [r.incoming]

theorem held_resume {r : Remote γ} {q : Request} (reply : Reply) (hq : r.request = some q) :
    (r.resume reply).held = q.sendersLeft r.held := by
  obtain ⟨pilot, outgoing, incoming, stage⟩ := r
  rcases request_cases hq with ⟨rfl, v, hi, rfl⟩ | ⟨rfl, hi, rfl⟩ | ⟨rfl, hi, rfl⟩ | ⟨rfl, rfl⟩
  · simp only at hi
    simp [resume, hi, held, Request.sendersLeft]
  · simp only at hi
    simp [resume, hi, held, Request.sendersLeft]
  · simp only at hi
    simp [resume, hi, held, Request.sendersLeft]
  · rfl

theorem read_resume {r : Remote γ} {q : Request} (reply : Reply) (hq : r.request = some q) :
    (r.resume reply).read = q.receiversLeft r.read := by
  obtain ⟨pilot, outgoing, incoming, stage⟩ := r
  rcases request_cases hq with ⟨rfl, v, hi, rfl⟩ | ⟨rfl, hi, rfl⟩ | ⟨rfl, hi, rfl⟩ | ⟨rfl, rfl⟩
  · simp only at hi
    simp [resume, hi, read, Request.receiversLeft]
  · simp only at hi
    simp [resume, hi, read, Request.receiversLeft]
  · simp only at hi
    simp [resume, hi, read, Request.receiversLeft]
  · exact (List.erase_cons_head incoming []).symm

instance : Tenant (Remote γ) where
  holds := held
  reads := read
  Sound _ := True
  sound_resume _ _ _ := trivial
  holds_resume := held_resume
  reads_resume := read_resume
  sender_mem {r q t} _ hq ht := by
    rcases request_cases hq with ⟨hs, v, -, rfl⟩ | ⟨-, -, rfl⟩ | ⟨hs, -, rfl⟩ | ⟨-, rfl⟩
    · obtain rfl := Option.some.inj ht
      simp [held, hs]
    · cases ht
    · obtain rfl := Option.some.inj ht
      simp [held, hs]
    · cases ht
  channel_mem {r q c} _ hq hc := by
    rcases request_cases hq with ⟨-, v, -, rfl⟩ | ⟨hs, -, rfl⟩ | ⟨-, -, rfl⟩ | ⟨hs, rfl⟩
    · cases hc
    · obtain rfl := Option.some.inj hc
      simp [read, hs]
    · cases hc
    · obtain rfl := Option.some.inj hc
      simp [read, hs]
  nodup_holds {r} _ := by
    unfold held
    split
    · exact List.nodup_singleton _
    · exact List.nodup_nil
  nodup_reads r := by
    unfold read
    split
    · exact List.nodup_nil
    · exact List.nodup_singleton _
  free_of_finished {r} hq := by
    obtain ⟨pilot, outgoing, incoming, stage⟩ := r
    cases stage with
    | talking =>
      have hnone : Remote.request ⟨pilot, outgoing, incoming, .talking⟩ = none := hq
      cases hi : Pilot.intent pilot <;> simp [request, hi] at hnone
    | closingIncoming => cases hq
    | finished => exact ⟨rfl, rfl⟩

end Remote

end TapeNet
