import TapeNet.Proofs.Machine.Flow
import TapeNet.Proofs.Net.Tenancy
import TapeNet.Proofs.Net.Fifo

/-! # What a station does

    A station passes on what its machine does, and nothing else: what it
    received is what the machine took, and what it sent is what the machine
    gave.

    - `Stopped`: the three ways in which a machine can stop at a station. It
      found its inbox ended, its outlet refused a value, or it ended of its
      own accord.
    - `station_story`: a station is at work or its machine has stopped, and
      either way its history is a flow of the machine.
-/

namespace TapeNet

/-- The fault with which an outcome breaks off, if it does. -/
def Outcome.fault? : Outcome → Option Fault
  | .failed fault => some fault
  | _ => none

namespace Station

open History Process Machine TapeNet.System

/-- A station at work still has a request. -/
theorem not_working_of_request_eq_none {w : Station} (h : w.request = none) :
    w.stage ≠ .working := by
  intro hworking
  rw [request, hworking] at h
  cases h

/-- How a machine came to stop that had taken `xs` and given `ys`, and with which fault. -/
inductive Stopped (m₀ : Machine) (c t : Nat) (h : History) (xs ys : List Int) :
    Option Fault → Prop
  /-- it waited for an input, and the inbox had ended -/
  | starved {n : Nat} {m : Machine} :
      Flow m₀ n xs ys m → m.demand = .get → Ended c h → Stopped m₀ c t h xs ys none
  /-- it had a value to give, and the outlet refused it -/
  | refused {n : Nat} {m : Machine} :
      Flow m₀ n xs ys m → Refused t h → Stopped m₀ c t h xs ys none
  /-- it ended of its own accord -/
  | ended {o : Outcome} : Ends m₀ xs ys o → Stopped m₀ c t h xs ys o.fault?

theorem Stopped.mono {m₀ : Machine} {c t : Nat} {h : History} {xs ys : List Int}
    {fault : Option Fault} (hs : Stopped m₀ c t h xs ys fault) (e : Request × Reply) :
    Stopped m₀ c t (h ++ [e]) xs ys fault := by
  cases hs with
  | starved hflow hget hend => exact .starved hflow hget (hend.mono e)
  | refused hflow hrefused => exact .refused hflow (hrefused.mono e)
  | ended hends => exact .ended hends

/-- What a station has done: its machine has gone on all the time, or it has stopped. -/
def Account (m₀ : Machine) (c t : Nat) (h : History) (w : Station) : Prop :=
  (w.stage = .working ∧ ∃ n, Flow m₀ n (received c h) (sent (· == t) h) w.machine) ∨
    (w.stage ≠ .working ∧ Stopped m₀ c t h (received c h) (sent (· == t) h) w.fault)

/-- What one exchange of a working station adds to its history. -/
theorem exchange_working {w : Station} {reply : Reply}
    (hp : Plain (w.requestFor w.machine.demand, reply)) :
    (∃ r, reply = .ok r ∧ w.machine.demand.Admits r ∧
      (receivedIn w.inbox (w.requestFor w.machine.demand, reply)).toList =
        w.machine.demand.taken r ∧
      (sentIn (· == w.outlet) (w.requestFor w.machine.demand, reply)).toList =
        w.machine.demand.given) ∨
    (∃ cause, reply = .error (.closed cause) ∧
      (w.machine.demand = .get ∨ ∃ v, w.machine.demand = .put v)) := by
  cases hd : w.machine.demand with
  | silent =>
    rw [hd] at hp
    cases hp with
    | served _ => exact .inl ⟨0, rfl, fun _ => rfl, rfl, rfl⟩
  | get =>
    rw [hd] at hp
    cases hp with
    | received _ v =>
      refine .inl ⟨v, rfl, fun h => absurd rfl h, ?_, rfl⟩
      simp [receivedIn, requestFor, Demand.taken]
    | ended _ cause => exact .inr ⟨cause, rfl, .inl rfl⟩
    | served hr => exact absurd rfl (hr w.inbox)
  | put v =>
    rw [hd] at hp
    cases hp with
    | served _ =>
      refine .inl ⟨0, rfl, fun _ => rfl, rfl, ?_⟩
      simp [sentIn, requestFor, Demand.given]
    | refused _ _ cause => exact .inr ⟨cause, rfl, .inr ⟨v, rfl⟩⟩

theorem Account.work {m₀ : Machine} {c t : Nat} {h : History} {w : Station} {n : Nat}
    (hinbox : w.inbox = c) (houtlet : w.outlet = t) (hstage : w.stage = .working)
    (hflow : Flow m₀ n (received c h) (sent (· == t) h) w.machine) {reply : Reply}
    (hp : Plain (w.requestFor w.machine.demand, reply)) :
    Account m₀ c t (h ++ [(w.requestFor w.machine.demand, reply)]) (w.resume reply) := by
  obtain ⟨m, inbox, outlet, stage, fault⟩ := w
  obtain rfl : inbox = c := hinbox
  obtain rfl : outlet = t := houtlet
  obtain rfl : stage = .working := hstage
  show Account _ _ _ _ (settle inbox outlet (m.resume reply))
  rcases exchange_working hp with ⟨r, rfl, hadmits, htaken, hgiven⟩ | ⟨cause, rfl, hd⟩
  · -- the machine got what it asked for, and took one more step of its flow
    rcases hresume : m.resume (.ok r) with ⟨o, m'⟩
    rw [Account, received_concat, sent_concat]
    simp only at htaken hgiven hflow hadmits ⊢
    rw [htaken, hgiven]
    by_cases ho : o = .continued
    · subst ho
      exact .inl ⟨rfl, _, hflow.step hadmits hresume⟩
    · have hnone := given_eq_nil_of_ended hresume ho
      have hends : Ends m₀ (received inbox h ++ m.demand.taken r) (sent (· == outlet) h) o :=
        .step hflow hadmits hresume ho
      rw [hnone, List.append_nil]
      cases o with
      | continued => exact absurd rfl ho
      | _ => exact .inr ⟨Stage.noConfusion, .ended hends⟩
  · -- the channel is closed, which stops the machine where it is
    have hsilent : m.demand ≠ .silent := by
      rintro h
      rcases hd with hget | ⟨v, hput⟩
      · cases h.symm.trans hget
      · cases h.symm.trans hput
    rw [resume_closed hsilent, Account, received_concat, sent_concat]
    refine .inr ⟨Stage.noConfusion, ?_⟩
    simp only at hd hflow ⊢
    rcases hd with hget | ⟨v, hput⟩
    · rw [hget]
      have hend : Ended inbox (h ++ [(.receive inbox, .error (.closed cause))]) :=
        ended_concat.mpr (.inr ⟨_, rfl⟩)
      show Stopped m₀ inbox outlet _ (received inbox h ++ []) (sent _ h ++ []) none
      rw [List.append_nil, List.append_nil]
      exact .starved hflow hget hend
    · rw [hput]
      have hrefused : Refused outlet (h ++ [(.send outlet v, .error (.closed cause))]) :=
        refused_concat.mpr (.inr ⟨v, _, rfl⟩)
      show Stopped m₀ inbox outlet _ (received inbox h ++ []) (sent _ h ++ []) none
      rw [List.append_nil, List.append_nil]
      exact .refused hflow hrefused

/-- A station whose machine has stopped only closes its endpoints. -/
theorem Account.close {m₀ : Machine} {c t : Nat} {h : History} {w : Station} {r : Request}
    (hs : Account m₀ c t h w) (hstage : w.stage ≠ .working) (hr : w.request = some r)
    (reply : Reply) : Account m₀ c t (h ++ [(r, reply)]) (w.resume reply) := by
  rcases hs with ⟨hworking, -⟩ | ⟨-, hstopped⟩
  · exact absurd hworking hstage
  · -- closing takes and gives nothing
    have hsame := hstopped.mono (r, reply)
    obtain ⟨m, inbox, outlet, stage, fault⟩ := w
    rw [Account, received_concat, sent_concat]
    cases stage with
    | working => exact absurd rfl hstage
    | closingInbox =>
      obtain rfl := Option.some.inj hr
      refine .inr ⟨Stage.noConfusion, ?_⟩
      show Stopped m₀ c t _ (received c h ++ []) (sent _ h ++ []) fault
      rw [List.append_nil, List.append_nil]
      exact hsame
    | closingOutlet =>
      obtain rfl := Option.some.inj hr
      refine .inr ⟨Stage.noConfusion, ?_⟩
      show Stopped m₀ c t _ (received c h ++ []) (sent _ h ++ []) fault
      rw [List.append_nil, List.append_nil]
      exact hsame
    | finished => cases hr

/-- The history of a station is a flow of its machine, until the machine has stopped. -/
theorem station_story {m₀ : Machine} {c t : Nat} {h : History} {w : Station}
    (hs : Story (start m₀ c t) h w) (hp : ∀ e ∈ h, Plain e) : Account m₀ c t h w := by
  induction hs with
  | start => exact .inl ⟨rfl, 0, .start⟩
  | @hear h w r reply hprev hr ih =>
    have hacc := ih fun e he => hp e (List.mem_append_left _ he)
    have hinbox := hprev.keeps inbox inbox_resume
    have houtlet := hprev.keeps outlet outlet_resume
    have hlast := hp (r, reply) (List.mem_append_right _ (List.mem_singleton_self _))
    by_cases hstage : w.stage = .working
    · have hreq : r = w.requestFor w.machine.demand := by
        have hrequest : w.request = some r := hr
        rw [Station.request, hstage] at hrequest
        exact (Option.some.inj hrequest).symm
      rcases hacc with ⟨-, n, hflow⟩ | ⟨hstopped, -⟩
      · rw [hreq] at hlast ⊢
        exact .work hinbox houtlet hstage hflow hlast
      · exact absurd hstage hstopped
    · exact hacc.close hstage hr reply

/-- What a machine heard in its last step that had taken `xs` before. -/
inductive LastWord (m : Machine) (c t : Nat) (h : History) (xs : List Int) : Reply → Prop
  | served {r : Int} : m.demand.Admits r → received c h = xs ++ m.demand.taken r →
      LastWord m c t h xs (.ok r)
  | starved (cause : Closure) : m.demand = .get → received c h = xs → Ended c h →
      LastWord m c t h xs (.error (.closed cause))
  | refused (cause : Closure) {v : Int} : m.demand = .put v → received c h = xs → Refused t h →
      LastWord m c t h xs (.error (.closed cause))

theorem LastWord.mono {m : Machine} {c t : Nat} {h : History} {xs : List Int} {reply : Reply}
    (hl : LastWord m c t h xs reply) {e : Request × Reply} (he : receivedIn c e = none) :
    LastWord m c t (h ++ [e]) xs reply := by
  have hsame : received c (h ++ [e]) = received c h := by
    rw [received_concat, he, Option.toList_none, List.append_nil]
  cases hl with
  | served hadmits htaken => exact .served hadmits (hsame.trans htaken)
  | starved cause hget htaken hend => exact .starved cause hget (hsame.trans htaken) (hend.mono e)
  | refused cause hput htaken hrefused =>
    exact .refused cause hput (hsame.trans htaken) (hrefused.mono e)

/-- What a working station hears in the exchange in which its machine stops. -/
theorem lastWord_working {w : Station} {c t : Nat} {h : History} (hinbox : w.inbox = c)
    (houtlet : w.outlet = t) {reply : Reply} (hp : Plain (w.requestFor w.machine.demand, reply)) :
    LastWord w.machine c t (h ++ [(w.requestFor w.machine.demand, reply)]) (received c h) reply := by
  subst hinbox houtlet
  rcases exchange_working hp with ⟨r, rfl, hadmits, htaken, -⟩ | ⟨cause, rfl, hget | ⟨v, hput⟩⟩
  · exact .served hadmits (by rw [received_concat, htaken])
  · rw [hget]
    refine .starved cause hget ?_ (ended_concat.mpr (.inr ⟨_, rfl⟩))
    rw [received_concat]
    exact List.append_nil _
  · rw [hput]
    refine .refused cause hput ?_ (refused_concat.mpr (.inr ⟨v, _, rfl⟩))
    rw [received_concat]
    exact List.append_nil _

/-- A machine that has stopped at a station did so in its last step, in which it gave nothing. -/
theorem exists_last_step {m₀ : Machine} {c t : Nat} {h : History} {w : Station}
    (hs : Story (start m₀ c t) h w) (hp : ∀ e ∈ h, Plain e) (hstage : w.stage ≠ .working) :
    ∃ n xs m reply o, Flow m₀ n xs (sent (· == t) h) m ∧ m.resume reply = (o, w.machine) ∧
      o ≠ .continued ∧ w.fault = o.fault? ∧ LastWord m c t h xs reply := by
  induction hs with
  | start => exact absurd rfl hstage
  | @hear h w r reply hprev hr ih =>
    have hplain : ∀ e ∈ h, Plain e := fun e he => hp e (List.mem_append_left _ he)
    have hlast := hp (r, reply) (List.mem_append_right _ (List.mem_singleton_self _))
    have hinbox := hprev.keeps inbox inbox_resume
    have houtlet := hprev.keeps outlet outlet_resume
    have hrequest : w.request = some r := hr
    -- nothing is given in the exchange, be it the last step or a closing
    suffices hnone : sentIn (· == t) (r, reply) = none ∧
        ∃ n xs m reply' o, Flow m₀ n xs (sent (· == t) h) m ∧
          m.resume reply' = (o, (w.resume reply).machine) ∧ o ≠ .continued ∧
          (w.resume reply).fault = o.fault? ∧ LastWord m c t (h ++ [(r, reply)]) xs reply' by
      rw [sent_concat, hnone.1, Option.toList_none, List.append_nil]
      exact hnone.2
    rcases station_story hprev hplain with ⟨hworking, n, hflow⟩ | ⟨hstopped, -⟩
    · rw [Station.request, hworking] at hrequest
      obtain rfl := Option.some.inj hrequest
      have hword := lastWord_working (h := h) hinbox houtlet hlast
      have hexchange := exchange_working hlast
      obtain ⟨m, inbox, outlet, stage, fault⟩ := w
      obtain rfl : outlet = t := houtlet
      obtain rfl : stage = .working := hworking
      rcases hresume : m.resume reply with ⟨o, m'⟩
      have hsettle : Station.resume ⟨m, inbox, outlet, .working, fault⟩ reply =
          settle inbox outlet (o, m') := congrArg (settle inbox outlet) hresume
      have ho : o ≠ .continued := by
        rintro rfl
        rw [show Process.resume _ reply = _ from hsettle] at hstage
        exact hstage rfl
      refine ⟨?_, n, _, m, reply, o, hflow, ?_, ho, ?_, hword⟩
      · rcases hexchange with ⟨v, rfl, -, -, hgiven⟩ | ⟨cause, rfl, -⟩
        · rw [← Option.toList_eq_nil_iff]
          exact hgiven.trans (given_eq_nil_of_ended hresume ho)
        · cases hd : m.demand <;> rfl
      · rw [hsettle, hresume]
        cases o <;> rfl
      · rw [hsettle]
        cases o with
        | continued => exact absurd rfl ho
        | _ => rfl
    · obtain ⟨n, xs, m, reply', o, hflow, hresume, ho, hfault, hword⟩ := ih hplain hstopped
      obtain ⟨m₁, inbox, outlet, stage, fault⟩ := w
      cases stage with
      | working => exact absurd rfl hstopped
      | finished => cases hrequest
      | _ =>
        obtain rfl := Option.some.inj hrequest
        exact ⟨rfl, n, xs, m, reply', o, hflow, hresume, ho, hfault, hword.mono rfl⟩

/-- What a station gave is what its machine gave on what it had received at most. -/
theorem Account.flow {m₀ : Machine} {c t : Nat} {h : History} {w : Station}
    (hs : Account m₀ c t h w) :
    ∃ n xs m, Flow m₀ n xs (sent (· == t) h) m ∧ xs <+: received c h := by
  rcases hs with ⟨-, n, hflow⟩ | ⟨-, hstopped⟩
  · exact ⟨n, _, _, hflow, List.prefix_rfl⟩
  · generalize w.fault = fault at hstopped
    cases hstopped with
    | starved hflow _ _ => exact ⟨_, _, _, hflow, List.prefix_rfl⟩
    | refused hflow _ => exact ⟨_, _, _, hflow, List.prefix_rfl⟩
    | ended hends =>
      obtain ⟨n, xs, m, hflow, hx⟩ := (hends.yields List.prefix_rfl).1
      exact ⟨n, xs, m, hflow, hx⟩

end Station

end TapeNet
