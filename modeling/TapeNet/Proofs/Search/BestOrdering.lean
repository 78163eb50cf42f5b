import Mathlib.Data.List.Induction
import Mathlib.Tactic.Choose
import TapeNet.Proofs.Search.Fuel
import TapeNet.Proofs.Search.Orderings

/-! # The best ordering of phases

    The search runs a circuit for one ordering of the phases after the other,
    and keeps the best signal so far.

    - `Gives loop program order r`: the circuit comes to `r`, started with the
      signal 0.
    - `top signal seen` is what the search holds after some orderings. It is
      the first of their maxima (`exists_top`).
    - `comesTo_firstMax`: it goes on like that as long as no circuit fails.
-/

namespace TapeNet

/-- More fuel does not change the end of a network's run. -/
theorem Network.run_add {net : Network} {fuel : Nat} (extra : Nat)
    {result : Except NetworkError Unit × Network} (h : net.run fuel = some result) :
    net.run (fuel + extra) = some result := by
  unfold Network.run at h ⊢
  split at h
  · next e he => exact h
  · next he =>
    obtain ⟨s, hs, hresult⟩ := Option.bind_eq_some_iff.mp h
    exact Option.bind_eq_some_iff.mpr ⟨s, System.run_add extra hs, hresult⟩

namespace Amplifier

variable {loop : Bool} {program phases : List Int}

/-! ### Circuits -/

/-- A circuit started with the signal 0 comes to a last signal, or to an error. -/
def Gives (loop : Bool) (program order : List Int) (r : Except CircuitError Int) : Prop :=
  ∃ fuel, (run fuel loop program order 0).run = some r

theorem settles_run (loop : Bool) (program phases : List Int) (signal : Int) :
    Settles (run · loop program phases signal) := by
  intro fuel extra r h
  simp only [run] at h ⊢
  split at h
  · next hempty => rwa [if_pos hempty]
  · next hempty =>
    rw [if_neg hempty]
    split at h
    · exact h
    · next sink net hcircuit =>
      -- only the run of the network uses fuel
      cases hnet : net.run fuel with
      | none =>
        rw [hnet] at h
        cases h
      | some result =>
        rw [hnet] at h
        rw [net.run_add extra hnet]
        exact h

theorem Gives.comesTo {order : List Int} {r : Except CircuitError Int}
    (h : Gives loop program order r) : ComesTo (run · loop program order 0) r := by
  obtain ⟨fuel, hr⟩ := h
  exact (settles_run loop program order 0).comesTo hr

/-! ### The first maximum -/

section

variable {ε : Type} {f : Nat → List Int → ExceptT ε Option Int} {signal : List Int → Int}

/-- What the search holds after some orderings that all have signals. -/
def top (signal : List Int → Int) (seen : List (List Int)) : Option (Int × List Int) :=
  seen.foldl (fun best order => some (better best (signal order) order)) none

theorem top_concat (signal : List Int → Int) (seen : List (List Int)) (order : List Int) :
    top signal (seen ++ [order]) = some (better (top signal seen) (signal order) order) := by
  rw [top, List.foldl_concat]
  rfl

/-- The search holds the first of the maxima. -/
theorem exists_top (signal : List Int → Int) {seen : List (List Int)} (hne : seen ≠ []) :
    ∃ before order after, seen = before ++ order :: after ∧
      top signal seen = some (signal order, order) ∧
      (∀ q ∈ seen, signal q ≤ signal order) ∧ ∀ q ∈ before, signal q < signal order := by
  induction seen using List.reverseRecOn with
  | nil => exact absurd rfl hne
  | append_singleton seen last ih =>
    by_cases hseen : seen = []
    · subst hseen
      exact ⟨[], last, [], rfl, rfl, by simp, by simp⟩
    · obtain ⟨before, order, after, hsplit, htop, hmax, hless⟩ := ih hseen
      rw [top_concat, htop, better]
      -- a later ordering takes the place of the best one only if it is better
      by_cases hlarger : signal order < signal last
      · rw [if_pos hlarger]
        have hall : ∀ q ∈ seen, signal q < signal last := by
          intro q hq
          exact Int.lt_of_le_of_lt (hmax q hq) hlarger
        refine ⟨seen, last, [], rfl, rfl, ?_, hall⟩
        rw [List.forall_mem_append, List.forall_mem_singleton]
        exact ⟨fun q hq => Int.le_of_lt (hall q hq), Int.le_refl _⟩
      · rw [if_neg hlarger]
        refine ⟨before, order, after ++ [last], ?_, rfl, ?_, hless⟩
        · rw [hsplit, List.append_assoc, List.cons_append]
        · rw [List.forall_mem_append, List.forall_mem_singleton]
          exact ⟨hmax, Int.not_lt.mp hlarger⟩

/-- The search goes past orderings that have signals, and then holds the best of them. -/
theorem comesTo_firstMax {seen before after : List (List Int)}
    {r : Except ε (Option (Int × List Int))}
    (hbefore : ∀ order ∈ before, ComesTo (f · order) (.ok (signal order)))
    (h : ComesTo (fun fuel => firstMax (f fuel) (top signal (seen ++ before)) after) r) :
    ComesTo (fun fuel => firstMax (f fuel) (top signal seen) (before ++ after)) r := by
  induction before generalizing seen with
  | nil => rwa [List.append_nil] at h
  | cons order before ih =>
    rw [List.append_cons] at h
    have hrest := ih (fun o ho => hbefore o (List.mem_cons_of_mem order ho)) h
    rw [top_concat] at hrest
    exact (hbefore order List.mem_cons_self).bind hrest

end

/-! ### The search -/

section

variable {signal : List Int → Int} {order : List Int} {before after : List (List Int)}

/-- The search is about to try the orderings that are left, and holds the best of the others. -/
theorem comesTo_firstMax_none {r : Except CircuitError (Option (Int × List Int))}
    (hbefore : ∀ order ∈ before, ComesTo (run · loop program order 0) (.ok (signal order)))
    (h : ComesTo (fun fuel => firstMax (run fuel loop program · 0) (top signal before) after) r) :
    ComesTo (fun fuel => firstMax (run fuel loop program · 0) none (before ++ after)) r := by
  show ComesTo (fun fuel => firstMax _ (top signal []) (before ++ after)) r
  exact comesTo_firstMax hbefore h

/-- A search in which no circuit fails ends with the first of the best orderings. -/
theorem comesTo_best
    (h : ∀ order ∈ orderings phases, ComesTo (run · loop program order 0) (.ok (signal order)))
    (htop : top signal (orderings phases) = some (signal order, order)) :
    ComesTo (best · loop program phases) (.ok (signal order, order)) := by
  have hall : ComesTo (fun fuel => firstMax (run fuel loop program · 0) none (orderings phases))
      (.ok (top signal (orderings phases))) := by
    rw [← List.append_nil (orderings phases)]
    refine comesTo_firstMax_none h ?_
    rw [List.append_nil]
    exact comesTo_const _
  rw [htop] at hall
  exact hall.bind (comesTo_const _)

/-- A circuit that fails breaks the search off if none did before. -/
theorem comesTo_best_error {e : CircuitError} (hsplit : orderings phases = before ++ order :: after)
    (hbefore : ∀ order ∈ before, ComesTo (run · loop program order 0) (.ok (signal order)))
    (h : ComesTo (run · loop program order 0) (.error e)) :
    ComesTo (best · loop program phases) (.error e) := by
  have hsearch : ComesTo (fun fuel => firstMax (run fuel loop program · 0) none (orderings phases))
      (.error e) := by
    rw [hsplit]
    exact comesTo_firstMax_none hbefore h.bind_error
  exact hsearch.bind_error

end

/-- The orderings that are tried are those of all places in which phases may stand, in the
    lexicographic order of the places. If no circuit fails, the search ends with the largest signal
    and with the first ordering that gives it. If one does, the search ends with the error of the
    first one, and so it does if there are no phases. -/
theorem first_maximum_of_orderings (loop : Bool) (program phases : List Int) :
    ∃ tried : List (List Nat),
      (∀ places, places ∈ tried ↔ places.Perm (List.range phases.length)) ∧
      tried.Pairwise (List.Lex (· < ·)) ∧
      orderings phases = tried.map (placed phases) ∧
      ((∀ order, order.Perm phases → ∃ s, Gives loop program order (.ok s)) →
        ∃ s before places after, tried = before ++ places :: after ∧
          ComesTo (best · loop program phases) (.ok (s, placed phases places)) ∧
          (placed phases places).Perm phases ∧ Gives loop program (placed phases places) (.ok s) ∧
          (∀ order v, order.Perm phases → Gives loop program order (.ok v) → v ≤ s) ∧
          ∀ earlier ∈ before, ∀ v, Gives loop program (placed phases earlier) (.ok v) → v < s) ∧
      (∀ before places after e, tried = before ++ places :: after →
        (∀ earlier ∈ before, ∃ s, Gives loop program (placed phases earlier) (.ok s)) →
        Gives loop program (placed phases places) (.error e) →
        ComesTo (best · loop program phases) (.error e)) ∧
      (phases = [] → ComesTo (best · loop program phases) (.error .noPhases)) := by
  have hplaces := orderings_eq_map phases
  refine ⟨orderings (List.range phases.length), fun _ => mem_orderings_iff,
    pairwise_orderings List.pairwise_lt_range, hplaces, ?_, ?_, ?_⟩
  · intro hok
    choose! signal hsignal using hok
    have hself := mem_orderings_iff.mpr (List.Perm.refl phases)
    obtain ⟨before, order, after, hsplit, htop, hmax, hless⟩ :=
      exists_top signal (List.ne_nil_of_mem hself)
    have hperm : order.Perm phases := by
      rw [← mem_orderings_iff, hsplit]
      exact List.mem_append_right before List.mem_cons_self
    -- the orderings that are split are read off places
    rw [hplaces] at hsplit
    obtain ⟨placesBefore, rest, htried, rfl, hrest⟩ := List.map_eq_append_iff.mp hsplit
    obtain ⟨places, placesAfter, rfl, rfl, rfl⟩ := List.map_eq_cons_iff.mp hrest
    have hvalue : ∀ q v, q.Perm phases → Gives loop program q (.ok v) → v = signal q := by
      intro q v hq hv
      exact Except.ok.inj (hv.comesTo.unique (hsignal q hq).comesTo)
    refine ⟨signal (placed phases places), placesBefore, places, placesAfter, htried,
      comesTo_best (fun q hq => (hsignal q (mem_orderings_iff.mp hq)).comesTo) htop, hperm,
      hsignal _ hperm, ?_, ?_⟩
    · intro q v hq hv
      rw [hvalue q v hq hv]
      exact hmax q (mem_orderings_iff.mpr hq)
    · intro earlier hearlier v hv
      have horder := List.mem_map_of_mem (f := placed phases) hearlier
      have hq : (placed phases earlier).Perm phases := by
        rw [← mem_orderings_iff, hplaces, htried, List.map_append]
        exact List.mem_append_left _ horder
      rw [hvalue _ v hq hv]
      exact hless _ horder
  · intro before places after e hsplit hbefore herror
    have horders : ∀ q ∈ before.map (placed phases), ∃ s, Gives loop program q (.ok s) := by
      intro q hq
      obtain ⟨earlier, hearlier, rfl⟩ := List.mem_map.mp hq
      exact hbefore earlier hearlier
    choose! signal hsignal using horders
    rw [hsplit, List.map_append, List.map_cons] at hplaces
    exact comesTo_best_error hplaces (fun q hq => (hsignal q hq).comesTo) herror.comesTo
  · rintro rfl
    have hfails : Gives loop program [] (.error .noPhases) := ⟨0, rfl⟩
    have hsplit : orderings ([] : List Int) = [] ++ [] :: [] := rfl
    have hbefore : ∀ order ∈ ([] : List (List Int)),
        ComesTo (run · loop program order 0) (.ok 0) := by
      intro order horder
      cases horder
    exact comesTo_best_error hsplit hbefore hfails.comesTo

/-- Gives ten times the signal plus the phase. -/
def decimal : List Int := [3, 15, 3, 16, 1002, 16, 10, 16, 1, 16, 15, 15, 4, 15, 99, 0, 0]

/-- Two of the six orderings of the places give the largest signal. -/
theorem decimal_best_ordering :
    (∀ order, order.Perm [4, 3, 4] → ∃ s, Gives false decimal order (.ok s)) ∧
      ComesTo (best · false decimal [4, 3, 4]) (.ok (443, [4, 4, 3])) ∧
      ∀ order v, order.Perm [4, 3, 4] → Gives false decimal order (.ok v) → v ≤ 443 := by
  have hfirst : Gives false decimal [4, 3, 4] (.ok 434) := ⟨40, by decide +kernel⟩
  have hsecond : Gives false decimal [4, 4, 3] (.ok 443) := ⟨40, by decide +kernel⟩
  have hthird : Gives false decimal [3, 4, 4] (.ok 344) := ⟨40, by decide +kernel⟩
  have hcases : ∀ order : List Int, order.Perm [4, 3, 4] →
      order = [4, 3, 4] ∨ order = [4, 4, 3] ∨ order = [3, 4, 4] := by
    intro order horder
    have hmem := mem_orderings_iff.mpr horder
    have hall : orderings [(4 : Int), 3, 4] =
      [[4, 3, 4], [4, 4, 3], [3, 4, 4], [3, 4, 4], [4, 4, 3], [4, 3, 4]] := rfl
    rw [hall] at hmem
    simp only [List.mem_cons, List.not_mem_nil, or_false] at hmem
    tauto
  have hok : ∀ order, order.Perm [4, 3, 4] → ∃ s, Gives false decimal order (.ok s) := by
    intro order horder
    rcases hcases order horder with rfl | rfl | rfl
    · exact ⟨_, hfirst⟩
    · exact ⟨_, hsecond⟩
    · exact ⟨_, hthird⟩
  obtain ⟨_, -, -, -, hbest, -, -⟩ := first_maximum_of_orderings false decimal [4, 3, 4]
  obtain ⟨s, before, places, after, -, hfound, hperm, hs, hmax, -⟩ := hbest hok
  have hle := hmax [4, 4, 3] 443 (by decide) hsecond
  rcases hcases _ hperm with horder | horder | horder
  · rw [horder] at hs
    cases hs.comesTo.unique hfirst.comesTo
    omega
  · rw [horder] at hs hfound
    cases hs.comesTo.unique hsecond.comesTo
    exact ⟨hok, hfound, hmax⟩
  · rw [horder] at hs
    cases hs.comesTo.unique hthird.comesTo
    omega

end Amplifier

end TapeNet
