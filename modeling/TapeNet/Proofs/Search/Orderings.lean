import Mathlib.Data.List.Perm.Basic
import TapeNet.Amplifier

/-! # All orderings of a list

    `orderings` picks the first element in every way, then the second one
    from what is left, and so on. Elements are told apart by their places, so
    repeated values give repeated orderings.

    - `mem_orderings_iff`: the orderings of a list are its permutations.
    - `pairwise_orderings`: those of an increasing list come in
      lexicographic order.
    - `orderings_eq_map`: the orderings of a list are read off those of its
      places, so the two above say in which order they come.
-/

namespace TapeNet.Amplifier

variable {α β : Type}

/-! ### Picks -/

theorem picks_map (f : α → β) (xs : List α) :
    picks (xs.map f) = (picks xs).map fun (y, ys) => (f y, ys.map f) := by
  induction xs with
  | nil => rfl
  | cons x xs ih =>
    simp only [List.map_cons, picks, ih, List.map_map]
    rfl

/-- An element and the others are what was picked from, in another order. -/
theorem perm_of_mem_picks {xs ys : List α} {y : α} (h : (y, ys) ∈ picks xs) :
    (y :: ys).Perm xs := by
  induction xs generalizing ys with
  | nil => cases h
  | cons x xs ih =>
    rw [picks, List.mem_cons, List.mem_map] at h
    rcases h with h | ⟨⟨z, zs⟩, hz, h⟩
    · cases h
      exact List.Perm.refl _
    · cases h
      exact (List.Perm.swap x y zs).trans ((ih hz).cons x)

/-- The others stay in their order. -/
theorem sublist_of_mem_picks {xs ys : List α} {y : α} (h : (y, ys) ∈ picks xs) :
    ys.Sublist xs := by
  induction xs generalizing ys with
  | nil => cases h
  | cons x xs ih =>
    rw [picks, List.mem_cons, List.mem_map] at h
    rcases h with h | ⟨⟨z, zs⟩, hz, h⟩
    · cases h
      exact List.sublist_cons_self _ _
    · cases h
      exact (ih hz).cons_cons x

theorem exists_pick {xs : List α} {y : α} (h : y ∈ xs) : ∃ ys, (y, ys) ∈ picks xs := by
  induction xs with
  | nil => cases h
  | cons x xs ih =>
    rcases List.mem_cons.mp h with rfl | h
    · exact ⟨xs, List.mem_cons_self⟩
    · obtain ⟨ys, hys⟩ := ih h
      exact ⟨x :: ys, List.mem_cons_of_mem _ (List.mem_map.mpr ⟨_, hys, rfl⟩)⟩

/-- Elements are picked in the order of the list. -/
theorem pairwise_picks {r : α → α → Prop} {xs : List α} (h : xs.Pairwise r) :
    (picks xs).Pairwise fun p q => r p.1 q.1 := by
  induction xs with
  | nil => exact List.Pairwise.nil
  | cons x xs ih =>
    obtain ⟨hfirst, hrest⟩ := List.pairwise_cons.mp h
    rw [picks, List.pairwise_cons, List.pairwise_map]
    refine ⟨?_, ih hrest⟩
    intro p hp
    obtain ⟨⟨y, ys⟩, hy, rfl⟩ := List.mem_map.mp hp
    exact hfirst y ((perm_of_mem_picks hy).subset List.mem_cons_self)

/-! ### Arrangements -/

theorem arrangements_map (f : α → β) (n : Nat) (xs : List α) :
    arrangements n (xs.map f) = (arrangements n xs).map (List.map f) := by
  induction n generalizing xs with
  | zero => rfl
  | succ n ih =>
    simp only [arrangements, picks_map, List.flatMap_map, List.map_flatMap, ih, List.map_map]
    rfl

theorem mem_arrangements_iff {n : Nat} {xs ys : List α} (h : xs.length = n) :
    ys ∈ arrangements n xs ↔ ys.Perm xs := by
  induction n generalizing xs ys with
  | zero =>
    rw [List.length_eq_zero_iff.mp h, List.perm_nil]
    exact List.mem_singleton
  | succ n ih =>
    rw [arrangements, List.mem_flatMap]
    constructor
    · rintro ⟨⟨y, rest⟩, hpick, hys⟩
      obtain ⟨zs, hzs, rfl⟩ := List.mem_map.mp hys
      have hperm := perm_of_mem_picks hpick
      have hlength : rest.length = n := Nat.succ.inj (hperm.length_eq.trans h)
      exact (((ih hlength).mp hzs).cons y).trans hperm
    · intro hys
      match ys with
      | [] =>
        rw [← hys.length_eq] at h
        cases h
      | y :: zs =>
        -- once the first element is picked, the others are an ordering of the rest
        obtain ⟨rest, hpick⟩ := exists_pick (hys.subset List.mem_cons_self)
        have hperm := perm_of_mem_picks hpick
        have hlength : rest.length = n := Nat.succ.inj (hperm.length_eq.trans h)
        have hzs : zs.Perm rest := (hys.trans hperm.symm).cons_inv
        exact ⟨_, hpick, List.mem_map.mpr ⟨zs, (ih hlength).mpr hzs, rfl⟩⟩

theorem pairwise_arrangements {r : α → α → Prop} {xs : List α} (h : xs.Pairwise r) (n : Nat) :
    (arrangements n xs).Pairwise (List.Lex r) := by
  induction n generalizing xs with
  | zero => exact List.pairwise_singleton _ _
  | succ n ih =>
    rw [arrangements, List.pairwise_flatMap]
    constructor
    · rintro ⟨y, rest⟩ hpick
      rw [List.pairwise_map]
      exact (ih (h.sublist (sublist_of_mem_picks hpick))).imp List.Lex.cons
    · refine (pairwise_picks h).imp ?_
      intro p q hpq zs hzs zs' hzs'
      obtain ⟨_, -, rfl⟩ := List.mem_map.mp hzs
      obtain ⟨_, -, rfl⟩ := List.mem_map.mp hzs'
      exact List.Lex.rel hpq

/-! ### Orderings -/

theorem mem_orderings_iff {xs ys : List α} : ys ∈ orderings xs ↔ ys.Perm xs :=
  mem_arrangements_iff rfl

theorem pairwise_orderings {r : α → α → Prop} {xs : List α} (h : xs.Pairwise r) :
    (orderings xs).Pairwise (List.Lex r) := pairwise_arrangements h xs.length

/-- The phases at the given places. -/
def placed (phases : List Int) (places : List Nat) : List Int :=
  places.map fun i => phases.getD i 0

theorem placed_range (phases : List Int) : placed phases (List.range phases.length) = phases := by
  refine List.ext_getElem ?_ fun i hi hi' => ?_
  · rw [placed, List.length_map, List.length_range]
  · simp only [placed, List.getElem_map, List.getElem_range, List.getD_eq_getElem?_getD,
      List.getElem?_eq_getElem hi', Option.getD_some]

/-- The orderings of a list are read off the orderings of its places. -/
theorem orderings_eq_map (phases : List Int) :
    orderings phases = (orderings (List.range phases.length)).map (placed phases) := by
  calc orderings phases = orderings (placed phases (List.range phases.length)) := by
        rw [placed_range]
    _ = (orderings (List.range phases.length)).map (placed phases) := by
        rw [orderings, placed, List.length_map, arrangements_map]
        rfl

end TapeNet.Amplifier
