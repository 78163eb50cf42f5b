import Mathlib.Combinatorics.SimpleGraph.Acyclic
import Mathlib.Combinatorics.SimpleGraph.Star
import TapeNet.Proofs.Survey.WallFollowing

/-! # Surveys without cycles are complete

    If the places of the region form a tree, then a survey takes every
    stance.

    - Every passage is a bridge: a droid that goes through it has to come back
      through it, since the survey ends where it began (`Visited.back`).
    - So at each place that the survey comes to it takes all four headings
      (`Visited.heading`), and it comes to all neighbours.
    - A lap then has as many moves as there are stances, and every place is
      seen from a neighbour.
-/

namespace TapeNet

open Point (mem_neighbours)

namespace Maze

variable {M : Maze}

/-- A droid beyond a bridge stays there, if it never goes back over the bridge. -/
theorem stride_stays {p r : M.region} {g : Heading} (hr : (r : Point) = p + g.step)
    (hbridge : M.floor.IsBridge s(p, r)) (hnot : ¬M.Visited (r, g.back)) {q : M.Stance}
    (hq : M.Visited q) (hbeyond : (M.floor.deleteEdges {s(p, r)}).Reachable r q.1) :
    (M.floor.deleteEdges {s(p, r)}).Reachable r (M.stride q).1 := by
  by_cases hwall : M.cellAt (toPose q).ahead = .wall
  · rw [stride_of_wall hwall]
    exact hbeyond
  · rw [stride_of_floor hwall]
    refine hbeyond.trans (SimpleGraph.Adj.reachable ?_)
    rw [SimpleGraph.deleteEdges_adj]
    refine ⟨⟨passable_of_mem q.1.2, hwall, q.2, rfl⟩, fun hsame => ?_⟩
    rcases Sym2.eq_iff.mp hsame with ⟨hp, -⟩ | ⟨hplace, hp⟩
    · rw [hp] at hbeyond
      exact hbridge hbeyond.symm
    · -- this would be the way back
      have hback : (p : Point) + g.step + q.2.step = p := by
        rw [← hr, ← hplace]
        exact congrArg Subtype.val hp
      refine hnot ?_
      rw [← Heading.eq_back_of_step hback, ← hplace]
      exact hq

/-- A droid that has crossed a bridge and never goes back over it stays beyond it. -/
theorem iterate_stays {p r : M.region} {g : Heading} (hr : (r : Point) = p + g.step)
    (hbridge : M.floor.IsBridge s(p, r)) (hnot : ¬M.Visited (r, g.back))
    (hcrossed : M.Visited (r, g.right)) (n : Nat) :
    (M.floor.deleteEdges {s(p, r)}).Reachable r (M.stride^[n] (r, g.right)).1 := by
  induction n with
  | zero => exact SimpleGraph.Reachable.refl r
  | succ n ih =>
    rw [Function.iterate_succ_apply']
    exact stride_stays hr hbridge hnot (hcrossed.iterate n) ih

section

variable [Finite M.region] (hacyclic : M.floor.IsAcyclic)

include hacyclic

/-- In a tree, a droid that goes through a passage comes back through it. -/
theorem Visited.back {p r : M.region} {g : Heading} (h : M.Visited (p, g))
    (hr : (r : Point) = p + g.step) : M.Visited (r, g.back) := by
  have hbridge : M.floor.IsBridge s(p, r) :=
    SimpleGraph.isAcyclic_iff_forall_adj_isBridge.mp hacyclic
      ⟨passable_of_mem p.2, passable_of_mem r.2, g, hr⟩
  have hcrossed : M.Visited (r, g.right) := stride_to hr ▸ h.stride
  by_contra hnot
  -- the stance comes again, and then the droid is on this side of the bridge
  obtain ⟨n, hn, hperiodic⟩ := M.stride_injective.mem_periodicPts (p, g)
  obtain ⟨n, rfl⟩ := Nat.exists_eq_succ_of_ne_zero hn.ne'
  have hreturn : M.stride^[n] (r, g.right) = (p, g) := by
    rw [← stride_to hr, ← Function.iterate_succ_apply]
    exact hperiodic
  have hreach := iterate_stays hr hbridge hnot hcrossed n
  rw [hreturn] at hreach
  exact hbridge hreach.symm

/-- After a heading, a droid takes the one on its left at the same place, be it at once or when it
    has come back. -/
theorem Visited.left {p : M.region} {g : Heading} (h : M.Visited (p, g)) :
    M.Visited (p, g.left) := by
  by_cases hwall : M.cellAt (p + g.step) = .wall
  · exact stride_of_wall (q := (p, g)) hwall ▸ h.stride
  · have hreturn := (h.back hacyclic (r := ⟨p + g.step, step_mem_region p.2 hwall⟩) rfl).stride
    rwa [stride_to (r := p) (Heading.add_step_back p g).symm, Heading.right_back] at hreturn

theorem Visited.heading {p : M.region} {g : Heading} (h : M.Visited (p, g)) (g' : Heading) :
    M.Visited (p, g') := by
  have hleft := h.left hacyclic
  have hback := hleft.left hacyclic
  have hright := hback.left hacyclic
  cases g <;> cases g' <;> assumption

/-- In a tree, a survey takes every stance. -/
theorem visited_of_acyclic (q : M.Stance) : M.Visited q := by
  obtain ⟨⟨p, hp⟩, g⟩ := q
  have hpath := (SimpleGraph.reachable_iff_reflTransGen _ _).mp hp
  induction hpath generalizing g with
  | refl => exact M.visited_home.heading hacyclic g
  | tail hb hadj ih =>
    -- the droid takes the heading towards the next place too
    obtain ⟨-, -, h, hc⟩ := hadj
    have hvisited := (ih h ((SimpleGraph.reachable_iff_reflTransGen _ _).mpr hb)).stride
    rw [stride_to (r := ⟨_, hp⟩) hc] at hvisited
    exact hvisited.heading hacyclic g

/-- In a tree, a lap has as many moves as there are stances. -/
theorem lap_of_acyclic : M.lap = 4 * M.region.ncard := by
  refine Nat.le_antisymm lap_le ?_
  have hall : Function.Surjective fun i : Fin M.lap => M.stanceAt i := by
    intro q
    obtain ⟨i, hi, hq⟩ := (visited_of_acyclic hacyclic q).exists_lt
    exact ⟨⟨i, hi⟩, hq⟩
  have hcard := Nat.card_le_card_of_surjective _ hall
  rwa [Nat.card_fin, card_stance] at hcard

/-- In a tree, what is next to the region is seen. -/
theorem seen_of_acyclic {p : Point} (hp : p ∈ M.region) (h : Heading) : M.Seen (p + h.step) :=
  ⟨(⟨p, hp⟩, h), visited_of_acyclic hacyclic _, rfl⟩

end

/-! ### What is known in the end -/

/-- In a region of more than one place, every place has a neighbour. -/
theorem exists_neighbour (htwo : 2 ≤ M.region.ncard) {p : Point} (hp : p ∈ M.region) :
    ∃ q ∈ M.region, ∃ h : Heading, q + h.step = p := by
  obtain ⟨q, hq, hne⟩ := Set.exists_ne_of_one_lt_ncard htwo p
  have hreach : M.passages.Reachable p q := (SimpleGraph.Reachable.symm hp).trans hq
  obtain ⟨w⟩ := hreach
  cases w with
  | nil => exact absurd rfl hne
  | cons hadj _ =>
    obtain ⟨-, -, h, heq⟩ := hadj.symm
    exact ⟨_, SimpleGraph.Reachable.trans hp hadj.reachable, h, heq.symm⟩

/-- In every maze from whose start at least two and finitely many places can be reached, and these
    form a tree: the survey takes exactly four moves for each of them, it comes to know exactly
    these places and their neighbours, and everything that is known is true. -/
theorem tree_survey_exact (M : Maze) (hfinite : M.region.Finite) (hacyclic : M.floor.IsAcyclic)
    (htwo : 2 ≤ M.region.ncard) :
    ∃ s d, (∀ fuel, 4 * M.region.ncard < fuel →
        Surveyor.run M.move fuel .start M.explorer = some (.ok s, d)) ∧
      d.commands.length = 4 * M.region.ncard ∧
      (∀ p, p ∈ s.area ↔ p ∈ M.region ∨ ∃ q ∈ M.region, p ∈ q.neighbours) ∧
      ∀ p v, s.area[p]? = some v → v = (M.cell (M.start + p)).status := by
  have := hfinite.to_subtype
  obtain ⟨s, d, h, -, hrun⟩ := M.exists_survey
  have hregion : ∀ p ∈ M.region, M.Seen p := by
    intro p hp
    obtain ⟨q, hq, g, rfl⟩ := exists_neighbour htwo hp
    exact seen_of_acyclic hacyclic hq g
  have hknown : ∀ p v, s.area[p]? = some v → M.Seen p := by
    intro p v hp
    rcases h.seen_or_origin hp with hseen | ⟨rfl, -⟩
    · exact hseen
    · exact hregion _ M.origin_mem_region
  have hmem : ∀ p, p ∈ s.area ↔ M.Seen p := by
    intro p
    rw [Std.TreeMap.mem_iff_isSome_getElem?]
    constructor
    · intro hp
      obtain ⟨v, hv⟩ := Option.isSome_iff_exists.mp hp
      exact hknown p v hv
    · intro hp
      rw [h.status_of_seen hp]
      rfl
  refine ⟨s, d, ?_, ?_, fun p => ?_, fun p v hp => ?_⟩
  · rw [← lap_of_acyclic hacyclic]
    exact hrun
  · rw [h.length_commands, lap_of_acyclic hacyclic]
  · rw [hmem]
    constructor
    · rintro ⟨q, -, rfl⟩
      exact .inr ⟨q.1, q.1.2, mem_neighbours.mpr ⟨q.2, rfl⟩⟩
    · rintro (hp | ⟨q, hq, hp⟩)
      · exact hregion p hp
      · obtain ⟨g, rfl⟩ := mem_neighbours.mp hp
        exact seen_of_acyclic hacyclic hq g
  · rw [h.status_of_seen (hknown p v hp)] at hp
    exact (Option.some.inj hp).symm

/-- A fork: the start has a neighbour in the west, in the south and in the east, where the oxygen
    system is. -/
def fork : Maze :=
  ofCells [(⟨1, 1⟩, .open), (⟨0, 1⟩, .open), (⟨1, 2⟩, .open), (⟨2, 1⟩, .oxygen)] ⟨1, 1⟩ (by decide)

/-- All passages of the fork are at the start. -/
theorem fork_passages_le : fork.passages ≤ SimpleGraph.starGraph .origin := by
  have hplaces : ∀ p, fork.cellAt p ≠ .wall →
      p ∈ ([⟨0, 0⟩, ⟨-1, 0⟩, ⟨0, 1⟩, ⟨1, 0⟩] : List Point) := by
    intro p hp
    have hmem := mem_of_passable hp
    rw [← List.mem_map_of_injective (Point.add_left_injective ⟨1, 1⟩)]
    exact hmem
  have hstar : ∀ p ∈ ([⟨0, 0⟩, ⟨-1, 0⟩, ⟨0, 1⟩, ⟨1, 0⟩] : List Point), ∀ h : Heading,
      p + h.step ∈ ([⟨0, 0⟩, ⟨-1, 0⟩, ⟨0, 1⟩, ⟨1, 0⟩] : List Point) →
        p = .origin ∨ p + h.step = .origin := by
    decide
  rintro p q ⟨hp, hq, h, rfl⟩
  rw [SimpleGraph.starGraph_adj]
  exact ⟨(Heading.step_ne p h).symm, hstar p (hplaces p hp) h (hplaces _ hq)⟩

theorem ncard_region_fork : fork.region.ncard = 4 := by
  refine Nat.le_antisymm ncard_region_ofCells ?_
  have hplaces : (({⟨0, 0⟩, ⟨-1, 0⟩, ⟨0, 1⟩, ⟨1, 0⟩} : Finset Point) : Set Point) ⊆ fork.region := by
    have hnext : ∀ h : Heading, fork.cellAt (Point.origin + h.step) ≠ .wall →
        Point.origin + h.step ∈ fork.region :=
      fun h hh => step_mem_region fork.origin_mem_region hh
    intro p hp
    simp only [Finset.coe_insert, Finset.coe_singleton, Set.mem_insert_iff,
      Set.mem_singleton_iff] at hp
    rcases hp with rfl | rfl | rfl | rfl
    · exact fork.origin_mem_region
    · exact hnext .west (by decide)
    · exact hnext .south (by decide)
    · exact hnext .east (by decide)
  have hle := Set.ncard_le_ncard hplaces finite_region_ofCells
  rwa [Set.ncard_coe_finset] at hle

/-- The survey of the fork takes 16 moves. -/
theorem fork_survey :
    fork.region.Finite ∧ fork.floor.IsAcyclic ∧ 2 ≤ fork.region.ncard ∧
      ∃ s d, Surveyor.run fork.move 17 .start fork.explorer = some (.ok s, d) ∧
        d.commands.length = 16 ∧
        (∀ p, p ∈ s.area ↔ p ∈ fork.region ∨ ∃ q ∈ fork.region, p ∈ q.neighbours) ∧
        ∀ p v, s.area[p]? = some v → v = (fork.cell (⟨1, 1⟩ + p)).status := by
  have hfinite : fork.region.Finite := finite_region_ofCells
  have hacyclic : fork.floor.IsAcyclic :=
    ((SimpleGraph.isAcyclic_starGraph _).anti fork_passages_le).induce _
  have htwo : 2 ≤ fork.region.ncard := by
    rw [ncard_region_fork]
    decide
  obtain ⟨s, d, hrun, hmoves, hkeys, htrue⟩ := tree_survey_exact fork hfinite hacyclic htwo
  rw [ncard_region_fork] at hrun hmoves
  exact ⟨hfinite, hacyclic, htwo, s, d, hrun 17 (by decide), hmoves, hkeys, htrue⟩

end Maze

end TapeNet
