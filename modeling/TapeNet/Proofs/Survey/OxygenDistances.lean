import TapeNet.Oxygen
import TapeNet.Proofs.Plane.Distances
import TapeNet.Proofs.Plane.Windows

/-! # Distances on an area

    The steps to the oxygen system and the minutes until all is filled with
    oxygen are found in a window. They are distances on the area itself.

    - `passages area` is the area as a graph, `IsSystem area o` says which
      point is its oxygen system.
    - `cell_chart`: the first marked cell of the window is the oxygen system.
    - `distances_chart`: the window is searched for distances on the area.
      Its filling is no passage, so that no way leads through it
      (`isSet_passable_chart`).
    - `steps_of_edist`, `minutes_eq`: what the two searches find. The first
      starts where the droid did, the second where it ended.
-/

namespace TapeNet.Oxygen

variable {area : Sparse Int} {s p o : Point}

/-! ### The area as a graph -/

/-- Whether a point of an area can be entered. -/
def enterable (area : Sparse Int) (p : Point) : Bool :=
  area[p]? == some Area.open || area[p]? == some Area.oxygen

/-- The points of an area that can be entered, each next to its four neighbours. -/
def passages (area : Sparse Int) : SimpleGraph Point := freeGraph (enterable area)

/-- The oxygen system is the first point that is marked so, row by row from the north and from
    west to east in each row. -/
structure IsSystem (area : Sparse Int) (o : Point) : Prop where
  marked : area[o]? = some Area.oxygen
  first (p : Point) (hp : area[p]? = some Area.oxygen) : o.y < p.y ∨ o.y = p.y ∧ o.x ≤ p.x

theorem IsSystem.enterable (h : IsSystem area o) : enterable area o := by
  rw [Oxygen.enterable, h.marked]
  rfl

/-! ### The oxygen system in a grid -/

theorem cell_eq_ok {grid : Grid Int} (h : cell grid = .ok p) :
    grid.get? p = some Area.oxygen ∧
      ∀ q, grid.get? q = some Area.oxygen → p.y < q.y ∨ p.y = q.y ∧ p.x ≤ q.x := by
  unfold cell at h
  split at h
  · next found hfind =>
    cases h
    rw [List.find?_eq_some_iff_append] at hfind
    obtain ⟨hp, before, after, hpositions, hbefore⟩ := hfind
    refine ⟨beq_iff_eq.mp hp, ?_⟩
    intro q hq
    have hmem : q ∈ grid.positions := Grid.isSome_get?_iff.mp (by rw [hq]; rfl)
    have hsorted := grid.positions_pairwise
    rw [hpositions] at hmem hsorted
    rw [List.mem_append, List.mem_cons] at hmem
    rcases hmem with hmem | rfl | hmem
    · -- no position before the one found is marked
      have hnot := hbefore q hmem
      rw [hq] at hnot
      cases hnot
    · exact .inr ⟨rfl, le_rfl⟩
    · have hrow := (List.pairwise_cons.mp (List.pairwise_append.mp hsorted).2.1).1 q hmem
      omega
  · cases h

theorem cell_eq_error {grid : Grid Int} {e : AreaError} (h : cell grid = .error e) :
    e = .notFound ∧ ∀ q, grid.get? q ≠ some Area.oxygen := by
  unfold cell at h
  split at h
  · cases h
  · next hfind =>
    cases h
    rw [List.find?_eq_none] at hfind
    refine ⟨rfl, ?_⟩
    intro q hq
    have hmem : q ∈ grid.positions := Grid.isSome_get?_iff.mp (by rw [hq]; rfl)
    apply hfind q hmem
    rw [hq]
    rfl

/-! ### The window of an area -/

/-- The window of an area, whatever its values are. -/
def chart (area : Sparse Int) : Window Int := Window.of area unknown

theorem window_eq (hwords : ∀ (p : Point) v, area[p]? = some v → IsWord v) :
    window area = .ok (chart area) := by
  have hvalues : ∀ v ∈ area.values, IsWord v := by
    intro v hv
    obtain ⟨p, hp⟩ := Sparse.mem_values.mp hv
    exact hwords p v hp
  rw [window, Window.ofWords?, if_pos ⟨by decide, hvalues⟩]
  rfl

theorem get?_chart {v : Int} (hv : v ≠ unknown) :
    (chart area).grid.get? (p + (chart area).corner) = some v ↔ area[p]? = some v :=
  Window.get?_of_eq_some_iff_of_ne hv

/-- Every position is where some point of the plane went. -/
theorem exists_eq_add_corner (area : Sparse Int) (q : Point) : ∃ p, p + (chart area).corner = q :=
  (Point.shift (chart area).corner).surjective q

theorem cell_chart (area : Sparse Int) :
    ((∀ p : Point, area[p]? ≠ some Area.oxygen) ∧ cell (chart area).grid = .error .notFound) ∨
      ∃ o, IsSystem area o ∧ cell (chart area).grid = .ok (o + (chart area).corner) := by
  have hmarked (p : Point) : (chart area).grid.get? (p + (chart area).corner) = some Area.oxygen ↔
      area[p]? = some Area.oxygen := get?_chart (by decide)
  cases hcell : cell (chart area).grid with
  | error e =>
    left
    obtain ⟨rfl, hnone⟩ := cell_eq_error hcell
    exact ⟨fun p hp => hnone _ ((hmarked p).mpr hp), rfl⟩
  | ok q =>
    right
    obtain ⟨o, rfl⟩ := exists_eq_add_corner area q
    obtain ⟨ho, hfirst⟩ := cell_eq_ok hcell
    refine ⟨o, ⟨(hmarked o).mp ho, ?_⟩, rfl⟩
    intro p hp
    -- the corner moves both points alike
    have hrow := hfirst _ ((hmarked p).mpr hp)
    simpa only [Point.add_x, Point.add_y, add_lt_add_iff_right, add_left_inj,
      add_le_add_iff_right] using hrow

theorem isSet_passable_iff {grid : Grid Int} :
    (passable grid).isSet p ↔ grid.get? p = some Area.open ∨ grid.get? p = some Area.oxygen := by
  rw [passable, Grid.isSet, Grid.get?_map, beq_iff_eq, Option.map_eq_some_iff]
  simp only [Bool.or_eq_true, beq_iff_eq, and_or_left, exists_or, exists_eq_right]

theorem isSet_passable_chart :
    (passable (chart area).grid).isSet (p + (chart area).corner) = enterable area p := by
  rw [Bool.eq_iff_iff, isSet_passable_iff, get?_chart (by decide), get?_chart (by decide),
    enterable, Bool.or_eq_true, beq_iff_eq, beq_iff_eq]

/-- Points of the area are as far from each other as their positions in the window. -/
theorem edist_chart :
    (freeGraph (passable (chart area).grid).isSet).edist (s + (chart area).corner)
      (p + (chart area).corner) = (passages area).edist s p := by
  have hfree : enterable area = fun p =>
      (passable (chart area).grid).isSet (p + (chart area).corner) :=
    funext fun p => isSet_passable_chart.symm
  rw [passages, hfree]
  exact edist_iso (freeGraphShift _ (chart area).corner) s p

theorem distances_chart (hs : enterable area s) :
    ∃ d, distances (chart area).grid (s + (chart area).corner) = .ok d ∧
      d.positions = (chart area).grid.positions ∧
      (∀ (p : Point) (n : ℕ), (passages area).edist s p = n →
        d.get? (p + (chart area).corner) = some (n : Int)) ∧
      ∀ p v, d.get? (p + (chart area).corner) = some v →
        v = -1 ∨ ∃ n : ℕ, v = n ∧ (passages area).edist s p = n := by
  rw [← isSet_passable_chart] at hs
  obtain ⟨d, hd, hpositions, hsome, hread⟩ := Grid.exists_distances hs
  have hsize : (passable (chart area).grid).positions = (chart area).grid.positions :=
    Grid.positions_eq rfl (Array.size_map ..)
  refine ⟨d, by rw [distances, hd]; rfl, hpositions.trans hsize, ?_, ?_⟩
  · intro p n hp
    exact hsome _ n (edist_chart.trans hp)
  · intro p v hv
    rw [← edist_chart]
    exact hread _ v hv

/-! ### The two searches -/

theorem largest_spec (grid : Grid Int) :
    (largest grid = -1 ∨ ∃ p, grid.get? p = some (largest grid)) ∧
      ∀ p v, grid.get? p = some v → v ≤ largest grid := by
  have hmax : (-1 :: grid.rows.flatten.toList).max? = some (largest grid) := by
    rw [List.max?_cons', Array.foldl_toList, Array.foldl_flatten, largest]
  rw [List.max?_eq_some_iff] at hmax
  obtain ⟨hmem, hle⟩ := hmax
  constructor
  · rcases List.mem_cons.mp hmem with hnone | hmem
    · exact .inl hnone
    · exact .inr (Grid.mem_flatten_rows.mp (Array.mem_toList_iff.mp hmem))
  · intro p v hp
    apply hle
    have hv := Grid.mem_flatten_rows.mpr ⟨p, hp⟩
    exact List.mem_cons_of_mem _ (Array.mem_toList_iff.mpr hv)

section

variable (hwords : ∀ (p : Point) v, area[p]? = some v → IsWord v)
  (hcell : cell (chart area).grid = .ok (o + (chart area).corner))
include hwords hcell

/-- The steps are read at the oxygen system, which is inside of the distances. -/
theorem steps_eq {d : Grid Int} {v : Int}
    (hd : distances (chart area).grid (chart area).corner = .ok d)
    (hv : d.get? (o + (chart area).corner) = some v) :
    steps area = if v < 0 then .error .unreachable else .ok v := by
  simp only [steps, window_eq hwords, hcell, hd, Grid.read_eq_ok hv, bind, Except.bind]
  rfl

theorem steps_of_closed (hs : ¬enterable area .origin) :
    steps area = .error (.search (.notPassable (chart area).corner)) := by
  rw [← isSet_passable_chart, Point.origin_add] at hs
  have hd : distances (chart area).grid (chart area).corner =
      .error (.search (.notPassable (chart area).corner)) := by
    rw [distances, Grid.distances_of_not_isSet hs]
    rfl
  simp only [steps, window_eq hwords, hcell, hd, bind, Except.bind]

theorem steps_of_edist (hs : enterable area .origin) {n : ℕ}
    (hn : (passages area).edist .origin o = n) : steps area = .ok (n : Int) := by
  obtain ⟨d, hd, -, hsome, -⟩ := distances_chart hs
  rw [Point.origin_add] at hd
  rw [steps_eq hwords hcell hd (hsome o n hn)]
  exact if_neg (by omega)

theorem steps_of_not_reachable (hs : enterable area .origin)
    (hfar : ¬(passages area).Reachable .origin o) : steps area = .error .unreachable := by
  obtain ⟨d, hd, hpositions, -, hread⟩ := distances_chart hs
  rw [Point.origin_add] at hd
  -- the oxygen system was found in the window, and the distances have a mark for each of its cells
  have hmem : o + (chart area).corner ∈ d.positions := by
    rw [hpositions, ← Grid.isSome_get?_iff, (cell_eq_ok hcell).1]
    rfl
  obtain ⟨v, hv⟩ := Option.isSome_iff_exists.mp (Grid.isSome_get?_iff.mpr hmem)
  rw [steps_eq hwords hcell hd hv]
  rcases hread o v hv with rfl | ⟨n, -, hn⟩
  · rfl
  · exact absurd (edist_eq_iff.mp hn).1 hfar

/-- The minutes are the largest distance from the oxygen system. -/
theorem minutes_eq (ho : enterable area o) :
    ∃ n : ℕ, minutes area = .ok (n : Int) ∧
      IsGreatest {m : ℕ | ∃ p, (passages area).edist o p = m} n := by
  obtain ⟨d, hd, -, hsome, hread⟩ := distances_chart ho
  have hminutes : minutes area = .ok (largest d) := by
    simp only [minutes, window_eq hwords, hcell, hd, bind, Except.bind]
    rfl
  obtain ⟨hmem, hle⟩ := largest_spec d
  have hbound {p : Point} {n : ℕ} (hn : (passages area).edist o p = n) : (n : Int) ≤ largest d :=
    hle _ _ (hsome p n hn)
  -- the oxygen system is in reach of itself, so there is a mark other than -1
  have hzero : ((0 : ℕ) : Int) ≤ largest d :=
    hbound (SimpleGraph.edist_self.trans Nat.cast_zero.symm)
  rcases hmem with hnone | ⟨q, hq⟩
  · omega
  · obtain ⟨p, rfl⟩ := exists_eq_add_corner area q
    rcases hread p _ hq with hnone | ⟨n, hn, hp⟩
    · omega
    · refine ⟨n, by rw [hminutes, hn], ⟨p, hp⟩, ?_⟩
      rintro m ⟨r, hm⟩
      have hmn := hbound hm
      omega

end

/-- The steps and the minutes are distances on the area: from the droid's start to the oxygen
    system, and from there to the point that is the furthest away. In as many rounds as there are
    minutes, and not in any later one, a flood from the oxygen system gains points. The areas whose
    steps cannot be counted are those without an oxygen system, or with no way to it; nothing is
    looked up outside of the window or of the distances. -/
theorem steps_and_minutes_exact (area : Sparse Int)
    (hwords : ∀ (p : Point) v, area[p]? = some v → IsWord v) :
    ((∀ p : Point, area[p]? ≠ some Area.oxygen) ∧
        steps area = .error .notFound ∧ minutes area = .error .notFound) ∨
      ∃ o, IsSystem area o ∧
        ((passages area).Reachable .origin o →
          steps area = .ok ((passages area).dist .origin o)) ∧
        (¬enterable area .origin →
          steps area = .error (.search (.notPassable (Window.of area unknown).corner))) ∧
        (enterable area .origin → ¬(passages area).Reachable .origin o →
          steps area = .error .unreachable) ∧
        ∃ n : ℕ, minutes area = .ok n ∧
          IsGreatest {m | ∃ p, (passages area).Reachable o p ∧ (passages area).dist o p = m} n ∧
          (∀ k, (∃ p ∈ covered (passages area) o (k + 1), p ∉ covered (passages area) o k) ↔ k < n) ∧
          ∀ m, steps area = .ok m → m ≤ n := by
  rcases cell_chart area with ⟨hnone, hcell⟩ | ⟨o, ho, hcell⟩
  · left
    refine ⟨hnone, ?_, ?_⟩
    · simp only [steps, window_eq hwords, hcell, bind, Except.bind]
    · simp only [minutes, window_eq hwords, hcell, bind, Except.bind]
  · right
    have hsteps (hreach : (passages area).Reachable .origin o) :
        steps area = .ok ((passages area).dist .origin o : Int) := by
      -- there is no way from a start that cannot be entered
      have hs : enterable area .origin := free_of_reachable ho.enterable hreach.symm
      exact steps_of_edist hwords hcell hs hreach.coe_dist_eq_edist.symm
    obtain ⟨n, hn, hgreatest⟩ := minutes_eq hwords hcell ho.enterable
    refine ⟨o, ho, hsteps, steps_of_closed hwords hcell, steps_of_not_reachable hwords hcell,
      n, hn, ?_, covered_gains_iff hgreatest, ?_⟩
    · simpa only [edist_eq_iff] using hgreatest
    · intro m hm
      have hreach : (passages area).Reachable .origin o := by
        by_contra hfar
        by_cases hs : enterable area .origin
        · cases hm.symm.trans (steps_of_not_reachable hwords hcell hs hfar)
        · cases hm.symm.trans (steps_of_closed hwords hcell hs)
      obtain rfl := Except.ok.inj (hm.symm.trans (hsteps hreach))
      -- the start is one of the points that oxygen gets to, as far away as the way there is long
      rw [SimpleGraph.dist_comm]
      exact_mod_cast hgreatest.2 ⟨.origin, hreach.symm.coe_dist_eq_edist.symm⟩

/-- A hollow to the north-west of the start, and another oxygen system out of reach. -/
def hollow : Sparse Int :=
  .ofEntries [(⟨-2, -2⟩, 2), (⟨-1, -2⟩, 1), (⟨0, -2⟩, 1), (⟨1, -2⟩, 1), (⟨1, -1⟩, 1),
    (⟨2, -1⟩, 1), (⟨-2, -1⟩, 1), (⟨-1, -1⟩, 0), (⟨0, -1⟩, 0), (⟨-2, 0⟩, 1), (⟨-1, 0⟩, 1),
    (⟨0, 0⟩, 1), (⟨1, 0⟩, 0), (⟨3, 1⟩, 2)]

theorem steps_and_minutes_exact_hollow :
    (∀ (p : Point) v, hollow[p]? = some v → IsWord v) ∧
      ∃ o, IsSystem hollow o ∧ (passages hollow).dist .origin o = 4 ∧ steps hollow = .ok 4 ∧
        IsGreatest {m | ∃ p, (passages hollow).Reachable o p ∧ (passages hollow).dist o p = m} 5 ∧
        minutes hollow = .ok 5 := by
  have hwords (p : Point) (v : Int) (hp : hollow[p]? = some v) : IsWord v := by
    have hall : ∀ w ∈ hollow.values, IsWord w := by decide +kernel
    exact hall v (Sparse.mem_values.mpr ⟨p, hp⟩)
  have hsteps : steps hollow = .ok 4 := by decide +kernel
  have hminutes : minutes hollow = .ok 5 := by decide +kernel
  refine ⟨hwords, ?_⟩
  rcases steps_and_minutes_exact hollow hwords with
    ⟨hnone, -⟩ | ⟨o, ho, hreach, hclosed, hfar, n, hn, hgreatest, -, -⟩
  · exact absurd (by decide +kernel) (hnone ⟨-2, -2⟩)
  · have hway : (passages hollow).Reachable .origin o := by
      by_contra hnot
      cases hsteps.symm.trans (hfar (by decide +kernel) hnot)
    have hdist := Except.ok.inj ((hreach hway).symm.trans hsteps)
    obtain rfl : n = 5 := by exact_mod_cast Except.ok.inj (hn.symm.trans hminutes)
    exact ⟨o, ho, by exact_mod_cast hdist, hsteps, hgreatest, hminutes⟩

end TapeNet.Oxygen
