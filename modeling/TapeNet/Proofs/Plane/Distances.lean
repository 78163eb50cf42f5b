import TapeNet.Plane.Search
import TapeNet.Proofs.Plane.Walks

/-! # Distances by search

    The marks of a breadth-first search are distances from its start.

    - `Search.Marked free s k far marks`: what marks say in the course of a
      search. They are final: all cells up to distance `k` have theirs, and so
      do the cells in `far`, which are one step further away.
    - `Search.Layered free s k near far marks`: the queue is `near ++ far`, the
      cells in front at distance `k` and those behind one step further away.
      A turn keeps this (`Layered.expand`); when no near cell is left, the far
      ones are near for the next distance (`Layered.shift`).
    - `Search.room`: how many cells are not marked. A turn takes one cell off
      the queue, and puts as many on as it takes from the room.
    - `Search.Ends free s marks`: the search, with no limit to its turns, comes
      to an empty queue and leaves these marks (`Layered.ends`).
    - `Grid.exists_distances`: the marks of a grid are distances, or -1.
-/

namespace TapeNet

namespace Grid

/-- A cell of a grid that is set is at a position of it. -/
theorem isSet_iff {free : Grid Bool} {p : Point} :
    free.isSet p ↔ p ∈ free.positions ∧ free.get? p = some true := by
  rw [isSet, beq_iff_eq, ← isSome_get?_iff, iff_and_self]
  intro h
  rw [h]
  rfl

/-- There is no way out of a grid. -/
theorem mem_positions_of_edist {free : Grid Bool} {s p : Point} (hs : free.isSet s) {n : ℕ}
    (hp : (freeGraph free.isSet).edist s p = n) : p ∈ free.positions :=
  (isSet_iff.mp (free_of_reachable hs (edist_eq_iff.mp hp).1)).1

theorem positions_eq {α β : Type} {g : Grid α} {g' : Grid β} (hwidth : g.width = g'.width)
    (hheight : g.height = g'.height) : g.positions = g'.positions := by
  rw [positions, positions, hwidth, hheight]

end Grid

namespace Search

variable {free : Grid Bool} {s c p : Point} {k : ℕ} {near far queue : List Point}
  {marks : Grid Int}

/-! ### The room that is left -/

/-- The number of cells that are not marked. -/
def room (marks : Grid Int) : ℕ :=
  (marks.positions.toFinset.filter fun p => marks.get? p = some unmarked).card

theorem room_le (marks : Grid Int) : room marks ≤ marks.width * marks.height := by
  rw [← marks.length_positions]
  exact (Finset.card_filter_le _ _).trans (List.toFinset_card_le _)

/-- Marking a cell takes one from the room. -/
theorem room_of_store {marks' : Grid Int} {v : Int} (hp : marks.get? p = some unmarked)
    (hv : v ≠ unmarked) (hwidth : marks'.width = marks.width)
    (hheight : marks'.height = marks.height)
    (hget : ∀ q, marks'.get? q = if q = p then some v else marks.get? q) :
    room marks' + 1 = room marks := by
  have hmem : p ∈ marks.positions.toFinset.filter fun p => marks.get? p = some unmarked := by
    rw [Finset.mem_filter, List.mem_toFinset, ← Grid.isSome_get?_iff, hp]
    exact ⟨rfl, rfl⟩
  have herase : (marks'.positions.toFinset.filter fun q => marks'.get? q = some unmarked) =
      (marks.positions.toFinset.filter fun q => marks.get? q = some unmarked).erase p := by
    rw [Grid.positions_eq hwidth hheight]
    ext q
    rw [Finset.mem_filter, Finset.mem_erase, Finset.mem_filter, hget]
    by_cases hq : q = p <;> simp [hq, hv]
  rw [room, herase, Finset.card_erase_add_one hmem, room]

/-! ### Looking at a neighbour -/

/-- Marks are distances, and these cells have one: all up to distance `k`, and those in `far`, which
    are one step further away. -/
structure Marked (free : Grid Bool) (s : Point) (k : ℕ) (far : List Point) (marks : Grid Int) :
    Prop where
  width_eq : marks.width = free.width
  height_eq : marks.height = free.height
  edist_far (p : Point) (hp : p ∈ far) : (freeGraph free.isSet).edist s p = (k + 1 : ℕ)
  mark (p : Point) (n : ℕ) : marks.get? p = some (n : Int) ↔
    (freeGraph free.isSet).edist s p = n ∧ (n ≤ k ∨ p ∈ far)
  other (p : Point) (v : Int) (hv : marks.get? p = some v) : v = unmarked ∨ ∃ n : ℕ, v = n

/-- A free cell next to one at distance `k` that is not marked is one step further away. -/
theorem Marked.edist_of_unmarked (h : Marked free s k far marks) (hs : free.isSet s)
    (hc : (freeGraph free.isSet).edist s c = k) (hp : p ∈ c.neighbours) (hfree : free.isSet p)
    (hmark : marks.get? p = some unmarked) :
    (freeGraph free.isSet).edist s p = (k + 1 : ℕ) := by
  rw [edist_eq_succ_iff]
  refine ⟨⟨c, hc, free_of_reachable hs (edist_eq_iff.mp hc).1, hfree, hp⟩, ?_⟩
  intro n hn hedist
  have hsome := (h.mark p n).mpr ⟨hedist, .inl hn⟩
  rw [hmark, unmarked] at hsome
  have := Option.some.inj hsome
  omega

/-- The marks with one more, and the room that it takes. -/
theorem Marked.store (h : Marked free s k far marks)
    (hp : (freeGraph free.isSet).edist s p = (k + 1 : ℕ)) (hmark : marks.get? p = some unmarked) :
    ∃ marks', marks.store p ((k : Int) + 1) = .ok marks' ∧ Marked free s k (far ++ [p]) marks' ∧
      room marks' + 1 = room marks := by
  have hmem : p ∈ marks.positions := Grid.isSome_get?_iff.mp (by rw [hmark]; rfl)
  obtain ⟨marks', hstore, hwidth, hheight, hget⟩ := Grid.exists_store hmem ((k : Int) + 1)
  refine ⟨marks', hstore, ?_, room_of_store hmark (by simp only [unmarked]; omega) hwidth hheight
    hget⟩
  constructor
  case width_eq => rw [hwidth, h.width_eq]
  case height_eq => rw [hheight, h.height_eq]
  case edist_far =>
    intro q hq
    rcases List.mem_append.mp hq with hq | hq
    · exact h.edist_far q hq
    · rw [List.mem_singleton.mp hq, hp]
  case mark =>
    intro q n
    rw [hget, List.mem_append, List.mem_singleton]
    by_cases hq : q = p
    · rw [if_pos hq, hq, hp, Option.some.injEq]
      norm_cast
      tauto
    · rw [if_neg hq, h.mark]
      tauto
  case other =>
    intro q v hv
    rw [hget] at hv
    split at hv
    · exact .inr ⟨k + 1, by rw [← Option.some.inj hv]; rfl⟩
    · exact h.other q v hv

/-- Looking from a cell at distance `k` at a neighbour. If the neighbour is one step further away
    then it is marked afterwards, and in the queue if it was not marked before. -/
theorem Marked.look (h : Marked free s k far marks) (hs : free.isSet s)
    (hc : (freeGraph free.isSet).edist s c = k) (hp : p ∈ c.neighbours) (queue : List Point) :
    ∃ marks' new, Search.look free c ⟨marks, queue⟩ p = .ok ⟨marks', queue ++ new⟩ ∧
      Marked free s k (far ++ new) marks' ∧ room marks' + new.length = room marks ∧
      ((freeGraph free.isSet).edist s p = (k + 1 : ℕ) → p ∈ far ++ new) := by
  by_cases hfree : free.isSet p
  · have hmem : p ∈ marks.positions := by
      rw [Grid.positions_eq h.width_eq h.height_eq]
      exact (Grid.isSet_iff.mp hfree).1
    obtain ⟨v, hv⟩ := Option.isSome_iff_exists.mp (Grid.isSome_get?_iff.mpr hmem)
    have hread := Grid.read_eq_ok hv
    rcases h.other p v hv with rfl | ⟨n, rfl⟩
    · -- the neighbour is new
      have hedist := h.edist_of_unmarked hs hc hp hfree hv
      have hdistance := Grid.read_eq_ok ((h.mark c k).mpr ⟨hc, .inl le_rfl⟩)
      obtain ⟨marks', hstore, hmarked, hroom⟩ := h.store hedist hv
      refine ⟨marks', [p], ?_, hmarked, hroom, fun _ => List.mem_append_right _ List.mem_cons_self⟩
      simp [Search.look, hfree, hread, hdistance, hstore, unmarked, bind, Except.bind, pure,
        Except.pure]
    · refine ⟨marks, [], ?_, by simpa using h, rfl, ?_⟩
      · have hnot : ¬(n : Int) < 0 := by omega
        simp [Search.look, hfree, hread, hnot, bind, Except.bind, pure, Except.pure]
      · intro hedist
        obtain ⟨hn, hfar⟩ := (h.mark p n).mp hv
        rw [hedist] at hn
        norm_cast at hn
        rw [List.append_nil]
        exact hfar.resolve_left (by omega)
  · refine ⟨marks, [], ?_, by simpa using h, rfl, ?_⟩
    · simp [Search.look, hfree, pure, Except.pure]
    · intro hedist
      exact absurd (free_of_reachable hs (edist_eq_iff.mp hedist).1) hfree

/-- Looking at several neighbours, one after the other. -/
theorem Marked.looks (h : Marked free s k far marks) (hs : free.isSet s)
    (hc : (freeGraph free.isSet).edist s c = k) {ps : List Point} (hps : ∀ p ∈ ps, p ∈ c.neighbours)
    (queue : List Point) :
    ∃ marks' new, ps.foldlM (Search.look free c) ⟨marks, queue⟩ = .ok ⟨marks', queue ++ new⟩ ∧
      Marked free s k (far ++ new) marks' ∧ room marks' + new.length = room marks ∧
      ∀ p ∈ ps, (freeGraph free.isSet).edist s p = (k + 1 : ℕ) → p ∈ far ++ new := by
  induction ps generalizing far marks queue with
  | nil => exact ⟨marks, [], by simp [pure, Except.pure], by simpa using h, rfl, by simp⟩
  | cons p ps ih =>
    obtain ⟨hp, hrest⟩ := List.forall_mem_cons.mp hps
    obtain ⟨marks₁, new₁, hlook, h₁, hroom₁, hfound⟩ := h.look hs hc hp queue
    obtain ⟨marks', new, hlooks, h', hroom, hall⟩ := ih h₁ hrest (queue ++ new₁)
    rw [List.append_assoc] at hlooks h' hall
    refine ⟨marks', new₁ ++ new, ?_, h', ?_, ?_⟩
    · rw [List.foldlM_cons, hlook]
      exact hlooks
    · rw [List.length_append]
      omega
    · rw [List.forall_mem_cons]
      refine ⟨?_, hall⟩
      intro hedist
      rw [← List.append_assoc]
      exact List.mem_append_left new (hfound hedist)

/-! ### One turn -/

/-- The queue has cells of two distances at most, those at the smaller one in front. Of the cells at
    that distance, those that are not in the queue any more have had their neighbours looked at. -/
structure Layered (free : Grid Bool) (s : Point) (k : ℕ) (near far : List Point)
    (marks : Grid Int) : Prop extends Marked free s k far marks where
  edist_near (p : Point) (hp : p ∈ near) : (freeGraph free.isSet).edist s p = k
  next (q p : Point) (hq : (freeGraph free.isSet).edist s q = k) (hdone : q ∉ near)
    (hadj : (freeGraph free.isSet).Adj q p)
    (hp : (freeGraph free.isSet).edist s p = (k + 1 : ℕ)) : p ∈ far

/-- A turn takes the first cell off the queue, and puts cells a step further away at its end. -/
theorem Layered.expand (h : Layered free s k (c :: near) far marks) (hs : free.isSet s) :
    ∃ marks' new,
      Search.expand free c ⟨marks, near ++ far⟩ = .ok ⟨marks', near ++ (far ++ new)⟩ ∧
      Layered free s k near (far ++ new) marks' ∧ room marks' + new.length = room marks := by
  obtain ⟨hc, hnear⟩ := List.forall_mem_cons.mp h.edist_near
  obtain ⟨marks', new, hexpand, hmarked, hroom, hall⟩ :=
    h.toMarked.looks hs hc (fun _ hp => hp) (near ++ far)
  rw [List.append_assoc] at hexpand
  refine ⟨marks', new, hexpand, ⟨hmarked, hnear, ?_⟩, hroom⟩
  intro q p hq hdone hadj hp
  by_cases hqc : q = c
  · rw [hqc] at hadj
    exact hall p hadj.2.2 hp
  · apply List.mem_append_left
    apply h.next q p hq _ hadj hp
    rw [List.mem_cons, not_or]
    exact ⟨hqc, hdone⟩

/-- Without a near cell, all cells that are one step further away are in the queue. -/
theorem Layered.mem_far_iff (h : Layered free s k [] far marks) :
    p ∈ far ↔ (freeGraph free.isSet).edist s p = (k + 1 : ℕ) := by
  constructor
  · exact h.edist_far p
  · intro hp
    obtain ⟨q, hq, hadj⟩ := exists_adj_of_edist_succ hp
    exact h.next q p hq List.not_mem_nil hadj hp

/-- The far cells are the near ones for the next distance. -/
theorem Layered.shift (h : Layered free s k [] far marks) :
    Layered free s (k + 1) far [] marks := by
  refine ⟨⟨h.width_eq, h.height_eq, by simp, ?_, h.other⟩, h.edist_far, ?_⟩
  · intro p n
    rw [h.mark, h.mem_far_iff]
    constructor
    · rintro ⟨hp, hn | hfar⟩
      · exact ⟨hp, .inl (Nat.le_succ_of_le hn)⟩
      · rw [hp] at hfar
        norm_cast at hfar
        exact ⟨hp, .inl hfar.le⟩
    · rintro ⟨hp, hn | hnil⟩
      · rcases Nat.le_succ_iff.mp hn with hn | rfl
        · exact ⟨hp, .inl hn⟩
        · exact ⟨hp, .inr hp⟩
      · cases hnil
  · intro q p hq hdone
    exact absurd (h.mem_far_iff.mpr hq) hdone

/-- A queue that is not empty has a near cell in front, for one distance or the next. -/
theorem Layered.exists_near (h : Layered free s k near far marks) {rest : List Point}
    (hqueue : near ++ far = c :: rest) :
    ∃ k' near' far', Layered free s k' (c :: near') far' marks ∧ near' ++ far' = rest := by
  cases near with
  | nil =>
    rw [List.nil_append] at hqueue
    rw [hqueue] at h
    exact ⟨k + 1, rest, [], h.shift, List.append_nil rest⟩
  | cons d near =>
    obtain ⟨rfl, rfl⟩ := List.cons.inj hqueue
    exact ⟨k, near, far, h, rfl⟩

/-! ### All turns -/

/-- With an empty queue, all that can be reached is marked. -/
theorem Layered.exact (h : Layered free s k [] [] marks) (p : Point) (n : ℕ) :
    marks.get? p = some (n : Int) ↔ (freeGraph free.isSet).edist s p = n := by
  rw [h.mark, and_iff_left_iff_imp]
  intro hp
  by_contra hnot
  -- on the way to a cell that is further away there would be one in the queue
  have hlt : k + 1 ≤ n := by
    by_contra hle
    exact hnot (.inl (by omega))
  obtain ⟨q, hq⟩ := exists_edist_eq hp hlt
  exact List.not_mem_nil (h.mem_far_iff.mpr hq)

/-- The search goes on as long as there are cells in the queue, and leaves marks in the end. -/
inductive Ends (free : Grid Bool) : Search → Grid Int → Prop
  | empty (marks : Grid Int) : Ends free ⟨marks, []⟩ marks
  | turn {marks result : Grid Int} {cell : Point} {queue : List Point} {s : Search}
      (hexpand : Search.expand free cell ⟨marks, queue⟩ = .ok s) (hrest : Ends free s result) :
      Ends free ⟨marks, cell :: queue⟩ result

/-- What the marks of a search are that has come to its end. -/
structure Exact (free : Grid Bool) (s : Point) (marks : Grid Int) : Prop where
  width_eq : marks.width = free.width
  height_eq : marks.height = free.height
  mark (p : Point) (n : ℕ) :
    marks.get? p = some (n : Int) ↔ (freeGraph free.isSet).edist s p = n
  other (p : Point) (v : Int) (hv : marks.get? p = some v) : v = unmarked ∨ ∃ n : ℕ, v = n

/-- With enough turns for the queue and for the room, the search comes to its end. -/
theorem Layered.ends (h : Layered free s k near far marks) (hs : free.isSet s) {n : ℕ}
    (hn : room marks + (near ++ far).length ≤ n) :
    ∃ result, Search.run free n ⟨marks, near ++ far⟩ = .ok ⟨result, []⟩ ∧
      Ends free ⟨marks, near ++ far⟩ result ∧ Exact free s result := by
  induction n generalizing k near far marks with
  | zero =>
    have hnil : near ++ far = [] := List.length_eq_zero_iff.mp (by omega)
    obtain ⟨rfl, rfl⟩ := List.append_eq_nil_iff.mp hnil
    exact ⟨marks, rfl, .empty marks, h.width_eq, h.height_eq, h.exact, h.other⟩
  | succ n ih =>
    cases hqueue : near ++ far with
    | nil =>
      obtain ⟨rfl, rfl⟩ := List.append_eq_nil_iff.mp hqueue
      exact ⟨marks, rfl, .empty marks, h.width_eq, h.height_eq, h.exact, h.other⟩
    | cons c rest =>
      obtain ⟨k', near', far', h', rfl⟩ := h.exists_near hqueue
      obtain ⟨marks', new, hexpand, hlayered, hroom⟩ := h'.expand hs
      obtain ⟨result, hrun, hends, hexact⟩ := ih hlayered (by
        rw [hqueue] at hn
        simp only [List.length_append, List.length_cons] at hn ⊢
        omega)
      refine ⟨result, ?_, .turn hexpand hends, hexact⟩
      simp only [Search.run, hexpand]
      exact hrun

/-! ### From the start -/

theorem exists_start (hs : free.isSet s) :
    ∃ marks, Search.start free s = .ok ⟨marks, [s]⟩ ∧ Layered free s 0 [s] [] marks ∧
      room marks + 1 ≤ free.width * free.height := by
  have hmem : s ∈ (Grid.full free.width free.height unmarked).positions := by
    rw [Grid.positions_eq (Grid.width_full ..) (Grid.height_full ..)]
    exact (Grid.isSet_iff.mp hs).1
  obtain ⟨marks, hstore, hwidth, hheight, hget⟩ := Grid.exists_store hmem 0
  obtain ⟨v, hv⟩ := Option.isSome_iff_exists.mp (Grid.isSome_get?_iff.mpr hmem)
  obtain rfl := Grid.eq_of_get?_full hv
  have hroom := room_of_store hv (by decide) hwidth hheight hget
  have hle := room_le (Grid.full free.width free.height unmarked)
  rw [Grid.width_full, Grid.height_full] at hle
  refine ⟨marks, ?_, ⟨⟨hwidth, ?_, by simp, ?_, ?_⟩, ?_, ?_⟩, ?_⟩
  · rw [Search.start, hstore]
    rfl
  · rw [hheight, Grid.height_full]
  · intro p n
    rw [hget, Nat.le_zero]
    by_cases hp : p = s
    · rw [if_pos hp, hp, SimpleGraph.edist_self, Option.some.injEq]
      norm_cast
      simp [eq_comm]
    · rw [if_neg hp]
      constructor
      · intro hv
        have hn := Grid.eq_of_get?_full hv
        simp only [unmarked] at hn
        omega
      · rintro ⟨hedist, hn | hnil⟩
        · rw [hn, Nat.cast_zero] at hedist
          exact absurd (SimpleGraph.edist_eq_zero_iff.mp hedist).symm hp
        · cases hnil
  · intro q v hv
    rw [hget] at hv
    split at hv
    · exact .inr ⟨0, (Option.some.inj hv).symm⟩
    · exact .inl (Grid.eq_of_get?_full hv)
  · intro p hp
    rw [List.mem_singleton.mp hp, SimpleGraph.edist_self, Nat.cast_zero]
  · intro q p hq hdone
    rw [Nat.cast_zero] at hq
    exact absurd (SimpleGraph.edist_eq_zero_iff.mp hq).symm (by simpa using hdone)
  · rw [hroom]
    exact hle

/-- From a free start, the search comes to an end with exact marks, and `distances` gives these. -/
theorem exists_result (hs : free.isSet s) :
    ∃ first result, Search.start free s = .ok first ∧ Ends free first result ∧
      free.distances s = .ok result ∧ Exact free s result := by
  obtain ⟨marks, hstart, hlayered, hroom⟩ := exists_start hs
  obtain ⟨result, hrun, hends, hexact⟩ := hlayered.ends hs hroom
  refine ⟨⟨marks, [s]⟩, result, hstart, hends, ?_, hexact⟩
  rw [List.append_nil] at hrun
  rw [Grid.distances, if_pos hs, hstart]
  simp only [bind, Except.bind, hrun]
  rfl

theorem Exact.get?_eq_some_iff (h : Exact free s marks) (hs : free.isSet s) (v : Int) :
    marks.get? p = some v ↔ p ∈ free.positions ∧
      ((freeGraph free.isSet).Reachable s p ∧ v = (freeGraph free.isSet).dist s p ∨
        ¬(freeGraph free.isSet).Reachable s p ∧ v = -1) := by
  have hpositions : marks.positions = free.positions := Grid.positions_eq h.width_eq h.height_eq
  by_cases hp : (freeGraph free.isSet).Reachable s p
  · have hedist := hp.coe_dist_eq_edist.symm
    have hmem := Grid.mem_positions_of_edist hs hedist
    simp [(h.mark p _).mpr hedist, hp, hmem, eq_comm]
  · have hother {u : Int} (hu : marks.get? p = some u) : u = -1 := by
      rcases h.other p u hu with hnone | ⟨n, hn⟩
      · exact hnone
      · rw [hn, h.mark] at hu
        exact absurd (edist_eq_iff.mp hu).1 hp
    simp only [hp, false_and, not_false_iff, true_and, false_or, ← hpositions,
      ← Grid.isSome_get?_iff]
    constructor
    · intro hv
      exact ⟨by rw [hv]; rfl, hother hv⟩
    · intro ⟨hsome, hv⟩
      obtain ⟨u, hu⟩ := Option.isSome_iff_exists.mp hsome
      rw [hu, hother hu, hv]

end Search

namespace Grid

/-! ### Distances on a grid -/

/-- From a free start there are distances, with a mark at each position. What is in reach is marked
    with its distance, and no mark but -1 is anything else. -/
theorem exists_distances {free : Grid Bool} {start : Point} (hstart : free.isSet start) :
    ∃ d, free.distances start = .ok d ∧ d.positions = free.positions ∧
      (∀ (p : Point) (n : ℕ), (freeGraph free.isSet).edist start p = n →
        d.get? p = some (n : Int)) ∧
      ∀ p v, d.get? p = some v →
        v = -1 ∨ ∃ n : ℕ, v = n ∧ (freeGraph free.isSet).edist start p = n := by
  obtain ⟨-, d, -, -, hd, hexact⟩ := Search.exists_result hstart
  refine ⟨d, hd, positions_eq hexact.width_eq hexact.height_eq,
    fun p n => (hexact.mark p n).mpr, ?_⟩
  intro p v hv
  refine (hexact.other p v hv).imp_right ?_
  intro ⟨n, hn⟩
  rw [hn] at hv
  exact ⟨n, hn, (hexact.mark p n).mp hv⟩

theorem distances_of_not_isSet {free : Grid Bool} {start : Point} (hstart : ¬free.isSet start) :
    free.distances start = .error (.notPassable start) := by
  rw [distances, if_neg hstart]

/-- Distances are those of the shortest walks over free cells, as far as there are any. The search
    that finds them comes to an empty queue by itself, and looks at no cell outside of the grid. -/
theorem distances_exact (free : Grid Bool) (start : Point) :
    (¬((0 ≤ start.x ∧ start.x < free.width ∧ 0 ≤ start.y ∧ start.y < free.height) ∧
        free.get? start = some true) ∧
      free.distances start = .error (.notPassable start)) ∨
    (((0 ≤ start.x ∧ start.x < free.width ∧ 0 ≤ start.y ∧ start.y < free.height) ∧
        free.get? start = some true) ∧
      ∃ first d, Search.start free start = .ok first ∧ Search.Ends free first d ∧
        free.distances start = .ok d ∧ d.width = free.width ∧ d.height = free.height ∧
        ∀ p v, d.get? p = some v ↔ p ∈ free.positions ∧
          ((freeGraph free.isSet).Reachable start p ∧ v = (freeGraph free.isSet).dist start p ∨
            ¬(freeGraph free.isSet).Reachable start p ∧ v = -1)) := by
  rw [← mem_positions, ← isSet_iff]
  by_cases hstart : free.isSet start
  · right
    obtain ⟨first, d, hfirst, hends, hd, hexact⟩ := Search.exists_result hstart
    exact ⟨hstart, first, d, hfirst, hends, hd, hexact.width_eq, hexact.height_eq,
      fun p v => hexact.get?_eq_some_iff hstart v⟩
  · left
    exact ⟨hstart, distances_of_not_isSet hstart⟩

end Grid

end TapeNet
