import Mathlib.Combinatorics.SimpleGraph.Connectivity.Connected
import Mathlib.Data.Set.Card
import Mathlib.Dynamics.PeriodicPts.Lemmas
import TapeNet.Survey

/-! # Surveys of mazes

    A maze that does not change, and a droid in it that answers commands. The
    surveyor counts places from the start, where the droid is at first.

    - `region` is what can be reached from the start, `floor` its graph of
      neighbours.
    - `stride` is what becomes of a pose in one move. On the poses over the
      region it is injective, since what is beside a pose tells how it was
      reached (`stride_injective`).
    - `Surveyed M i s d`: after `i` moves the surveyor has been at the first
      poses of the orbit of the stride, and knows the cells ahead of them. One
      move keeps this (`Surveyed.step`).
    - `Surveyor.Course move s d poses s' d'`: on the way from one state to
      another, a survey tries these poses.
    - If the region is finite, the survey tries the poses of the orbit, each
      of them once, and ends at the first pose again (`exists_survey`).
-/

namespace TapeNet

/-! ### Points and headings -/

namespace Point

theorem add_left_injective (p : Point) : Function.Injective (p + ·) := by
  intro q r h
  obtain ⟨x, y⟩ := q
  obtain ⟨x', y'⟩ := r
  obtain ⟨hx, hy⟩ : p.x + x = p.x + x' ∧ p.y + y = p.y + y' := Point.mk.inj h
  rw [Int.add_left_cancel hx, Int.add_left_cancel hy]

end Point

namespace Heading

instance : Fintype Heading := Fintype.ofList all mem_all

theorem card_heading : Nat.card Heading = 4 := Nat.card_eq_fintype_card

end Heading

/-! ### Mazes -/

inductive Cell
  | wall
  | open
  | oxygen
deriving DecidableEq, Repr

/-- What a droid tells that was sent to a cell. -/
def Cell.status : Cell → Int
  | wall => Area.wall
  | .open => Area.open
  | oxygen => Area.oxygen

/-- A maze that does not change, and a place in it to start from. -/
structure Maze where
  cell : Point → Cell
  start : Point
  passable : cell start ≠ .wall

/-- A droid in a maze, with the commands it got, the latest first. -/
structure Explorer where
  position : Point
  commands : List Int
deriving DecidableEq, Repr

namespace Maze

/-- The cell at a place that is counted from the start. -/
def cellAt (M : Maze) (p : Point) : Cell := M.cell (M.start + p)

/-- A droid before its first command. -/
def explorer (M : Maze) : Explorer := ⟨M.start, []⟩

/-- The droid's answer to a command: it moves unless there is a wall. -/
def move (M : Maze) (command : Int) (d : Explorer) : Int × Explorer :=
  match Heading.all.find? (·.command = command) with
  | none => (Area.wall, ⟨d.position, command :: d.commands⟩)
  | some h =>
    if M.cell (d.position + h.step) = .wall then
      (Area.wall, ⟨d.position, command :: d.commands⟩)
    else
      ((M.cell (d.position + h.step)).status, ⟨d.position + h.step, command :: d.commands⟩)

/-- Places next to each other that are not walls. -/
def passages (M : Maze) : SimpleGraph Point where
  Adj p q := M.cellAt p ≠ .wall ∧ M.cellAt q ≠ .wall ∧ ∃ h : Heading, q = p + h.step
  symm := ⟨by
    rintro p q ⟨hp, hq, h, rfl⟩
    exact ⟨hq, hp, h.back, (Heading.add_step_back p h).symm⟩⟩
  loopless := ⟨by
    rintro p ⟨-, -, h, heq⟩
    exact Heading.step_ne p h heq.symm⟩

/-- The places that can be reached from the start. -/
def region (M : Maze) : Set Point := {p | M.passages.Reachable .origin p}

/-- The region as a graph of neighbours. -/
def floor (M : Maze) : SimpleGraph M.region := M.passages.induce M.region

variable {M : Maze}

theorem cellAt_origin (M : Maze) : M.cellAt .origin = M.cell M.start := by
  rw [cellAt, Point.add_origin]

theorem origin_mem_region (M : Maze) : .origin ∈ M.region := SimpleGraph.Reachable.refl _

/-- There are no walls in the region. -/
theorem passable_of_mem {p : Point} (hp : p ∈ M.region) : M.cellAt p ≠ .wall := by
  obtain ⟨w⟩ := SimpleGraph.Reachable.symm hp
  cases w with
  | nil => rw [cellAt_origin]; exact M.passable
  | cons hadj _ => exact hadj.1

/-- What is ahead of a place in the region is in the region, or a wall. -/
theorem step_mem_region {p : Point} (hp : p ∈ M.region) {h : Heading}
    (hh : M.cellAt (p + h.step) ≠ .wall) : p + h.step ∈ M.region :=
  SimpleGraph.Reachable.trans hp (SimpleGraph.Adj.reachable ⟨passable_of_mem hp, hh, h, rfl⟩)

/-! ### Mazes with finitely many cells -/

/-- A maze that is given by some of its cells; there are walls everywhere else. -/
def ofCells (cells : List (Point × Cell)) (start : Point)
    (passable : (cells.lookup start).getD .wall ≠ .wall) : Maze :=
  ⟨fun p => (cells.lookup p).getD .wall, start, passable⟩

section

variable {cells : List (Point × Cell)} {start : Point}
  {passable : (cells.lookup start).getD .wall ≠ .wall}

theorem mem_of_passable {p : Point} (hp : (ofCells cells start passable).cellAt p ≠ .wall) :
    start + p ∈ cells.map Prod.fst := by
  have hcell : (cells.lookup (start + p)).getD .wall ≠ .wall := hp
  cases hlookup : cells.lookup (start + p) with
  | none =>
    rw [hlookup] at hcell
    exact absurd rfl hcell
  | some c =>
    obtain ⟨before, after, hcells, -⟩ := List.lookup_eq_some_iff.mp hlookup
    rw [hcells]
    simp

theorem finite_region_ofCells : (ofCells cells start passable).region.Finite :=
  ((cells.map Prod.fst).finite_toSet.preimage (Point.add_left_injective start).injOn).subset
    fun _ hp => mem_of_passable (passable_of_mem hp)

theorem ncard_region_ofCells : (ofCells cells start passable).region.ncard ≤ cells.length := by
  have hle : (ofCells cells start passable).region.ncard ≤
      ((cells.map Prod.fst).toFinset : Set Point).ncard := by
    refine Set.ncard_le_ncard_of_injOn (start + ·) (fun p hp => ?_)
      (Point.add_left_injective start).injOn (Finset.finite_toSet _)
    exact List.mem_toFinset.mpr (mem_of_passable (passable_of_mem hp))
  rw [Set.ncard_coe_finset] at hle
  exact hle.trans ((List.toFinset_card_le _).trans (List.length_map _).le)

end

/-! ### Strides -/

/-- A place in the region, and a heading. -/
abbrev Stance (M : Maze) : Type := M.region × Heading

/-- The stance as a pose. -/
def toPose (q : M.Stance) : Pose := ⟨q.1, q.2⟩

/-- The stance that a survey starts in. -/
def home (M : Maze) : M.Stance := (⟨.origin, M.origin_mem_region⟩, .east)

/-- The stance after one move. -/
def stride (M : Maze) (q : M.Stance) : M.Stance :=
  if h : M.cellAt (toPose q).ahead = .wall then (q.1, q.2.left)
  else (⟨(toPose q).ahead, step_mem_region q.1.2 h⟩, q.2.right)

theorem stride_of_wall {q : M.Stance} (h : M.cellAt (toPose q).ahead = .wall) :
    M.stride q = (q.1, q.2.left) := dif_pos h

theorem stride_of_floor {q : M.Stance} (h : M.cellAt (toPose q).ahead ≠ .wall) :
    M.stride q = (⟨(toPose q).ahead, step_mem_region q.1.2 h⟩, q.2.right) := dif_neg h

/-- A droid that looks at a place in the region goes there. -/
theorem stride_to {p r : M.region} {g : Heading} (hr : (r : Point) = p + g.step) :
    M.stride (p, g) = (r, g.right) := by
  have hfloor : M.cellAt (p + g.step) ≠ .wall := hr ▸ passable_of_mem r.2
  exact (stride_of_floor hfloor).trans (Prod.ext (Subtype.ext hr.symm) rfl)

/-- How a stance was reached: by a turn if there is a wall on its right, and otherwise by a move
    from there. -/
theorem cases_of_stride {q r : M.Stance} (h : M.stride q = r) :
    (M.cellAt (r.1 + r.2.right.step) = .wall ∧ q = (r.1, r.2.right)) ∨
    ((q.1 : Point) = r.1 + r.2.right.step ∧ q.2 = r.2.left) := by
  subst h
  obtain ⟨p, g⟩ := q
  by_cases hwall : M.cellAt (toPose (p, g)).ahead = .wall
  · rw [stride_of_wall hwall]
    refine .inl ⟨?_, ?_⟩
    · rwa [Heading.left_right]
    · rw [Heading.left_right]
  · rw [stride_of_floor hwall]
    refine .inr ⟨?_, (Heading.right_left g).symm⟩
    show (p : Point) = p + g.step + g.right.right.step
    rw [Heading.right_right, Heading.add_step_back]

theorem stride_injective (M : Maze) : Function.Injective M.stride := by
  intro q q' heq
  rcases cases_of_stride heq with ⟨hwall, hq⟩ | ⟨hplace, hheading⟩
  · rcases cases_of_stride (rfl : M.stride q' = M.stride q') with ⟨-, hq'⟩ | ⟨hplace', -⟩
    · exact hq.trans hq'.symm
    · -- one was reached from where the other one has a wall
      rw [← hplace'] at hwall
      exact absurd hwall (passable_of_mem q'.1.2)
  · rcases cases_of_stride (rfl : M.stride q' = M.stride q') with ⟨hwall', -⟩ | ⟨hplace', hheading'⟩
    · rw [← hplace] at hwall'
      exact absurd hwall' (passable_of_mem q.1.2)
    · exact Prod.ext (Subtype.ext (hplace.trans hplace'.symm)) (hheading.trans hheading'.symm)

/-! ### The orbit of the start -/

/-- The stance after a number of moves. -/
def stanceAt (M : Maze) (i : Nat) : M.Stance := M.stride^[i] M.home

/-- The number of moves after which the survey is back at its first stance. -/
noncomputable def lap (M : Maze) : Nat := Function.minimalPeriod M.stride M.home

theorem stanceAt_succ (M : Maze) (i : Nat) : M.stanceAt (i + 1) = M.stride (M.stanceAt i) :=
  Function.iterate_succ_apply' _ _ _

theorem stanceAt_lap (M : Maze) : M.stanceAt M.lap = M.home :=
  Function.isPeriodicPt_minimalPeriod M.stride M.home

/-- The stances of one lap are different. -/
theorem stanceAt_inj {i j : Nat} (hi : i < M.lap) (hj : j < M.lap)
    (h : M.stanceAt i = M.stanceAt j) : i = j :=
  Function.iterate_injOn_Iio_minimalPeriod hi hj h

theorem card_stance : Nat.card M.Stance = 4 * M.region.ncard := by
  rw [Nat.card_prod, Nat.card_coe_set_eq, Heading.card_heading, Nat.mul_comm]

/-- The survey comes to this stance. -/
def Visited (M : Maze) (q : M.Stance) : Prop := ∃ i, M.stanceAt i = q

theorem visited_home (M : Maze) : M.Visited M.home := ⟨0, rfl⟩

theorem Visited.stride {q : M.Stance} (h : M.Visited q) : M.Visited (M.stride q) := by
  obtain ⟨i, rfl⟩ := h
  exact ⟨i + 1, M.stanceAt_succ i⟩

theorem Visited.iterate {q : M.Stance} (h : M.Visited q) (n : Nat) :
    M.Visited (M.stride^[n] q) := by
  obtain ⟨i, rfl⟩ := h
  refine ⟨n + i, ?_⟩
  exact Function.iterate_add_apply M.stride n i M.home

section

variable [Finite M.region]

theorem lap_pos : 0 < M.lap :=
  Function.minimalPeriod_pos_of_mem_periodicPts (M.stride_injective.mem_periodicPts M.home)

/-- The survey comes to a stance in its first lap. -/
theorem Visited.exists_lt {q : M.Stance} (h : M.Visited q) : ∃ i < M.lap, M.stanceAt i = q := by
  obtain ⟨i, rfl⟩ := h
  exact ⟨i % M.lap, Nat.mod_lt i lap_pos, Function.iterate_mod_minimalPeriod_eq⟩

/-- A stance that the survey comes to was reached from another one, the first stance too. -/
theorem Visited.exists_before {q : M.Stance} (h : M.Visited q) :
    ∃ r, M.Visited r ∧ M.stride r = q := by
  obtain ⟨i, rfl⟩ := h
  refine ⟨M.stanceAt (i + (M.lap - 1)), ⟨_, rfl⟩, ?_⟩
  have hpos : 0 < M.lap := lap_pos
  rw [← stanceAt_succ, show i + (M.lap - 1) + 1 = i + M.lap by omega]
  exact Function.iterate_add_minimalPeriod_eq

/-- A lap has as many moves as there are stances, at most. -/
theorem lap_le : M.lap ≤ 4 * M.region.ncard := by
  have := Fintype.ofFinite M.Stance
  rw [← card_stance, Nat.card_eq_fintype_card]
  exact Function.minimalPeriod_le_card

end

/-! ### Courses -/

end Maze

namespace Surveyor

/-- From one state of surveyor and droid, a survey goes on to another and tries these poses on its
    way, one move for each. -/
inductive Course {δ : Type} (move : Int → δ → Int × δ) :
    Surveyor → δ → List Pose → Surveyor → δ → Prop
  | stay (s : Surveyor) (d : δ) : Course move s d [] s d
  | move {s s₁ s' : Surveyor} {d d₁ d' : δ} {command status : Int} {poses : List Pose}
      (hcommand : s.command? = some command) (hmove : move command d = (status, d₁))
      (hlearn : s.learn status = .ok s₁) (hrest : Course move s₁ d₁ poses s' d') :
      Course move s d (s.pose :: poses) s' d'

/-- A run goes along the course. -/
theorem Course.run_eq {δ : Type} {move : Int → δ → Int × δ} {s s' : Surveyor} {d d' : δ}
    {poses : List Pose} (h : Course move s d poses s' d') (fuel : Nat) :
    run move (poses.length + fuel) s d = run move fuel s' d' := by
  induction h with
  | stay s d => rw [List.length_nil, Nat.zero_add]
  | move hcommand hmove hlearn hrest ih =>
    rw [List.length_cons, Nat.add_right_comm, run, hcommand]
    simp only [hmove, hlearn]
    exact ih

end Surveyor

namespace Maze

variable {M : Maze}

/-! ### Surveys under way -/

/-- What a surveyor and the droid have come to after `i` moves. -/
structure Surveyed (M : Maze) (i : Nat) (s : Surveyor) (d : Explorer) : Prop where
  pose_eq : s.pose = toPose (M.stanceAt i)
  moves_eq : s.moves = i
  mem_tried : ∀ q, q ∈ s.tried ↔ ∃ j < i, toPose (M.stanceAt j) = q
  /-- the cells ahead are known -/
  seen : ∀ j < i, s.area[(toPose (M.stanceAt j)).ahead]? =
    some (M.cellAt (toPose (M.stanceAt j)).ahead).status
  /-- and nothing else, except that the start counts as open until it is seen -/
  known : ∀ p v, s.area[p]? = some v →
    (∃ j < i, (toPose (M.stanceAt j)).ahead = p) ∨ (p = .origin ∧ v = Area.open)
  origin_mem : .origin ∈ s.area
  position_eq : d.position = M.start + (M.stanceAt i).1
  length_commands : d.commands.length = i

theorem surveyed_start (M : Maze) : Surveyed M 0 .start M.explorer where
  pose_eq := rfl
  moves_eq := rfl
  mem_tried q := by
    refine ⟨fun hq => absurd hq Std.TreeSet.not_mem_emptyc, ?_⟩
    rintro ⟨j, hj, -⟩
    exact absurd hj (Nat.not_lt_zero j)
  seen j hj := absurd hj (Nat.not_lt_zero j)
  known p v h := by
    rw [Surveyor.start, Sparse.getElem?_insert] at h
    split at h
    · next hp =>
      obtain rfl := Option.some.inj h
      exact .inr ⟨hp.symm, rfl⟩
    · cases h.symm.trans Std.TreeMap.getElem?_emptyc
  origin_mem := Std.TreeMap.mem_insert_self
  position_eq := (Point.add_origin _).symm
  length_commands := rfl

/-- The droid finds its command. -/
theorem move_command (M : Maze) (h : Heading) (d : Explorer) :
    M.move h.command d =
      if M.cell (d.position + h.step) = .wall then
        (Area.wall, ⟨d.position, h.command :: d.commands⟩)
      else
        ((M.cell (d.position + h.step)).status,
          ⟨d.position + h.step, h.command :: d.commands⟩) := by
  cases h <;> rfl

theorem toPose_injective (M : Maze) : Function.Injective (toPose (M := M)) := by
  intro q r h
  exact Prod.ext (Subtype.ext (congrArg Pose.position h)) (congrArg Pose.heading h)

/-- A status other than that of a wall is taken as a move. -/
theorem learn_of_floor (s : Surveyor) {c : Cell} (hc : c ≠ .wall) :
    s.learn c.status = .ok (s.found c.status s.pose.moved) := by
  cases c with
  | wall => exact absurd rfl hc
  | «open» => rfl
  | oxygen => rfl

/-- The droid's place in the maze is that of the surveyor, so it answers with the cell ahead, and
    both move on to the next stance. -/
theorem Surveyed.answer {i : Nat} {s : Surveyor} {d : Explorer} (h : Surveyed M i s d) :
    ∃ status d', M.move s.pose.heading.command d = (status, d') ∧
      s.learn status = .ok (s.found (M.cellAt (toPose (M.stanceAt i)).ahead).status
        (toPose (M.stanceAt (i + 1)))) ∧
      d'.position = M.start + (M.stanceAt (i + 1)).1 ∧
      d'.commands = s.pose.heading.command :: d.commands := by
  have hcell : M.cell (d.position + s.pose.heading.step) =
      M.cellAt (toPose (M.stanceAt i)).ahead := by
    rw [h.position_eq, h.pose_eq, Point.add_assoc]
    rfl
  rw [move_command, hcell, M.stanceAt_succ]
  by_cases hwall : M.cellAt (toPose (M.stanceAt i)).ahead = .wall
  · rw [if_pos hwall, stride_of_wall hwall]
    refine ⟨_, _, rfl, ?_, h.position_eq, rfl⟩
    rw [hwall, Surveyor.learn, if_pos rfl, h.pose_eq]
    rfl
  · rw [if_neg hwall, stride_of_floor hwall]
    refine ⟨_, _, rfl, ?_, ?_, rfl⟩
    · rw [learn_of_floor s hwall, h.pose_eq]
      rfl
    · rw [h.position_eq, h.pose_eq, Point.add_assoc]
      rfl

/-- The entry of a cell ahead that was just found. -/
theorem Surveyed.found {i : Nat} {s : Surveyor} {d d' : Explorer} (h : Surveyed M i s d)
    (hposition : d'.position = M.start + (M.stanceAt (i + 1)).1)
    (hcommands : d'.commands = s.pose.heading.command :: d.commands) :
    Surveyed M (i + 1) (s.found (M.cellAt (toPose (M.stanceAt i)).ahead).status
      (toPose (M.stanceAt (i + 1)))) d' where
  pose_eq := rfl
  moves_eq := congrArg (· + 1) h.moves_eq
  mem_tried q := by
    rw [Surveyor.found, Std.TreeSet.mem_insert, Std.compare_eq_iff_eq, h.mem_tried, h.pose_eq]
    simp only [Nat.lt_succ_iff_lt_or_eq, or_and_right, exists_or, exists_eq_left, or_comm]
  seen j hj := by
    rw [Surveyor.found, Sparse.getElem?_insert, h.pose_eq]
    by_cases heq : (toPose (M.stanceAt i)).ahead = (toPose (M.stanceAt j)).ahead
    · rw [if_pos heq, heq]
    · -- it was known before
      have hne : j ≠ i := fun hji => heq (by rw [hji])
      rw [if_neg heq]
      exact h.seen j (by omega)
  known p v hp := by
    rw [Surveyor.found, Sparse.getElem?_insert, h.pose_eq] at hp
    split at hp
    · next heq => exact .inl ⟨i, Nat.lt_succ_self i, heq⟩
    · rcases h.known p v hp with ⟨j, hj, heq⟩ | hstart
      · exact .inl ⟨j, Nat.lt_succ_of_lt hj, heq⟩
      · exact .inr hstart
  origin_mem := Std.TreeMap.mem_insert.mpr (.inr h.origin_mem)
  position_eq := hposition
  length_commands := by rw [hcommands, List.length_cons, h.length_commands]

/-- One move of a survey. -/
theorem Surveyed.step {i : Nat} {s : Surveyor} {d : Explorer} (h : Surveyed M i s d)
    (hnew : ∀ j < i, M.stanceAt j ≠ M.stanceAt i) :
    ∃ command status s' d', s.command? = some command ∧ M.move command d = (status, d') ∧
      s.learn status = .ok s' ∧ Surveyed M (i + 1) s' d' := by
  have hcommand : s.command? = some s.pose.heading.command := by
    rw [Surveyor.command?, if_neg]
    rw [Std.TreeSet.contains_iff_mem, h.mem_tried, h.pose_eq]
    rintro ⟨j, hj, heq⟩
    exact hnew j hj (M.toPose_injective heq)
  obtain ⟨status, d', hmove, hlearn, hposition, hcommands⟩ := h.answer
  exact ⟨_, status, _, d', hcommand, hmove, hlearn, h.found hposition hcommands⟩

/-- The poses of a lap, in the order in which the survey comes to them. -/
noncomputable def poses (M : Maze) : List Pose :=
  (List.range M.lap).map fun i => toPose (M.stanceAt i)

theorem length_poses (M : Maze) : M.poses.length = M.lap := by
  simp [poses]

theorem nodup_poses (M : Maze) : M.poses.Nodup := by
  apply List.Nodup.map_on _ List.nodup_range
  intro i hi j hj heq
  exact stanceAt_inj (List.mem_range.mp hi) (List.mem_range.mp hj) (M.toPose_injective heq)

theorem head?_poses (M : Maze) [Finite M.region] : M.poses.head? = some (toPose M.home) := by
  obtain ⟨n, hn⟩ := Nat.exists_eq_succ_of_ne_zero (lap_pos (M := M)).ne'
  rw [poses, hn, List.range_succ_eq_map]
  rfl

/-- The poses that were tried in a lap. -/
theorem Surveyed.mem_tried_iff {s : Surveyor} {d : Explorer} (h : Surveyed M M.lap s d)
    (q : Pose) : q ∈ s.tried ↔ q ∈ M.poses := by
  simp [h.mem_tried, poses]

/-- A survey that is under way tries the other poses of its lap. -/
theorem Surveyed.exists_course {i n : Nat} (hn : i + n = M.lap) {s : Surveyor} {d : Explorer}
    (h : Surveyed M i s d) :
    ∃ s' d', Surveyed M M.lap s' d' ∧
      Surveyor.Course M.move s d ((List.range' i n).map fun j => toPose (M.stanceAt j)) s' d' := by
  induction n generalizing i s d with
  | zero =>
    obtain rfl : i = M.lap := hn
    exact ⟨s, d, h, .stay s d⟩
  | succ n ih =>
    have hnew : ∀ j < i, M.stanceAt j ≠ M.stanceAt i := by
      intro j hj heq
      have := stanceAt_inj (by omega) (by omega) heq
      omega
    obtain ⟨command, status, s₁, d₁, hcommand, hmove, hlearn, h₁⟩ := h.step hnew
    obtain ⟨s', d', h', hcourse⟩ := ih (by omega) h₁
    refine ⟨s', d', h', ?_⟩
    rw [List.range'_succ, List.map_cons, ← h.pose_eq]
    exact .move hcommand hmove hlearn hcourse

/-- After a lap the survey is over, as its first pose was tried. -/
theorem Surveyed.command?_eq_none [Finite M.region] {s : Surveyor} {d : Explorer}
    (h : Surveyed M M.lap s d) : s.command? = none := by
  rw [Surveyor.command?, if_pos]
  rw [Std.TreeSet.contains_iff_mem, h.mem_tried, h.pose_eq, stanceAt_lap]
  exact ⟨0, lap_pos, rfl⟩

/-- The survey of a finite region is over after one lap. -/
theorem exists_survey (M : Maze) [Finite M.region] :
    ∃ s d, Surveyed M M.lap s d ∧ Surveyor.Course M.move .start M.explorer M.poses s d ∧
      ∀ fuel, M.lap < fuel → Surveyor.run M.move fuel .start M.explorer = some (.ok s, d) := by
  obtain ⟨s, d, h, hcourse⟩ := (surveyed_start M).exists_course (Nat.zero_add M.lap)
  rw [← List.range_eq_range'] at hcourse
  refine ⟨s, d, h, hcourse, ?_⟩
  intro fuel hfuel
  obtain ⟨k, rfl⟩ := Nat.exists_eq_add_of_lt hfuel
  have hrun := hcourse.run_eq (k + 1)
  rw [← poses, length_poses] at hrun
  rw [Nat.add_assoc, hrun, Surveyor.run, h.command?_eq_none]

end Maze

end TapeNet
