import TapeNet.Proofs.Survey.Maze

/-! # Every survey ends at home and tells the truth

    The stride is injective and the region finite, so the first stance that
    comes again is the first one.

    What is known of a place is what was seen there. Only the start is taken
    to be open from the beginning; but a droid that can leave the start comes
    back to it and looks at it then (`enclosed_or_seen`).
-/

namespace TapeNet

namespace Maze

variable {M : Maze}

/-- There is no way out of the start. -/
def Enclosed (M : Maze) : Prop := ∀ h : Heading, M.cellAt (Point.origin + h.step) = .wall

instance (M : Maze) : Decidable M.Enclosed :=
  inferInstanceAs (Decidable (∀ h : Heading, M.cellAt (Point.origin + h.step) = .wall))

/-- A place is looked at in the course of the survey. -/
def Seen (M : Maze) (p : Point) : Prop := ∃ q, M.Visited q ∧ (toPose q).ahead = p

/-- If the start is not looked at, then the droid can only have turned on the spot, so there is a
    wall on the right of each stance there. -/
theorem wall_of_not_seen [Finite M.region] (hseen : ¬M.Seen .origin) {h : Heading}
    (hvisited : M.Visited (M.home.1, h)) :
    M.cellAt (Point.origin + h.right.step) = .wall ∧ M.Visited (M.home.1, h.right) := by
  obtain ⟨q, hq, hstride⟩ := hvisited.exists_before
  rcases cases_of_stride hstride with ⟨hwall, rfl⟩ | ⟨hplace, hheading⟩
  · exact ⟨hwall, hq⟩
  · refine absurd ⟨q, hq, ?_⟩ hseen
    show (q.1 : Point) + q.2.step = .origin
    rw [hplace, hheading, ← Heading.back_right]
    exact Heading.add_step_back _ _

/-- The start is looked at, unless there is no way out of it. -/
theorem enclosed_or_seen [Finite M.region] : M.Enclosed ∨ M.Seen .origin := by
  by_cases hseen : M.Seen .origin
  · exact .inr hseen
  · obtain ⟨hsouth, hvisited⟩ := wall_of_not_seen hseen M.visited_home
    obtain ⟨hwest, hvisited⟩ := wall_of_not_seen hseen hvisited
    obtain ⟨hnorth, hvisited⟩ := wall_of_not_seen hseen hvisited
    obtain ⟨heast, -⟩ := wall_of_not_seen hseen hvisited
    refine .inl fun h => ?_
    cases h with
    | north => exact hnorth
    | south => exact hsouth
    | west => exact hwest
    | east => exact heast

/-- Without a way out the survey stays at the start. -/
theorem Enclosed.place_eq (h : M.Enclosed) {q : M.Stance} (hq : M.Visited q) :
    (q.1 : Point) = .origin := by
  obtain ⟨i, rfl⟩ := hq
  induction i with
  | zero => rfl
  | succ i ih =>
    have hwall : M.cellAt (toPose (M.stanceAt i)).ahead = .wall := by
      show M.cellAt ((M.stanceAt i).1 + (M.stanceAt i).2.step) = .wall
      rw [ih]
      exact h _
    rw [stanceAt_succ, stride_of_wall hwall]
    exact ih

theorem Enclosed.not_seen (h : M.Enclosed) : ¬M.Seen .origin := by
  rintro ⟨q, hq, hahead⟩
  exact Heading.step_ne q.1 q.2 (hahead.trans (h.place_eq hq).symm)

/-- After a lap, a place that was looked at is known as what it is. -/
theorem Surveyed.status_of_seen [Finite M.region] {s : Surveyor} {d : Explorer}
    (h : Surveyed M M.lap s d) {p : Point} (hp : M.Seen p) :
    s.area[p]? = some (M.cellAt p).status := by
  obtain ⟨q, hq, rfl⟩ := hp
  obtain ⟨j, hj, rfl⟩ := hq.exists_lt
  exact h.seen j hj

/-- After a lap, a place that is known was looked at, or it is the start. -/
theorem Surveyed.seen_or_origin {s : Surveyor} {d : Explorer} (h : Surveyed M M.lap s d)
    {p : Point} {v : Int} (hp : s.area[p]? = some v) :
    M.Seen p ∨ (p = .origin ∧ v = Area.open) := by
  rcases h.known p v hp with ⟨j, -, hahead⟩ | hstart
  · exact .inl ⟨M.stanceAt j, ⟨j, rfl⟩, hahead⟩
  · exact .inr hstart

/-- In every maze from whose start only finitely many places can be reached: the survey is over
    after four moves for each of them at most. It makes a move from each of its poses, no two of
    which are the same, and the first pose that comes again is the one it began with; so the droid is
    back at the start. All cells ahead of these poses are known. Everything that is known is true,
    except that a start that holds the oxygen system and has no way out counts as open. -/
theorem survey_ends_at_home (M : Maze) (hfinite : M.region.Finite) :
    ∃ s d, (∀ fuel, 4 * M.region.ncard < fuel →
        Surveyor.run M.move fuel .start M.explorer = some (.ok s, d)) ∧
      d.commands.length ≤ 4 * M.region.ncard ∧ s.moves = d.commands.length ∧ 0 < s.moves ∧
      (∃ poses, Surveyor.Course M.move .start M.explorer poses s d ∧ poses.length = s.moves ∧
        poses.Nodup ∧ poses.head? = some ⟨.origin, .east⟩ ∧ ∀ q, q ∈ s.tried ↔ q ∈ poses) ∧
      s.pose ∈ s.tried ∧ s.pose = ⟨.origin, .east⟩ ∧ d.position = M.start ∧
      .origin ∈ s.area ∧ (∀ q ∈ s.tried, q.ahead ∈ s.area) ∧
      ∀ p v, s.area[p]? = some v →
        v = if p = .origin ∧ M.cell M.start = .oxygen ∧ M.Enclosed then Area.open
          else (M.cell (M.start + p)).status := by
  have := hfinite.to_subtype
  obtain ⟨s, d, h, hcourse, hrun⟩ := M.exists_survey
  have hle : M.lap ≤ 4 * M.region.ncard := lap_le
  have hpose : s.pose = toPose M.home := by rw [h.pose_eq, stanceAt_lap]
  refine ⟨s, d, fun fuel hfuel => hrun fuel (by omega), ?_, ?_, ?_, ?_, ?_, hpose, ?_,
    h.origin_mem, ?_, fun p v hp => ?_⟩
  · rw [h.length_commands]
    exact hle
  · rw [h.moves_eq, h.length_commands]
  · rw [h.moves_eq]
    exact lap_pos
  · exact ⟨M.poses, hcourse, by rw [length_poses, h.moves_eq], M.nodup_poses, M.head?_poses,
      h.mem_tried_iff⟩
  · rw [hpose, h.mem_tried_iff]
    exact List.mem_of_head? M.head?_poses
  · rw [h.position_eq, stanceAt_lap]
    exact Point.add_origin _
  · intro q hq
    obtain ⟨j, hj, rfl⟩ := (h.mem_tried q).mp hq
    rw [Std.TreeMap.mem_iff_isSome_getElem?, h.seen j hj]
    rfl
  · by_cases hseen : M.Seen p
    · -- the start is only looked at if it has a way out
      rw [if_neg fun hexcept => hexcept.2.2.not_seen (hexcept.1 ▸ hseen)]
      rw [h.status_of_seen hseen] at hp
      exact (Option.some.inj hp).symm
    · obtain ⟨rfl, rfl⟩ := (h.seen_or_origin hp).resolve_left hseen
      have henclosed : M.Enclosed := enclosed_or_seen.resolve_right hseen
      rw [Point.add_origin]
      cases hcell : M.cell M.start with
      | wall => exact absurd hcell M.passable
      | «open» => rw [if_neg fun hexcept => Cell.noConfusion hexcept.2.1]; rfl
      | oxygen => rw [if_pos ⟨rfl, rfl, henclosed⟩]

/-- A room of four cells, with the oxygen system in the corner across from the start. -/
def room : Maze :=
  ofCells [(⟨1, 1⟩, .open), (⟨2, 1⟩, .open), (⟨1, 2⟩, .open), (⟨2, 2⟩, .oxygen)] ⟨1, 1⟩ (by decide)

/-- A droid goes round in the room and is back after at most 16 moves, in the pose it began with. -/
theorem room_survey :
    room.region.Finite ∧ ∃ s d, Surveyor.run room.move 17 .start room.explorer = some (.ok s, d) ∧
      d.commands.length ≤ 16 ∧ s.moves = d.commands.length ∧ 0 < s.moves ∧
      (∃ poses, Surveyor.Course room.move .start room.explorer poses s d ∧
        poses.length = s.moves ∧ poses.Nodup ∧ poses.head? = some s.pose) ∧
      s.pose ∈ s.tried ∧ s.pose = ⟨.origin, .east⟩ ∧ d.position = ⟨1, 1⟩ ∧
      s.area[(⟨1, 0⟩ : Point)]? = some Area.open ∧
      ∀ p v, s.area[p]? = some v → v = (room.cell (⟨1, 1⟩ + p)).status := by
  have hfinite : room.region.Finite := finite_region_ofCells
  have hcard : room.region.ncard ≤ 4 := ncard_region_ofCells
  obtain ⟨s, d, hrun, hmoves, hcount, hpos, ⟨poses, hcourse, hlength, hnodup, hfirst, -⟩, htried,
    hpose, hposition, -, hahead, htrue⟩ := survey_ends_at_home room hfinite
  have hnoexception (p : Point) :
      ¬(p = .origin ∧ room.cell room.start = .oxygen ∧ room.Enclosed) :=
    fun h => absurd h.2.2 (by decide)
  have htrue' (p : Point) (v : Int) (hp : s.area[p]? = some v) :
      v = (room.cell (⟨1, 1⟩ + p)).status := by
    rw [htrue p v hp, if_neg (hnoexception p)]
    rfl
  have hknown : (⟨1, 0⟩ : Point) ∈ s.area := by
    have hmem := hahead _ htried
    rwa [hpose] at hmem
  obtain ⟨v, hv⟩ := Option.isSome_iff_exists.mp (Std.TreeMap.mem_iff_isSome_getElem?.mp hknown)
  have hopen : v = Area.open := htrue' _ v hv
  refine ⟨hfinite, s, d, hrun 17 (by omega), by omega, hcount, hpos,
    ⟨poses, hcourse, hlength, hnodup, ?_⟩, htried, hpose, hposition, ?_, htrue'⟩
  · rw [hpose]
    exact hfirst
  · rw [hv, hopen]

end Maze

end TapeNet
