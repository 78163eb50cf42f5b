import Mathlib.Combinatorics.SimpleGraph.Metric
import TapeNet.Plane.Grid

/-! # Walks over free points

    The points of the plane that are free, as a graph in which each point is
    next to its four neighbours.

    - `edist_eq_succ_iff`: what is a step further away than the points at
      some distance, in terms of these points. This is all that a flood
      knows of distances.
    - `edist_lt_length`: a shortest walk does not come twice to any point, so
      that no distance is larger than the room there is.
    - `covered`: the points that a flood has come to after some rounds. It
      gains points in as many rounds as the largest distance has steps
      (`covered_gains_iff`).
    - `freeGraphShift`: a shift of all points leaves walks as they are.
-/

namespace TapeNet

/-! ### Distances in a graph -/

section

variable {V : Type} {G : SimpleGraph V} {s p : V}

theorem edist_le_succ {q : V} {n : ℕ} (hq : G.edist s q = n) (hadj : G.Adj q p) :
    G.edist s p ≤ (n + 1 : ℕ) := by
  obtain ⟨w, rfl⟩ := SimpleGraph.exists_walk_of_edist_eq_coe hq
  have hle := SimpleGraph.edist_le (w.concat hadj)
  rwa [SimpleGraph.Walk.length_concat] at hle

/-- The last step of a shortest walk comes from a point at the distance before. -/
theorem exists_adj_of_edist_succ {n : ℕ} (h : G.edist s p = (n + 1 : ℕ)) :
    ∃ q, G.edist s q = n ∧ G.Adj q p := by
  obtain ⟨w, hlength⟩ := SimpleGraph.exists_walk_of_edist_eq_coe h
  have hnil : ¬w.Nil := by
    rw [SimpleGraph.Walk.not_nil_iff_lt_length]
    omega
  have hadj := w.adj_penultimate hnil
  refine ⟨w.penultimate, ?_, hadj⟩
  have hle : G.edist s w.penultimate ≤ n := by
    have hle := SimpleGraph.edist_le w.dropLast
    rwa [SimpleGraph.Walk.length_dropLast, hlength, Nat.add_sub_cancel] at hle
  obtain ⟨m, hm⟩ := ENat.ne_top_iff_exists.mp (ne_top_of_le_ne_top (ENat.natCast_ne_top n) hle)
  -- from any closer point, the last step would have come sooner
  have hsucc := edist_le_succ hm.symm hadj
  rw [← hm] at hle ⊢
  rw [h] at hsucc
  norm_cast at hle hsucc ⊢
  omega

theorem edist_eq_succ_iff {n : ℕ} :
    G.edist s p = (n + 1 : ℕ) ↔
      (∃ q, G.edist s q = n ∧ G.Adj q p) ∧ ∀ m ≤ n, G.edist s p ≠ (m : ℕ) := by
  constructor
  · intro h
    refine ⟨exists_adj_of_edist_succ h, ?_⟩
    intro m hm heq
    rw [h] at heq
    norm_cast at heq
    omega
  · rintro ⟨⟨q, hq, hadj⟩, hfar⟩
    have hle := edist_le_succ hq hadj
    obtain ⟨m, hm⟩ := ENat.ne_top_iff_exists.mp (ne_top_of_le_ne_top (ENat.natCast_ne_top _) hle)
    have hlt : ¬m ≤ n := fun hmn => hfar m hmn hm.symm
    rw [← hm] at hle ⊢
    norm_cast at hle ⊢
    omega

/-- On the way to a point there are points at all smaller distances. -/
theorem exists_edist_eq {n k : ℕ} (h : G.edist s p = n) (hk : k ≤ n) :
    ∃ q, G.edist s q = k := by
  induction n generalizing p with
  | zero =>
    obtain rfl := Nat.le_zero.mp hk
    exact ⟨p, h⟩
  | succ n ih =>
    rcases Nat.le_succ_iff.mp hk with hk | rfl
    · obtain ⟨q, hq, -⟩ := exists_adj_of_edist_succ h
      exact ih hq hk
    · exact ⟨p, h⟩

/-- No distance is larger than the number of places. -/
theorem edist_lt_length {places : List V} (hplaces : ∀ q, G.Reachable s q → q ∈ places) {n : ℕ}
    (h : G.edist s p = n) : n < places.length := by
  obtain ⟨w, hlength⟩ := SimpleGraph.exists_walk_of_edist_eq_coe h
  have hdist : w.length = G.dist s p := by
    rw [SimpleGraph.dist, h, hlength, ENat.toNat_natCast]
  -- a shortest walk is a path, and its points are at different places
  have hpath := w.isPath_of_length_eq_dist hdist
  have hsubset : w.support ⊆ places := by
    intro q hq
    obtain ⟨before, -, -⟩ := SimpleGraph.Walk.mem_support_iff_exists_append.mp hq
    exact hplaces q before.reachable
  have hle := (hpath.support_nodup.subperm hsubset).length_le
  rw [SimpleGraph.Walk.length_support, hlength] at hle
  exact hle

theorem edist_eq_iff {n : ℕ} : G.edist s p = n ↔ G.Reachable s p ∧ G.dist s p = n := by
  constructor
  · intro h
    have hp : G.Reachable s p :=
      SimpleGraph.reachable_of_edist_ne_top (by rw [h]; exact ENat.natCast_ne_top n)
    rw [← hp.coe_dist_eq_edist] at h
    exact ⟨hp, by exact_mod_cast h⟩
  · rintro ⟨hp, rfl⟩
    exact hp.coe_dist_eq_edist.symm

/-- Walks can be mapped, and do not get longer. -/
theorem edist_map_le {W : Type} {H : SimpleGraph W} (f : G →g H) (s p : V) :
    H.edist (f s) (f p) ≤ G.edist s p := by
  by_cases hp : G.Reachable s p
  · obtain ⟨w, hw⟩ := hp.exists_walk_length_eq_edist
    have hle := SimpleGraph.edist_le (w.map f)
    rwa [SimpleGraph.Walk.length_map, hw] at hle
  · rw [SimpleGraph.edist_eq_top_of_not_reachable hp]
    exact le_top

theorem edist_iso {W : Type} {H : SimpleGraph W} (e : G ≃g H) (s p : V) :
    H.edist (e s) (e p) = G.edist s p := by
  apply le_antisymm
  · exact edist_map_le e.toHom s p
  · have hle := edist_map_le e.symm.toHom (e s) (e p)
    simpa using hle

/-! ### Covering a graph round by round -/

/-- The points that a flood has come to after some rounds, in each of which it spreads from all
    points that it has come to so far to their neighbours. -/
def covered (G : SimpleGraph V) (s : V) : ℕ → Set V
  | 0 => {s}
  | k + 1 => covered G s k ∪ {q | ∃ p ∈ covered G s k, G.Adj p q}

theorem mem_covered_succ {k : ℕ} :
    p ∈ covered G s (k + 1) ↔ p ∈ covered G s k ∨ ∃ q ∈ covered G s k, G.Adj q p := Iff.rfl

theorem mem_covered_iff {k : ℕ} : p ∈ covered G s k ↔ ∃ m ≤ k, G.edist s p = (m : ℕ) := by
  induction k generalizing p with
  | zero =>
    simp only [covered, Set.mem_singleton_iff, Nat.le_zero, exists_eq_left, Nat.cast_zero,
      SimpleGraph.edist_eq_zero_iff]
    exact eq_comm
  | succ k ih =>
    simp only [mem_covered_succ, ih]
    constructor
    · rintro (⟨m, hm, hp⟩ | ⟨q, ⟨m, hm, hq⟩, hadj⟩)
      · exact ⟨m, Nat.le_succ_of_le hm, hp⟩
      · have hle := edist_le_succ hq hadj
        obtain ⟨n, hn⟩ :=
          ENat.ne_top_iff_exists.mp (ne_top_of_le_ne_top (ENat.natCast_ne_top _) hle)
        rw [← hn] at hle
        norm_cast at hle
        exact ⟨n, by omega, hn.symm⟩
    · rintro ⟨m, hm, hp⟩
      rcases Nat.le_succ_iff.mp hm with hm | rfl
      · exact .inl ⟨m, hm, hp⟩
      · obtain ⟨q, hq, hadj⟩ := exists_adj_of_edist_succ hp
        exact .inr ⟨q, ⟨k, le_rfl, hq⟩, hadj⟩

/-- A flood gains points until it has come to those that are the furthest away. -/
theorem covered_gains_iff {n : ℕ} (hn : IsGreatest {m : ℕ | ∃ p, G.edist s p = m} n) (k : ℕ) :
    (∃ p ∈ covered G s (k + 1), p ∉ covered G s k) ↔ k < n := by
  obtain ⟨⟨far, hfar⟩, hmax⟩ := hn
  constructor
  · rintro ⟨p, hp, hnew⟩
    rw [mem_covered_iff] at hp hnew
    obtain ⟨m, hm, hedist⟩ := hp
    have hlt : k < m := by
      by_contra hle
      exact hnew ⟨m, by omega, hedist⟩
    exact hlt.trans_le (hmax ⟨p, hedist⟩)
  · intro hk
    -- on the way to a furthest point there is one that is reached in this very round
    obtain ⟨p, hp⟩ := exists_edist_eq hfar hk
    refine ⟨p, mem_covered_iff.mpr ⟨k + 1, le_rfl, hp⟩, ?_⟩
    rw [mem_covered_iff]
    rintro ⟨m, hm, hedist⟩
    rw [hp] at hedist
    norm_cast at hedist
    omega

end

/-! ### Free points -/

/-- Free points that are next to each other. -/
def freeGraph (free : Point → Bool) : SimpleGraph Point where
  Adj p q := free p ∧ free q ∧ q ∈ p.neighbours
  symm := ⟨fun _ _ ⟨hp, hq, hnext⟩ => ⟨hq, hp, Point.mem_neighbours_comm.mp hnext⟩⟩
  loopless := ⟨fun p ⟨_, _, hnext⟩ => p.not_mem_neighbours hnext⟩

variable {free : Point → Bool} {s p : Point}

/-- There is no way out of the free points. -/
theorem free_of_reachable (hs : free s) (h : (freeGraph free).Reachable s p) : free p := by
  obtain ⟨w⟩ := h.symm
  cases w with
  | nil => exact hs
  | cons hadj _ => exact hadj.1

/-! ### Shifts -/

/-- All points, moved by the same steps. -/
def Point.shift (c : Point) : Point ≃ Point where
  toFun p := p + c
  invFun p := ⟨p.x - c.x, p.y - c.y⟩
  left_inv p := by
    show (⟨p.x + c.x - c.x, p.y + c.y - c.y⟩ : Point) = p
    rw [Int.add_sub_cancel, Int.add_sub_cancel]
  right_inv p := by
    show (⟨p.x - c.x + c.x, p.y - c.y + c.y⟩ : Point) = p
    rw [Int.sub_add_cancel, Int.sub_add_cancel]

theorem Point.mem_neighbours_shift {c p q : Point} :
    p + c ∈ (q + c).neighbours ↔ p ∈ q.neighbours := by
  simp only [mem_neighbours]
  refine exists_congr fun h => ?_
  rw [Point.add_right_comm]
  exact (shift c).apply_eq_iff_eq

/-- Free points are next to each other where they were before a shift. -/
def freeGraphShift (free : Point → Bool) (c : Point) :
    freeGraph (fun p => free (p + c)) ≃g freeGraph free where
  toEquiv := Point.shift c
  map_rel_iff' := and_congr_right' (and_congr_right' Point.mem_neighbours_shift)

end TapeNet
