import Mathlib.Algebra.BigOperators.Group.Finset.Basic
import TapeNet.Scaffold
import TapeNet.Proofs.Plane.Reading
import TapeNet.Proofs.Text.Rows

/-! # Crossings of scaffold

    The alignment of a view without grids: a sum over the places where the
    characters of the view cross.

    - `Crosses shape p`: `p` is of the shape, and so is what is next to it on
      all four sides. The crossings of a grid are the points where it is
      crossed, row by row (`Grid.mem_crossings`, `Grid.crossings_pairwise`).
    - `ShowsScaffold view p`: the view has a `#` at `p`. A grid that was read
      is set there and nowhere else (`exists_read`), however short its rows.
    - Rows are all that counts of a view (`alignment_congr`).
-/

namespace TapeNet

open Text (codes)

/-! ### Crossings of a grid -/

/-- A point of a shape that is next to points of it on all four sides. -/
structure Crosses (shape : Point → Prop) (p : Point) : Prop where
  here : shape p
  west : shape ⟨p.x - 1, p.y⟩
  east : shape ⟨p.x + 1, p.y⟩
  north : shape ⟨p.x, p.y - 1⟩
  south : shape ⟨p.x, p.y + 1⟩

theorem neighbours_eq (p : Point) :
    p.neighbours = [⟨p.x, p.y - 1⟩, ⟨p.x, p.y + 1⟩, ⟨p.x - 1, p.y⟩, ⟨p.x + 1, p.y⟩] := by
  show [(⟨p.x + 0, p.y - 1⟩ : Point), ⟨p.x + 0, p.y + 1⟩, ⟨p.x - 1, p.y + 0⟩, ⟨p.x + 1, p.y + 0⟩] =
    _
  rw [Int.add_zero, Int.add_zero]

theorem crosses_iff {shape : Point → Prop} {p : Point} :
    Crosses shape p ↔ shape p ∧ ∀ q ∈ p.neighbours, shape q := by
  rw [neighbours_eq, List.forall_mem_cons, List.forall_mem_cons, List.forall_mem_cons,
    List.forall_mem_singleton]
  constructor
  · intro ⟨hhere, hwest, heast, hnorth, hsouth⟩
    exact ⟨hhere, hnorth, hsouth, hwest, heast⟩
  · intro ⟨hhere, hnorth, hsouth, hwest, heast⟩
    exact ⟨hhere, hwest, heast, hnorth, hsouth⟩

namespace Grid

/-- The crossings of a grid are where its set cells cross. -/
theorem mem_crossings {g : Grid Bool} {p : Point} :
    p ∈ g.crossings ↔ Crosses (fun q => g.isSet q) p := by
  rw [crossings, List.mem_filter, Bool.and_eq_true, List.all_eq_true, crosses_iff]
  -- a set cell is inside of the grid
  refine and_iff_right_of_imp ?_
  intro ⟨hset, _⟩
  rw [← isSome_get?_iff, beq_iff_eq.mp hset]
  rfl

/-- The crossings come row by row, and from west to east in each row. -/
theorem crossings_pairwise (g : Grid Bool) :
    g.crossings.Pairwise fun p q => p.y < q.y ∨ p.y = q.y ∧ p.x < q.x :=
  g.positions_pairwise.filter _

theorem nodup_crossings (g : Grid Bool) : g.crossings.Nodup := by
  refine (crossings_pairwise g).imp ?_
  intro p q hlt heq
  rw [heq] at hlt
  omega

end Grid

namespace Scaffold

variable {view view' : List Nat} {p : Point}

/-- All rows of a view consist of the characters of the legend. -/
def Readable (view : List Nat) : Prop :=
  ∀ row ∈ pictureRows view, ∀ c ∈ row, c ∈ codes ".#^v<>X"

instance (view : List Nat) : Decidable (Readable view) :=
  inferInstanceAs (Decidable (∀ row ∈ pictureRows view, ∀ c ∈ row, c ∈ codes ".#^v<>X"))

/-- A `#` is at a position of a view: it is the character of that column in that row. -/
def ShowsScaffold (view : List Nat) (p : Point) : Prop :=
  entryAt (pictureRows view) p = some '#'.toNat

/-! ### Views read -/

theorem knows_of_mem {c : Nat} (hc : c ∈ codes ".#^v<>X") : legend.Knows c := by
  have hall : ∀ c ∈ codes ".#^v<>X", ∃ v ∈ legend.value? [c], IsWord v := by decide
  exact hall c hc

theorem meaning_eq_scaffold_iff {c : Nat} (hc : c ∈ codes ".#^v<>X") :
    legend.meaning c == scaffold ↔ c = '#'.toNat := by
  revert c
  decide

/-- What is read from a view, its scaffold marked, is set where the view shows a `#`. -/
theorem exists_read (h : Readable view) : ∃ g, legend.read view = .ok g ∧
    ∀ p, (g.map (· == scaffold)).isSet p ↔ ShowsScaffold view p := by
  have hpadding : legend.padding? = some 0 := rfl
  have hread := Legend.read_of_knows hpadding (by decide) fun row hrow c hc =>
    knows_of_mem (h row hrow c hc)
  refine ⟨_, hread, ?_⟩
  intro p
  -- open space is no scaffold, so the padding of short rows adds none
  rw [isSet_map_padded (by decide), entryAt_map, ShowsScaffold]
  constructor
  · intro ⟨v, hentry, hv⟩
    obtain ⟨c, hc, rfl⟩ := Option.map_eq_some_iff.mp hentry
    obtain ⟨row, hrow, hmem⟩ := exists_of_entryAt hc
    rw [hc, (meaning_eq_scaffold_iff (h row hrow c hmem)).mp hv]
  · intro hentry
    rw [hentry]
    exact ⟨_, rfl, by decide⟩

/-- The alignment is the sum over the points where the `#` of a view cross. -/
theorem exists_crossings (h : Readable view) : ∃ crossings : Finset Point,
    (∀ p, p ∈ crossings ↔ Crosses (ShowsScaffold view) p) ∧
      alignment view = .ok (∑ p ∈ crossings, p.x * p.y) := by
  obtain ⟨g, hread, hset⟩ := exists_read h
  refine ⟨(g.map (· == scaffold)).crossings.toFinset, ?_, ?_⟩
  · intro p
    rw [List.mem_toFinset, Grid.mem_crossings, funext fun q => propext (hset q)]
  · -- each crossing is listed once, so nothing is added twice
    rw [alignment, hread, List.sum_toFinset _ (Grid.nodup_crossings _), List.sum, List.foldr_map]
    rfl

/-- Two views have the same alignment if they show the same scaffold. -/
theorem alignment_eq_of_shows (h : Readable view) (h' : Readable view')
    (hshows : ∀ p, ShowsScaffold view p ↔ ShowsScaffold view' p) :
    alignment view = alignment view' := by
  obtain ⟨crossings, hmem, hsum⟩ := exists_crossings h
  obtain ⟨crossings', hmem', hsum'⟩ := exists_crossings h'
  have heq : crossings = crossings' := by
    ext p
    rw [hmem, hmem', funext fun q => propext (hshows q)]
  rw [hsum, hsum', heq]

/-- The rows of a view are all that its alignment depends on. -/
theorem alignment_congr (h : pictureRows view = pictureRows view') :
    alignment view = alignment view' := by
  rw [alignment, alignment, Legend.read, Legend.read, h]

/-- The alignment of a view whose rows have only characters of the legend: the sum over the points
    where its `#` cross. Only where it shows a `#` counts, and blank lines do not. The crossings of
    any grid are the points where its set cells cross, once each and row by row. -/
theorem alignment_of_characters (h : Readable view) :
    (∃ crossings : Finset Point, (∀ p, p ∈ crossings ↔ Crosses (ShowsScaffold view) p) ∧
        alignment view = .ok (∑ p ∈ crossings, p.x * p.y)) ∧
      (∀ view', Readable view' → (∀ p, ShowsScaffold view' p ↔ ShowsScaffold view p) →
        alignment view' = alignment view) ∧
      (∀ view', BlankInserted view view' ∨ BlankInserted view' view →
        alignment view' = alignment view) ∧
      ∀ g : Grid Bool, (∀ p, p ∈ g.crossings ↔ Crosses (fun q => g.isSet q) p) ∧
        g.crossings.Pairwise fun p q => p.y < q.y ∨ p.y = q.y ∧ p.x < q.x := by
  refine ⟨exists_crossings h, ?_, ?_, ?_⟩
  · intro view' h' hshows
    exact alignment_eq_of_shows h' h hshows
  · intro view' hinserted
    rcases hinserted with hinserted | hinserted
    · exact alignment_congr (pictureRows_of_blankInserted hinserted)
    · exact alignment_congr (pictureRows_of_blankInserted hinserted).symm
  · intro g
    exact ⟨fun p => Grid.mem_crossings, g.crossings_pairwise⟩

/-- A view with blank lines, whose rows differ in length. Its `#` cross at (2, 1), but not at
    (2, 2), as that row ends there. -/
def raggedView : List Nat := codes "\n  \n..#.X\r\n####\n\t\n.##\n..#.#\n"

theorem ragged_alignment : Readable raggedView ∧ ∃ crossings : Finset Point,
    (∀ p, p ∈ crossings ↔ Crosses (ShowsScaffold raggedView) p) ∧
      alignment raggedView = .ok (∑ p ∈ crossings, p.x * p.y) ∧ alignment raggedView = .ok 2 := by
  have hreadable : Readable raggedView := by decide
  obtain ⟨⟨crossings, hmem, hsum⟩, -⟩ := alignment_of_characters hreadable
  exact ⟨hreadable, crossings, hmem, hsum, by decide +kernel⟩

end Scaffold

end TapeNet
