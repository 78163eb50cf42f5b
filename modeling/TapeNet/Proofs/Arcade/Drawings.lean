import Mathlib.Data.List.Basic
import TapeNet.Arcade
import TapeNet.Proofs.Machine.Flow
import TapeNet.Proofs.Plane.Windows
import TapeNet.Proofs.Text.Parts

/-! # What a cabinet makes of a game

    All that a game has printed, refused numbers included, cut into triples.
    The cabinet, which sees one number at a time, is compared with what these
    triples say.

    - `drawings vs` are the whole triples of `vs`, and `leftOver vs` is what
      comes after them.
    - `latest p ds` is the last drawing of a kind, which is the one that
      counts.
    - `Shows c vs`: the cabinet shows what the drawings of `vs` say. Putting
      a number keeps this, accepted or not (`Shows.put`), and so does any
      exchange (`shows_after`).
-/

namespace TapeNet

/-! ### Drawings -/

/-- Three numbers that were printed in turn. -/
structure Drawing where
  x : Int
  y : Int
  t : Int
deriving DecidableEq, Repr

namespace Drawing

def position (d : Drawing) : Point := ⟨d.x, d.y⟩

/-- The drawing is the score. -/
def IsScore (d : Drawing) : Prop := d.x = -1 ∧ d.y = 0
deriving Decidable

/-- The drawing puts a tile on the screen. -/
def IsTile (d : Drawing) : Prop := ¬d.IsScore ∧ 0 ≤ d.t ∧ d.t ≤ 4
deriving Decidable

/-- The drawing makes no sense. -/
def IsUnknown (d : Drawing) : Prop := ¬d.IsScore ∧ ¬(0 ≤ d.t ∧ d.t ≤ 4)
deriving Decidable

end Drawing

/-- The whole triples of some numbers. -/
def drawings : List Int → List Drawing
  | x :: y :: t :: vs => ⟨x, y, t⟩ :: drawings vs
  | _ => []

/-- What comes after the whole triples. -/
def leftOver : List Int → Pending
  | _ :: _ :: _ :: vs => leftOver vs
  | [x, y] => .two x y
  | [x] => .one x
  | [] => .none

/-- One more number is kept for later, or it completes a triple. -/
theorem concat_cases (vs : List Int) (v : Int) :
    (leftOver vs = .none ∧ leftOver (vs ++ [v]) = .one v ∧
      drawings (vs ++ [v]) = drawings vs) ∨
    (∃ x, leftOver vs = .one x ∧ leftOver (vs ++ [v]) = .two x v ∧
      drawings (vs ++ [v]) = drawings vs) ∨
    ∃ x y, leftOver vs = .two x y ∧ leftOver (vs ++ [v]) = .none ∧
      drawings (vs ++ [v]) = drawings vs ++ [⟨x, y, v⟩] := by
  -- a triple at a time, which changes neither what is left over nor what comes after it
  induction vs using leftOver.induct with
  | case1 x y t vs ih =>
    simpa only [List.cons_append, leftOver, drawings, List.cons.injEq, true_and] using ih
  | case2 x y => exact .inr (.inr ⟨x, y, rfl, rfl, rfl⟩)
  | case3 x => exact .inr (.inl ⟨x, rfl, rfl, rfl⟩)
  | case4 => exact .inl ⟨rfl, rfl, rfl⟩

/-- The last drawing of a kind. -/
def latest (p : Drawing → Prop) [DecidablePred p] (ds : List Drawing) : Option Drawing :=
  (ds.filter p).getLast?

theorem latest_concat (p : Drawing → Prop) [DecidablePred p] (ds : List Drawing) (d : Drawing) :
    latest p (ds ++ [d]) = if p d then some d else latest p ds := by
  rw [latest, latest, List.filter_append, List.filter_singleton]
  by_cases h : p d
  · rw [decide_eq_true h, if_pos h]
    exact List.getLast?_concat
  · rw [decide_eq_false h, if_neg h]
    exact congrArg List.getLast? (List.append_nil _)

theorem latest_eq_none {p : Drawing → Prop} [DecidablePred p] (h : ∀ d, ¬p d)
    (ds : List Drawing) : latest p ds = none := by
  rw [latest, List.getLast?_eq_none_iff, List.filter_eq_nil_iff]
  intro d _
  rw [decide_eq_true_iff]
  exact h d

/-! ### Pictures -/

/-- A picture consists of the texts of the values and line breaks. -/
theorem Grid.mem_draw {α : Type} {symbol : α → List Nat} {g : Grid α} {ch : Nat}
    (h : ch ∈ g.draw symbol) : ch = 0x0A ∨ ∃ v, ch ∈ symbol v := by
  rcases Text.mem_intercalate h with h | ⟨line, hline, h⟩
  · exact .inl h
  · obtain ⟨row, -, rfl⟩ := List.mem_map.mp hline
    obtain ⟨v, -, h⟩ := List.mem_flatMap.mp h
    exact .inr ⟨v, h⟩

namespace Cabinet

/-! ### The screen in numbers -/

/-- The numbers of the tiles on the screen. -/
def codes (c : Cabinet) : Sparse Int := c.screen.map fun _ tile => tile.code

theorem codes_getElem? (c : Cabinet) (p : Point) : c.codes[p]? = c.screen[p]?.map Tile.code :=
  Std.TreeMap.getElem?_map

theorem codes_paint (c : Cabinet) (p q : Point) (tile : Tile) :
    (c.paint p tile).codes[q]? = if p = q then some tile.code else c.codes[q]? := by
  rw [codes_getElem?, codes_getElem?, paint, Sparse.getElem?_insert]
  split <;> rfl

/-! ### One number -/

/-- A cabinet shows what the drawings say of which these numbers consist. -/
structure Shows (c : Cabinet) (vs : List Int) : Prop where
  pending : c.pending = leftOver vs
  score : c.score = ((latest Drawing.IsScore (drawings vs)).map Drawing.t).getD 0
  codes (p : Point) : c.codes[p]? =
    (latest (fun d => d.IsTile ∧ d.position = p) (drawings vs)).map Drawing.t
  ball : c.ball = (latest (fun d => d.IsTile ∧ d.t = 4) (drawings vs)).map Drawing.x
  paddle : c.paddle = (latest (fun d => d.IsTile ∧ d.t = 3) (drawings vs)).map Drawing.x

theorem shows_fresh : Shows fresh [] := ⟨rfl, rfl, fun _ => rfl, rfl, rfl⟩

/-- What becomes of a drawing. -/
theorem draw_cases (d : Drawing) (c : Cabinet) :
    (d.IsScore ∧ c.draw d.x d.y d.t = (.ok 0, { c with score := d.t })) ∨
    (∃ tile : Tile, d.IsTile ∧ tile.code = d.t ∧
      c.draw d.x d.y d.t = (.ok 0, c.paint d.position tile)) ∨
    (d.IsUnknown ∧ c.draw d.x d.y d.t = (.error (.unknownTile d.t d.x d.y), c)) := by
  by_cases hscore : d.x = -1 ∧ d.y = 0
  · exact .inl ⟨hscore, by rw [draw, if_pos hscore]⟩
  · right
    rw [draw, if_neg hscore]
    cases htile : Tile.ofCode? d.t with
    | some tile =>
      have hcode : tile.code = d.t := Tile.ofCode?_eq_some_iff.mp htile
      have hrange : 0 ≤ d.t ∧ d.t ≤ 4 := by
        rw [← hcode]
        cases tile <;> decide
      exact .inl ⟨tile, ⟨hscore, hrange⟩, hcode, rfl⟩
    | none => exact .inr ⟨⟨hscore, Tile.ofCode?_eq_none_iff.mp htile⟩, rfl⟩

variable {c : Cabinet} {vs ws : List Int} {d : Drawing} {v : Int}

theorem draw_refused_iff {e : PortError} {c' : Cabinet} :
    c.draw d.x d.y d.t = (.error e, c') ↔
      d.IsUnknown ∧ e = .unknownTile d.t d.x d.y ∧ c' = c := by
  rcases draw_cases d c with ⟨hscore, hdraw⟩ | ⟨tile, htile, -, hdraw⟩ | ⟨hunknown, hdraw⟩
  · have hknown : ¬d.IsUnknown := fun h => h.1 hscore
    simp [hdraw, hknown]
  · have hknown : ¬d.IsUnknown := fun h => h.2 htile.2
    simp [hdraw, hknown]
  · simp [hdraw, hunknown, eq_comm]

/-- A number that completes no drawing is only remembered. -/
theorem Shows.remember (h : Shows c vs) (hdrawings : drawings ws = drawings vs) :
    Shows { c with pending := leftOver ws } ws where
  pending := rfl
  score := hdrawings ▸ h.score
  codes := hdrawings ▸ h.codes
  ball := hdrawings ▸ h.ball
  paddle := hdrawings ▸ h.paddle

/-- A drawing that is no tile leaves the screen alone. -/
theorem Shows.withScore (h : Shows c vs) (hdrawings : drawings ws = drawings vs ++ [d])
    (hpending : leftOver ws = .none) (hnot : ¬d.IsTile) {score : Int}
    (hscore : score = ((latest Drawing.IsScore (drawings ws)).map Drawing.t).getD 0) :
    Shows { c with pending := .none, score } ws := by
  have hlatest (p : Drawing → Prop) [DecidablePred p] :
      latest (fun d => d.IsTile ∧ p d) (drawings ws) =
        latest (fun d => d.IsTile ∧ p d) (drawings vs) := by
    rw [hdrawings, latest_concat, if_neg fun hd => hnot hd.1]
  constructor
  · exact hpending.symm
  · exact hscore
  · intro p
    rw [hlatest]
    exact h.codes p
  · rw [hlatest]
    exact h.ball
  · rw [hlatest]
    exact h.paddle

theorem Shows.paint (h : Shows c vs) (hdrawings : drawings ws = drawings vs ++ [d])
    (hpending : leftOver ws = .none) (htile : d.IsTile) {tile : Tile} (hcode : tile.code = d.t) :
    Shows ({ c with pending := .none }.paint d.position tile) ws := by
  have hball : tile = .ball ↔ d.IsTile ∧ d.t = 4 := by
    rw [and_iff_right htile, ← hcode]
    cases tile <;> decide
  have hpaddle : tile = .paddle ↔ d.IsTile ∧ d.t = 3 := by
    rw [and_iff_right htile, ← hcode]
    cases tile <;> decide
  constructor
  · exact hpending.symm
  · rw [hdrawings, latest_concat, if_neg htile.1]
    exact h.score
  · intro p
    rw [hdrawings, latest_concat, codes_paint, hcode, apply_ite (Option.map Drawing.t), ← h.codes]
    exact if_congr (and_iff_right htile).symm rfl rfl
  · rw [hdrawings, latest_concat, apply_ite (Option.map Drawing.x), ← h.ball]
    exact if_congr hball rfl rfl
  · rw [hdrawings, latest_concat, apply_ite (Option.map Drawing.x), ← h.paddle]
    exact if_congr hpaddle rfl rfl

/-- Whatever becomes of the drawing, its numbers are used up. -/
theorem Shows.draw (h : Shows c vs) (hdrawings : drawings ws = drawings vs ++ [d])
    (hpending : leftOver ws = .none) :
    Shows ({ c with pending := .none }.draw d.x d.y d.t).2 ws := by
  rcases draw_cases d { c with pending := .none } with
    ⟨hscore, hdraw⟩ | ⟨tile, htile, hcode, hdraw⟩ | ⟨hunknown, hdraw⟩
  · rw [hdraw]
    refine h.withScore hdrawings hpending (fun htile => htile.1 hscore) ?_
    rw [hdrawings, latest_concat, if_pos hscore, Option.map_some, Option.getD_some]
  · rw [hdraw]
    exact h.paint hdrawings hpending htile hcode
  · rw [hdraw]
    refine h.withScore hdrawings hpending (fun htile => hunknown.2 htile.2) ?_
    rw [hdrawings, latest_concat, if_neg hunknown.1]
    exact h.score

theorem put_none (h : c.pending = .none) (v : Int) :
    put v c = (.ok 0, { c with pending := .one v }) := by
  rw [put, h]

theorem put_one {x : Int} (h : c.pending = .one x) (v : Int) :
    put v c = (.ok 0, { c with pending := .two x v }) := by
  rw [put, h]

theorem put_two {x y : Int} (h : c.pending = .two x y) (v : Int) :
    put v c = { c with pending := .none }.draw x y v := by
  rw [put, h]

theorem Shows.put (h : Shows c vs) (v : Int) : Shows (Cabinet.put v c).2 (vs ++ [v]) := by
  rcases concat_cases vs v with
    ⟨hvs, hleft, hdrawings⟩ | ⟨x, hvs, hleft, hdrawings⟩ | ⟨x, y, hvs, hleft, hdrawings⟩
  · rw [put_none (h.pending.trans hvs), ← hleft]
    exact h.remember hdrawings
  · rw [put_one (h.pending.trans hvs), ← hleft]
    exact h.remember hdrawings
  · rw [put_two (h.pending.trans hvs)]
    exact h.draw hdrawings hleft

/-- A number is refused if and only if it completes a drawing that makes no sense. -/
theorem Shows.put_refused_iff (h : Shows c vs) {e : PortError} {c' : Cabinet} :
    Cabinet.put v c = (.error e, c') ↔
      ∃ d : Drawing, drawings (vs ++ [v]) = drawings vs ++ [d] ∧ d.IsUnknown ∧
        e = .unknownTile d.t d.x d.y ∧ c' = { c with pending := .none } := by
  rcases concat_cases vs v with
    ⟨hvs, -, hdrawings⟩ | ⟨x, hvs, -, hdrawings⟩ | ⟨x, y, hvs, -, hdrawings⟩
  · rw [put_none (h.pending.trans hvs), hdrawings]
    simp
  · rw [put_one (h.pending.trans hvs), hdrawings]
    simp
  · rw [put_two (h.pending.trans hvs), hdrawings]
    -- the triple that the number completes is the only drawing it can add
    constructor
    · intro hput
      exact ⟨⟨x, y, v⟩, rfl, draw_refused_iff.mp hput⟩
    · rintro ⟨d, hd, hrefused⟩
      obtain rfl : ⟨x, y, v⟩ = d := List.singleton_inj.mp (List.append_cancel_left hd)
      exact draw_refused_iff.mpr hrefused

/-! ### A whole game -/

/-- A cabinet after some exchanges with a game. -/
def after (demands : List Demand) : Cabinet :=
  demands.foldl (fun c demand => (port.answer demand c).2) fresh

/-- What a game has printed in some exchanges. -/
def printed (demands : List Demand) : List Int := demands.flatMap Demand.given

theorem after_concat (demands : List Demand) (demand : Demand) :
    after (demands ++ [demand]) = (port.answer demand (after demands)).2 :=
  List.foldl_concat ..

theorem printed_concat (demands : List Demand) (demand : Demand) :
    printed (demands ++ [demand]) = printed demands ++ demand.given := by
  rw [printed, printed, List.flatMap_append, List.flatMap_singleton]

theorem shows_after (demands : List Demand) : Shows (after demands) (printed demands) := by
  induction demands using List.reverseRecOn with
  | nil => exact shows_fresh
  | append_singleton demands demand ih =>
    rw [after_concat, printed_concat]
    cases demand with
    | silent =>
      show Shows (after demands) (printed demands ++ [])
      rw [List.append_nil]
      exact ih
    | get =>
      show Shows (after demands) (printed demands ++ [])
      rw [List.append_nil]
      exact ih
    | put v => exact ih.put v

/-! ### The picture -/

theorem codes_isEmpty (c : Cabinet) : c.codes.isEmpty = c.screen.isEmpty :=
  Std.TreeMap.isEmpty_map

/-- How the numbers of tiles are shown. -/
def palette : Palette :=
  { entries := [(0, Text.codes " "), (1, Text.codes "#"), (2, Text.codes "="),
      (3, Text.codes "_"), (4, Text.codes "o")] }

theorem symbol_code (tile : Tile) : palette.symbol tile.code = tile.symbol := by
  cases tile <;> rfl

theorem render_eq (c : Cabinet) :
    c.render = if c.codes.isEmpty then [] else palette.draw (Window.of c.codes 0).grid := by
  have hdraw : palette.draw (Window.of c.codes 0).grid =
      (Window.of c.screen .empty).grid.draw Tile.symbol := by
    have hwindow : Window.of c.codes 0 = _ := Window.of_map Tile.code c.screen .empty
    rw [Palette.draw, hwindow, Grid.draw_map]
    simp only [symbol_code]
  rw [render, codes_isEmpty, hdraw]

theorem question_not_mem_render (c : Cabinet) : '?'.toNat ∉ c.render := by
  intro h
  rw [render] at h
  split at h
  · cases h
  · rcases Grid.mem_draw h with h | ⟨tile, h⟩
    · exact absurd h (by decide)
    · cases tile <;> exact absurd h (by decide)

/-- Each place on the screen is counted for one tile. -/
theorem sum_count (c : Cabinet) :
    c.count .empty + c.count .wall + c.count .block + c.count .paddle + c.count .ball =
      c.screen.size := by
  rw [← Sparse.length_values]
  unfold count
  induction c.screen.values with
  | nil => rfl
  | cons tile tiles ih =>
    cases tile <;> simp only [List.count_cons, List.length_cons, ← ih] <;> simp <;> omega

/-! ### The cabinet and the game -/

/-- The score is no place on the screen. -/
theorem Shows.score_not_mem (h : Shows c vs) : (⟨-1, 0⟩ : Point) ∉ c.screen := by
  have hcodes : c.codes[(⟨-1, 0⟩ : Point)]? = none := by
    rw [h.codes, latest_eq_none, Option.map_none]
    rintro d ⟨htile, hposition⟩
    exact htile.1 ⟨congrArg Point.x hposition, congrArg Point.y hposition⟩
  rw [codes_getElem?, Option.map_eq_none_iff] at hcodes
  rw [Std.TreeMap.mem_iff_isSome_getElem?, hcodes]
  exact Bool.false_ne_true

/-- In all exchanges with a game, the cabinet shows what the whole triples say that were printed,
    and refuses just the numbers that complete a triple without a meaning. -/
theorem shows_game (demands : List Demand) :
    Shows (after demands) (printed demands) ∧
    (∀ v e c', put v (after demands) = (.error e, c') ↔
      ∃ d : Drawing, drawings (printed demands ++ [v]) = drawings (printed demands) ++ [d] ∧
        d.IsUnknown ∧ e = .unknownTile d.t d.x d.y ∧
        c' = { after demands with pending := .none }) ∧
    port.get (after demands) =
      (.ok (match (after demands).ball, (after demands).paddle with
        | some ball, some paddle => (ball - paddle).sign
        | _, _ => 0), after demands) ∧
    (⟨-1, 0⟩ : Point) ∉ (after demands).screen ∧
    (after demands).count .empty + (after demands).count .wall + (after demands).count .block +
      (after demands).count .paddle + (after demands).count .ball = (after demands).screen.size ∧
    ((after demands).render =
      if (after demands).codes.isEmpty then []
      else palette.draw (Window.of (after demands).codes 0).grid) ∧
    '?'.toNat ∉ (after demands).render := by
  have h := shows_after demands
  exact ⟨h, fun _ _ _ => h.put_refused_iff, rfl, h.score_not_mem, sum_count _, render_eq _,
    question_not_mem_render _⟩

end Cabinet

end TapeNet
