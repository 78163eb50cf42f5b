import TapeNet.Plane.Picture
import TapeNet.Proofs.Text.Parts
import TapeNet.Proofs.Text.Lines

/-! # The rows of a picture

    Blank lines are no rows, so it makes no difference whether a carriage
    return with a line feed behind it is one break or two, or whether a break
    stands at the very end.

    - `pictureRows_eq`: the rows are what is between the breaks and not blank.
    - `pictureRows_append`: a break parts the rows before it from those
      behind it, whatever stands next to it.
    - `pictureRows_of_blankInserted`: blank lines may come and go anywhere.
    - `pictureRows_trim`: breaks may be taken off both ends.
-/

namespace TapeNet

open Text

variable {text text' before behind blank : List Nat} {c d : Nat}

/-! ### Breaks -/

/-- A line that is a row. -/
def isRow (line : List Nat) : Bool := !line.all isBlank

theorem isRow_eq_false_iff {line : List Nat} : isRow line = false ↔ ∀ c ∈ line, isBlank c := by
  rw [isRow, Bool.not_eq_false', List.all_eq_true]

/-- The rows among some lines, the first line apart. -/
theorem filter_isRow (lines : List (List Nat)) :
    lines.filter isRow = [lines.headD []].filter isRow ++ lines.tail.filter isRow := by
  cases lines with
  | nil => rfl
  | cons line lines => exact List.filter_append [line] lines

/-- Lists that begin alike, and have the same rows behind that, have the same rows. -/
theorem filter_isRow_congr {ls ls' : List (List Nat)} (hhead : ls.headD [] = ls'.headD [])
    (htail : ls.tail.filter isRow = ls'.tail.filter isRow) :
    ls.filter isRow = ls'.filter isRow := by
  rw [filter_isRow ls, filter_isRow ls', hhead, htail]

/-- A character that is no break goes to the first piece. -/
theorem splitOnP_cons_of_not_break (hc : ¬isBreak c = true) (cs : List Nat) :
    (c :: cs).splitOnP isBreak =
      (c :: (cs.splitOnP isBreak).headD []) :: (cs.splitOnP isBreak).tail := by
  obtain ⟨piece, pieces, hpieces⟩ := List.exists_cons_of_ne_nil (List.splitOnP_ne_nil isBreak cs)
  rw [List.splitOnP_cons_eq_if_modifyHead, if_neg hc, hpieces]
  rfl

/-- The lines of a text begin as the pieces between its breaks do, and the other lines have the
    same rows as the other pieces. -/
theorem lines_splitOnP (text : List Nat) :
    (lines text).headD [] = (text.splitOnP isBreak).headD [] ∧
      (lines text).tail.filter isRow = (text.splitOnP isBreak).tail.filter isRow := by
  fun_induction lines text with
  | case1 => exact ⟨rfl, rfl⟩
  | case2 cs ih =>
    have hsplit : (0x0D :: 0x0A :: cs).splitOnP isBreak = [] :: [] :: cs.splitOnP isBreak := by
      rw [List.splitOnP_cons_eq_if_modifyHead, if_pos (by decide),
        List.splitOnP_cons_eq_if_modifyHead, if_pos (by decide)]
    have hrows := filter_isRow_congr ih.1 ih.2
    rw [hsplit]
    -- the empty piece between the two characters is no row
    exact ⟨rfl, hrows⟩
  | case3 c cs _ hc ih =>
    rw [List.splitOnP_cons_eq_if_modifyHead, if_pos hc]
    exact ⟨rfl, filter_isRow_congr ih.1 ih.2⟩
  | case4 c cs _ hc hnil ih =>
    rw [hnil] at ih
    rw [splitOnP_cons_of_not_break hc, ← ih.1]
    exact ⟨rfl, ih.2⟩
  | case5 c cs _ hc line rest hlines ih =>
    rw [hlines] at ih
    rw [splitOnP_cons_of_not_break hc, ← ih.1]
    exact ⟨rfl, ih.2⟩

theorem pictureRows_eq (text : List Nat) :
    pictureRows text = (text.splitOnP isBreak).filter isRow :=
  filter_isRow_congr (lines_splitOnP text).1 (lines_splitOnP text).2

/-- The rows before a break and those behind it are all that there are. -/
theorem pictureRows_append (before behind : List Nat) (hc : isBreak c) :
    pictureRows (before ++ c :: behind) = pictureRows before ++ pictureRows behind := by
  rw [pictureRows_eq, pictureRows_eq, pictureRows_eq, List.splitOnP_append_cons _ _ hc,
    List.filter_append]

/-! ### Blank lines -/

theorem mem_of_mem_lines {line : List Nat} (h : line ∈ lines text) (hc : c ∈ line) :
    c ∈ text := by
  fun_induction lines text generalizing line with
  | case1 => cases h
  | case2 cs ih =>
    rcases List.mem_cons.mp h with rfl | h
    · cases hc
    · exact List.mem_cons_of_mem _ (List.mem_cons_of_mem _ (ih h hc))
  | case3 b cs _ _ ih =>
    rcases List.mem_cons.mp h with rfl | h
    · cases hc
    · exact List.mem_cons_of_mem _ (ih h hc)
  | case4 b cs _ _ _ _ =>
    rw [List.mem_singleton.mp h, List.mem_singleton] at hc
    rw [hc]
    exact List.mem_cons_self
  | case5 b cs _ _ first rest hlines ih =>
    rw [hlines] at ih
    rcases List.mem_cons.mp h with rfl | h
    · rcases List.mem_cons.mp hc with rfl | hc
      · exact List.mem_cons_self
      · exact List.mem_cons_of_mem _ (ih List.mem_cons_self hc)
    · exact List.mem_cons_of_mem _ (ih (List.mem_cons_of_mem _ h) hc)

/-- A blank text has no rows. -/
theorem pictureRows_of_blank (h : ∀ c ∈ blank, isBlank c) : pictureRows blank = [] := by
  rw [pictureRows, List.filter_eq_nil_iff]
  intro line hline
  have hblank : isRow line = false :=
    isRow_eq_false_iff.mpr fun c hc => h c (mem_of_mem_lines hline hc)
  exact Bool.eq_false_iff.mp hblank

/-- The second text has a blank line more than the first, in front of one of the first one's lines
    or behind all of them. -/
inductive BlankInserted : List Nat → List Nat → Prop
  | line (before behind : List Nat) {blank : List Nat} {d : Nat}
      (hbefore : ∀ c ∈ before.getLast?, isBreak c) (hblank : ∀ c ∈ blank, isBlank c)
      (hd : isBreak d) : BlankInserted (before ++ behind) (before ++ (blank ++ d :: behind))
  | last (before : List Nat) {blank : List Nat} {c : Nat} (hc : isBreak c)
      (hblank : ∀ c ∈ blank, isBlank c) : BlankInserted before (before ++ c :: blank)

/-- Blank lines may come and go anywhere. -/
theorem pictureRows_of_blankInserted (h : BlankInserted text text') :
    pictureRows text' = pictureRows text := by
  cases h with
  | @line before behind blank d hbefore hblank hd =>
    have hskip : pictureRows (blank ++ d :: behind) = pictureRows behind := by
      rw [pictureRows_append _ _ hd, pictureRows_of_blank hblank, List.nil_append]
    rcases List.eq_nil_or_concat' before with rfl | ⟨before, c, rfl⟩
    · exact hskip
    · have hc : isBreak c := hbefore c (by simp)
      rw [← List.append_cons, ← List.append_cons, pictureRows_append _ _ hc,
        pictureRows_append _ _ hc, hskip]
  | last _ hc hblank =>
    rw [pictureRows_append _ _ hc, pictureRows_of_blank hblank, List.append_nil]

/-- Breaks at both ends of a text make no difference. -/
theorem pictureRows_of_breaks (hbefore : ∀ c ∈ before, isBreak c)
    (hbehind : ∀ c ∈ behind, isBreak c) (text : List Nat) :
    pictureRows (before ++ text ++ behind) = pictureRows text := by
  have hfront : pictureRows (before ++ text) = pictureRows text := by
    rcases List.eq_nil_or_concat' before with rfl | ⟨breaks, d, rfl⟩
    · rfl
    · have hblank : ∀ c ∈ breaks, isBlank c := fun c hc =>
        isBlank_of_isBreak (hbefore c (List.mem_append_left _ hc))
      have hd := hbefore d (List.mem_append_right _ (List.mem_singleton_self d))
      have hrows := pictureRows_of_blankInserted
        (.line [] text (fun _ hc => nomatch hc) hblank hd)
      rwa [List.nil_append, List.nil_append, List.append_cons] at hrows
  cases behind with
  | nil => rw [List.append_nil, hfront]
  | cons c breaks =>
    have hblank : ∀ d ∈ breaks, isBlank d := fun d hd =>
      isBlank_of_isBreak (hbehind d (List.mem_cons_of_mem _ hd))
    rw [pictureRows_of_blankInserted (.last _ (hbehind c List.mem_cons_self) hblank), hfront]

theorem pictureRows_trim {p : Nat → Bool} (hp : ∀ c, p c → isBreak c) (text : List Nat) :
    pictureRows (trim p text) = pictureRows text := by
  obtain ⟨before, behind, htext, hbefore, hbehind⟩ := (trimmed_trim p text).around
  have hrows := pictureRows_of_breaks (fun c hc => hp c (hbefore c hc))
    (fun c hc => hp c (hbehind c hc)) (trim p text)
  rw [← htext] at hrows
  exact hrows.symm

end TapeNet
