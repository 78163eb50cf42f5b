import TapeNet.Proofs.Text.Parts

/-! # Line breaks made line feeds

    What becomes of the parts of a text when all of its carriage returns are
    made line feeds. The text gets shorter where a line feed stood behind a
    carriage return, but only inside of blank stretches.

    - `mem_unifyBreaks_iff`: characters that are not blank stay as they are.
    - `unifyBreaks_append`: the two parts of a text may be dealt with one by
      one, unless the cut goes through such a pair.
    - `strip_unifyBreaks`, `splitOn_unifyBreaks`: so a text may be stripped,
      and cut at a separator that is not blank, before or afterwards.
-/

namespace TapeNet.Text

variable {cs s before behind : List Nat} {c d : Nat}

/-! ### One character at a time -/

theorem ne_of_isSpace (hd : IsSpace d) (hc : ¬IsSpace c) : c ≠ d := by
  intro h
  rw [h] at hc
  exact hc hd

theorem unifyBreaks_cons (hc : c ≠ 0x0D) (cs : List Nat) :
    unifyBreaks (c :: cs) = c :: unifyBreaks cs := by
  rw [unifyBreaks]
  · intro _ h _
    exact hc h
  · exact hc

/-- A carriage return with no line feed behind it. -/
theorem unifyBreaks_return (h : cs.head? ≠ some 0x0A) :
    unifyBreaks (0x0D :: cs) = 0x0A :: unifyBreaks cs := by
  rw [unifyBreaks]
  intro rest hcs
  rw [hcs] at h
  exact h rfl

/-- Characters that are not blank stay, and no others come in. -/
theorem mem_unifyBreaks_iff (hc : ¬IsSpace c) : c ∈ unifyBreaks cs ↔ c ∈ cs := by
  have hreturn : c ≠ 0x0D := ne_of_isSpace (by decide) hc
  have hfeed : c ≠ 0x0A := ne_of_isSpace (by decide) hc
  fun_induction unifyBreaks cs with
  | case1 => rfl
  | case2 cs ih => simp [ih, hreturn, hfeed]
  | case3 cs _ ih => simp [ih, hreturn, hfeed]
  | case4 d cs _ _ ih => simp [ih]

theorem isSpace_unifyBreaks_iff :
    (∀ c ∈ unifyBreaks cs, IsSpace c) ↔ ∀ c ∈ cs, IsSpace c := by
  constructor
  · intro h c hc
    by_contra hspace
    exact hspace (h c ((mem_unifyBreaks_iff hspace).mpr hc))
  · intro h c hc
    by_contra hspace
    exact hspace (h c ((mem_unifyBreaks_iff hspace).mp hc))

theorem unifyBreaks_eq_self (h : 0x0D ∉ cs) : unifyBreaks cs = cs := by
  induction cs with
  | nil => rfl
  | cons c cs ih =>
    rw [List.mem_cons, not_or] at h
    rw [unifyBreaks_cons (Ne.symm h.1), ih h.2]

theorem lineFeed_mem_unifyBreaks (h : 0x0D ∈ cs) : 0x0A ∈ unifyBreaks cs := by
  fun_induction unifyBreaks cs with
  | case1 => cases h
  | case2 cs _ => exact List.mem_cons_self
  | case3 cs _ _ => exact List.mem_cons_self
  | case4 c cs _ hc ih =>
    rcases List.mem_cons.mp h with hreturn | hrest
    · exact absurd hreturn.symm hc
    · exact List.mem_cons_of_mem c (ih hrest)

/-! ### Two parts of a text -/

/-- A cut through a text that parts no carriage return from its line feed. -/
def CleanCut (before behind : List Nat) : Prop :=
  before.getLast? = some 0x0D → behind.head? ≠ some 0x0A

theorem CleanCut.tail (h : CleanCut (c :: before) behind) : CleanCut before behind := by
  intro hlast
  apply h
  rw [List.getLast?_cons, hlast, Option.getD_some]

theorem cleanCut_of_last (h : ∀ c ∈ before.getLast?, ¬IsSpace c) : CleanCut before behind := by
  intro hlast
  exact absurd (by decide) (h 0x0D hlast)

theorem cleanCut_of_first (h : ∀ c ∈ behind.head?, ¬IsSpace c) : CleanCut before behind := by
  intro _ hfirst
  exact h 0x0A hfirst (by decide)

theorem unifyBreaks_append (h : CleanCut before behind) :
    unifyBreaks (before ++ behind) = unifyBreaks before ++ unifyBreaks behind := by
  fun_induction unifyBreaks before with
  | case1 => rfl
  | case2 cs ih =>
    rw [List.cons_append, List.cons_append, unifyBreaks, ih h.tail.tail]
    rfl
  | case3 cs halone ih =>
    have hhead : (cs ++ behind).head? ≠ some 0x0A := by
      intro hfeed
      cases cs with
      | nil => exact h rfl hfeed
      | cons d cs => exact halone cs (by rw [Option.some.inj hfeed])
    rw [List.cons_append, unifyBreaks_return hhead, ih h.tail]
    rfl
  | case4 c cs _ hc ih =>
    rw [List.cons_append, unifyBreaks_cons hc, ih h.tail]
    rfl

/-! ### Stripping -/

theorem head?_unifyBreaks (h : ∀ c ∈ cs.head?, ¬IsSpace c) :
    (unifyBreaks cs).head? = cs.head? := by
  cases cs with
  | nil => rfl
  | cons c cs =>
    rw [unifyBreaks_cons (ne_of_isSpace (by decide) (h c rfl))]
    rfl

theorem getLast?_unifyBreaks (h : ∀ c ∈ cs.getLast?, ¬IsSpace c) :
    (unifyBreaks cs).getLast? = cs.getLast? := by
  obtain rfl | ⟨front, c, rfl⟩ := List.eq_nil_or_concat' cs
  · rfl
  · have hc : ¬IsSpace c := h c (by simp)
    have hcut : CleanCut front [c] := cleanCut_of_first (by simpa using hc)
    have hlone : unifyBreaks [c] = [c] := unifyBreaks_cons (ne_of_isSpace (by decide) hc) []
    rw [unifyBreaks_append hcut, hlone]
    simp

/-- What is left of a text between its blank ends. -/
theorem stripped_unifyBreaks (h : Stripped cs s) : Stripped (unifyBreaks cs) (unifyBreaks s) := by
  by_cases hs : s = []
  · -- a carriage return in front of `s` may have its line feed behind it here
    rw [hs] at h ⊢
    have hblank : ∀ c ∈ cs, IsSpace c := trim_eq_nil_iff.mp h.eq_trim
    exact trimmed_iff.mpr (trim_eq_nil_iff.mpr (isSpace_unifyBreaks_iff.mpr hblank))
  · obtain ⟨before, behind, rfl, hbefore, hbehind⟩ := h.around
    have hfront : CleanCut before s := cleanCut_of_first h.first
    have hback : CleanCut (before ++ s) behind := by
      apply cleanCut_of_last
      rw [List.getLast?_append_of_ne_nil _ hs]
      exact h.last
    refine ⟨⟨unifyBreaks before, unifyBreaks behind, ?_, isSpace_unifyBreaks_iff.mpr hbefore,
      isSpace_unifyBreaks_iff.mpr hbehind⟩, ?_, ?_⟩
    · rw [unifyBreaks_append hback, unifyBreaks_append hfront]
    · rw [head?_unifyBreaks h.first]
      exact h.first
    · rw [getLast?_unifyBreaks h.last]
      exact h.last

theorem strip_unifyBreaks (cs : List Nat) : strip (unifyBreaks cs) = unifyBreaks (strip cs) :=
  trimmed_iff.mp (stripped_unifyBreaks (trimmed_trim _ cs))

/-! ### Cutting -/

theorem unifyBreaks_intercalate (hc : ¬IsSpace c) (pieces : List (List Nat)) :
    unifyBreaks ([c].intercalate pieces) = [c].intercalate (pieces.map unifyBreaks) := by
  induction pieces with
  | nil => rfl
  | cons piece pieces ih =>
    cases pieces with
    | nil => simp [List.intercalate_singleton]
    | cons second pieces =>
      have hcut : CleanCut piece (c :: [c].intercalate (second :: pieces)) :=
        cleanCut_of_first (by simpa using hc)
      rw [List.map_cons, List.map_cons, List.intercalate_cons_cons, List.intercalate_cons_cons,
        List.append_assoc, List.append_assoc, List.singleton_append, List.singleton_append,
        unifyBreaks_append hcut, unifyBreaks_cons (ne_of_isSpace (by decide) hc), ih]
      rfl

/-- A text is cut at the same places before and afterwards. -/
theorem splitOn_unifyBreaks (hc : ¬IsSpace c) (cs : List Nat) :
    (unifyBreaks cs).splitOn c = (cs.splitOn c).map unifyBreaks := by
  have hpieces : ∀ piece ∈ (cs.splitOn c).map unifyBreaks, c ∉ piece := by
    intro piece hpiece
    obtain ⟨part, hpart, rfl⟩ := List.mem_map.mp hpiece
    rw [mem_unifyBreaks_iff hc]
    exact not_mem_of_mem_splitOn hpart
  have hne : (cs.splitOn c).map unifyBreaks ≠ [] := by
    rw [Ne, List.map_eq_nil_iff]
    exact List.splitOn_ne_nil c cs
  have hjoined : [c].intercalate ((cs.splitOn c).map unifyBreaks) = unifyBreaks cs := by
    rw [← unifyBreaks_intercalate hc, List.intercalate_splitOn]
  rw [← hjoined, List.splitOn_intercalate c hpieces hne]

end TapeNet.Text
