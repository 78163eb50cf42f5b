import TapeNet.Proofs.Text.LineFeeds
import TapeNet.Proofs.Text.ProgramGrammar

/-! # Programs in files

    What is read from a file against what is read from the text that was
    written to it. The two only differ in the line breaks, all of which are
    line feeds behind the decoder.

    - `fromUTF8?_eq_some_iff`: the bytes that decode to a text are those that
      encode it, and no others.
    - `wordOf_unifyBreaks`: a line break inside of a value makes it no
      integer, whichever break it is.
    - `parse_unifyBreaks`: a text is read in the same way with line feeds
      for its breaks, up to the value's text in a refusal.
    - `loadFile_as_parsed`: so loading agrees with reading the text.
-/

namespace TapeNet.ProgramText

open Text

/-! ### Bytes -/

theorem fromUTF8?_eq_some_iff {bytes : ByteArray} {text : String} :
    String.fromUTF8? bytes = some text ↔ text.toList.utf8Encode = bytes := by
  rw [String.utf8Encode_toList, String.fromUTF8?]
  constructor
  · intro h
    split at h
    · cases h
      rfl
    · cases h
  · intro h
    rw [← h, dif_pos text.isValidUTF8]
    rfl

/-! ### Values -/

theorem numeral_unifyBreaks_iff {token : List Nat} {v : Int} :
    Numeral (unifyBreaks token) v ↔ Numeral token v := by
  by_cases hreturn : 0x0D ∈ token
  · -- a numeral holds no line break, neither the old one nor the new one
    constructor
    · intro h
      exact absurd (by decide) (h.not_isSpace (lineFeed_mem_unifyBreaks hreturn))
    · intro h
      exact absurd (by decide) (h.not_isSpace hreturn)
  · rw [unifyBreaks_eq_self hreturn]

theorem wordOf_unifyBreaks (token : List Nat) : wordOf (unifyBreaks token) = wordOf token := by
  have hinteger : integer? (unifyBreaks token) = integer? token := by
    apply Option.ext
    intro v
    rw [integer?_eq_some_iff, integer?_eq_some_iff, numeral_unifyBreaks_iff]
  unfold wordOf
  rw [hinteger]

/-- A refusal with line feeds for the breaks in the value's text. -/
def FormatError.withLineFeeds (e : FormatError) : FormatError :=
  ⟨e.index, unifyBreaks e.token, e.flaw⟩

theorem wordsFrom_unifyBreaks (i : Nat) (pieces : List (List Nat)) :
    wordsFrom i (pieces.map unifyBreaks) =
      (wordsFrom i pieces).mapError FormatError.withLineFeeds := by
  induction pieces generalizing i with
  | nil => rfl
  | cons piece pieces ih =>
    rw [List.map_cons, wordsFrom, wordsFrom, strip_unifyBreaks, wordOf_unifyBreaks, ih]
    cases wordOf (strip piece) with
    | error flaw => rfl
    | ok v => cases wordsFrom (i + 1) pieces <;> rfl

/-! ### Texts -/

theorem parse_unifyBreaks (text : List Nat) :
    parse (unifyBreaks text) = (parse text).mapError FormatError.withLineFeeds := by
  by_cases hblank : ∀ c ∈ text, IsSpace c
  · rw [parse_of_blank hblank, parse_of_blank (isSpace_unifyBreaks_iff.mpr hblank)]
    rfl
  · have hunified := mt isSpace_unifyBreaks_iff.mp hblank
    push Not at hblank hunified
    rw [parse_of_not_blank hblank, parse_of_not_blank hunified, strip_unifyBreaks,
      splitOn_unifyBreaks (by decide), wordsFrom_unifyBreaks]

/-! ### Files -/

theorem loadFile_utf8Encode (text : String) :
    loadFile (some text.toList.utf8Encode) =
      (parse (codes text)).mapError fun e => .format e.withLineFeeds := by
  have hdecoded : String.fromUTF8? text.toList.utf8Encode = some text :=
    fromUTF8?_eq_some_iff.mpr rfl
  simp only [loadFile, hdecoded, parse_unifyBreaks]
  cases parse (codes text) <;> rfl

/-- Bytes that are no text are refused as such. -/
theorem loadFile_eq_notUtf8_iff {bytes : ByteArray} :
    loadFile (some bytes) = .error .notUtf8 ↔ ¬∃ text : String, text.toList.utf8Encode = bytes := by
  constructor
  · intro h hencoded
    obtain ⟨text, htext⟩ := hencoded
    rw [← htext, loadFile_utf8Encode] at h
    -- neither a program nor the refusal of a text is this error
    cases hparse : parse (codes text) <;> simp [hparse, Except.mapError] at h
  · intro h
    have hnone : String.fromUTF8? bytes = none := by
      apply Option.eq_none_iff_forall_ne_some.mpr
      intro text htext
      exact h ⟨text, fromUTF8?_eq_some_iff.mp htext⟩
    rw [loadFile, hnone]

/-- From a file that a text was written to, the same program is read as from the text, or it is
    refused for the value with the same index and for the same flaw; only the breaks in the value's
    text are line feeds then. Bytes that no text is written as are not read at all. -/
theorem loadFile_as_parsed :
    (∀ text : String,
      (∀ vs, loadFile (some text.toList.utf8Encode) = .ok vs ↔ parse (codes text) = .ok vs) ∧
      ∀ failure, loadFile (some text.toList.utf8Encode) = .error failure ↔
        ∃ e, parse (codes text) = .error e ∧ failure = .format ⟨e.index, unifyBreaks e.token, e.flaw⟩) ∧
    ∀ bytes, loadFile (some bytes) = .error .notUtf8 ↔
      ¬∃ text : String, text.toList.utf8Encode = bytes := by
  refine ⟨?_, fun bytes => loadFile_eq_notUtf8_iff⟩
  intro text
  rw [loadFile_utf8Encode]
  cases parse (codes text) with
  | ok vs => simp [Except.mapError]
  | error e => simp [Except.mapError, FormatError.withLineFeeds, eq_comm]

/-- A break in the middle of a value, and others around values. -/
example :
    loadFile (some "7,\r\n-1 ,2\r\n3\r".toList.utf8Encode) =
      .error (.format ⟨2, codes "2\n3", .notInteger⟩) := by
  cbv

end TapeNet.ProgramText
