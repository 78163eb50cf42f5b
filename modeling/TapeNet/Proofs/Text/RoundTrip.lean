import TapeNet.Proofs.Text.ProgramGrammar

/-! # Programs written and read back

    Canonical text holds no blank character, and its commas are those
    between the numerals, so reading finds the numerals that were written
    (`pieces_format`, `parse_format`). Each of them stands for the integer it
    was written for, unless it has too many digits (`numeral_decimal`).
-/

namespace TapeNet.ProgramText

open Text

/-! ### One integer -/

theorem unsigned_digits {n : Nat} (h : n < 10 ^ 4300) : Unsigned (digits n) n where
  length_pos := List.length_pos_iff.mpr (digits_ne_nil n)
  length_le := (length_digits_le_iff (by decide)).mpr h
  value := natOfDigits?_eq_some_iff.mp (natOfDigits?_digits n)

theorem numeral_decimal {v : Int} (h : v.natAbs < 10 ^ 4300) : Numeral (decimal v) v := by
  cases v with
  | ofNat n => exact .plain (unsigned_digits h)
  | negSucc n => exact .minus (unsigned_digits h)

theorem natAbs_lt_of_isWord {v : Int} (h : IsWord v) {k : Nat} (hk : 19 ≤ k) :
    v.natAbs < 10 ^ k := (writable_some_iff (by omega)).mp (writable_of_isWord h hk)

theorem stripped_decimal (v : Int) : Stripped (decimal v) (decimal v) :=
  trimmed_iff.mpr (trim_eq_self fun _ => not_isSpace_of_mem_decimal)

theorem value_decimal {v : Int} (h : IsWord v) : Value (decimal v) v :=
  ⟨decimal v, stripped_decimal v, numeral_decimal (natAbs_lt_of_isWord h (by decide)), h⟩

/-! ### Whole programs -/

theorem not_isSpace_of_mem_format {xs : List Int} {c : Nat} (h : c ∈ format xs) :
    ¬IsSpace c := by
  rw [format] at h
  rcases mem_intercalate h with rfl | ⟨piece, hpiece, hc⟩
  · decide
  · obtain ⟨v, -, rfl⟩ := List.mem_map.mp hpiece
    exact not_isSpace_of_mem_decimal hc

/-- Reading finds the numerals that were written. -/
theorem pieces_format {xs : List Int} (h : xs ≠ []) :
    Pieces (format xs) (xs.map decimal) where
  ne_nil := fun hnil => h (List.map_eq_nil_iff.mp hnil)
  comma_not_mem := by
    intro piece hpiece
    obtain ⟨v, -, rfl⟩ := List.mem_map.mp hpiece
    exact comma_not_mem_decimal v
  joined := trimmed_iff.mpr (trim_eq_self fun _ => not_isSpace_of_mem_format)

theorem parse_format (xs : List Int) : parse (format xs) = wordsFrom 0 (xs.map decimal) := by
  cases xs with
  | nil => exact parse_of_blank fun c hc => absurd hc List.not_mem_nil
  | cons v vs =>
    have hpieces := pieces_format (List.cons_ne_nil v vs)
    have hne : format (v :: vs) ≠ [] := by
      intro hnil
      have hsplit := pieces_iff.mp hpieces
      rw [hnil] at hsplit
      exact decimal_ne_nil v (List.cons.inj hsplit).1.symm
    have hmem := List.head_mem hne
    rw [parse_of_not_blank ⟨_, hmem, not_isSpace_of_mem_format hmem⟩, pieces_iff.mp hpieces]

/-- A program of words is read back as it was written. -/
theorem parse_format_of_words {xs : List Int} (h : ∀ x ∈ xs, IsWord x) :
    parse (format xs) = .ok xs := by
  rw [parse_format, wordsFrom_eq_ok_iff, List.forall₂_map_left_iff, List.forall₂_same]
  exact fun x hx => value_decimal (h x hx)

/-- The first integer that is no word is refused. -/
theorem parse_format_of_not_word {before behind : List Int} {x : Int}
    (hbefore : ∀ y ∈ before, IsWord y) (hx : ¬IsWord x) (hdigits : x.natAbs < 10 ^ 4300) :
    parse (format (before ++ x :: behind)) = .error ⟨before.length, decimal x, .notWord⟩ := by
  rw [parse_format, wordsFrom_zero_eq_error_iff, List.map_append, List.map_cons]
  refine ⟨fun piece hpiece => ?_, ⟨decimal x, ?_, stripped_decimal x⟩,
    .notWord (numeral_decimal hdigits) hx⟩
  · have htake : (before.map decimal ++ decimal x :: behind.map decimal).take before.length =
        before.map decimal := List.take_left' (List.length_map _)
    rw [htake] at hpiece
    obtain ⟨y, hy, rfl⟩ := List.mem_map.mp hpiece
    exact ⟨y, value_decimal (hbefore y hy)⟩
  · show (before.map decimal ++ decimal x :: behind.map decimal)[before.length]? = _
    rw [List.getElem?_append_right (by rw [List.length_map]), List.length_map, Nat.sub_self]
    rfl

theorem isWord_of_parse {text : List Nat} {xs : List Int} (h : parse text = .ok xs) :
    ∀ x ∈ xs, IsWord x := by
  by_cases hblank : ∀ c ∈ text, IsSpace c
  · rw [parse_of_blank hblank] at h
    cases h
    exact fun x hx => absurd hx List.not_mem_nil
  · push Not at hblank
    rw [parse_of_not_blank hblank, wordsFrom_eq_ok_iff] at h
    have hwords : List.Forall₂ (fun x piece => IsWord x ∧ Value piece x) xs _ :=
      (h.imp fun piece x hvalue => ⟨hvalue.isWord, hvalue⟩).flip
    exact ((List.forall₂_and_left _ _).mp hwords).1

/-- Integers of at most 4300 digits are read back as they were written if all of them are words, and
    the first one that is none is refused otherwise. Every text that can be read is read as its
    canonical text is, which is read and written without a change. -/
theorem round_trip :
    (∀ xs : List Int, (∀ x ∈ xs, x.natAbs < 10 ^ 4300) →
      ((∀ x ∈ xs, IsWord x) → parse (format xs) = .ok xs) ∧
      ((∃ x ∈ xs, ¬IsWord x) → ∃ before x behind, xs = before ++ x :: behind ∧
        (∀ y ∈ before, IsWord y) ∧ ¬IsWord x ∧
        parse (format xs) = .error ⟨before.length, decimal x, .notWord⟩)) ∧
    ∀ text xs, parse text = .ok xs →
      parse (format xs) = .ok xs ∧ (parse (format xs)).map format = .ok (format xs) := by
  refine ⟨fun xs hdigits => ⟨parse_format_of_words, fun ⟨w, hw, hnot⟩ => ?_⟩, fun text xs h => ?_⟩
  · have hfound : (xs.find? fun x => ¬IsWord x).isSome :=
      List.find?_isSome.mpr ⟨w, hw, decide_eq_true hnot⟩
    obtain ⟨x, hfind⟩ := Option.isSome_iff_exists.mp hfound
    obtain ⟨hx, before, behind, rfl, hbefore⟩ := List.find?_eq_some_iff_append.mp hfind
    replace hx : ¬IsWord x := of_decide_eq_true hx
    replace hbefore : ∀ y ∈ before, IsWord y := by simpa using hbefore
    have hmem : x ∈ before ++ x :: behind := List.mem_append_right _ List.mem_cons_self
    exact ⟨before, x, behind, rfl, hbefore, hx,
      parse_format_of_not_word hbefore hx (hdigits x hmem)⟩
  · have hread := parse_format_of_words (isWord_of_parse h)
    rw [hread]
    exact ⟨rfl, rfl⟩

/-- The two limits of words, and one more. -/
def limits : List Int := [minWord, maxWord, maxWord + 1]

theorem limits_round_trip :
    (∀ x ∈ limits, x.natAbs < 10 ^ 4300) ∧ (∃ x ∈ limits, ¬IsWord x) ∧
      (∃ before x behind, limits = before ++ x :: behind ∧
        parse (format limits) = .error ⟨before.length, decimal x, .notWord⟩) ∧
      parse (codes " +1 ,-0") = .ok [1, 0] ∧ parse (format [1, 0]) = .ok [1, 0] := by
  have hdigits : ∀ x ∈ limits, x.natAbs < 10 ^ 4300 := by decide +kernel
  have hlarge : ∃ x ∈ limits, ¬IsWord x := by decide
  have hread : parse (codes " +1 ,-0") = .ok [1, 0] := by decide
  obtain ⟨before, x, behind, hsplit, -, -, hrefused⟩ := (round_trip.1 limits hdigits).2 hlarge
  exact ⟨hdigits, hlarge, ⟨before, x, behind, hsplit, hrefused⟩, hread, (round_trip.2 _ _ hread).1⟩

end TapeNet.ProgramText
