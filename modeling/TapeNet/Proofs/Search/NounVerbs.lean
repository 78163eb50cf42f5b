import Mathlib.Order.Basic
import TapeNet.NounVerb
import TapeNet.Proofs.Machine.Padding
import TapeNet.Proofs.Search.Fuel

/-! # The search for a noun and a verb

    Every trial of the search is the run of a fresh machine on a program of
    its own: the given one with the noun and the verb in it.

    - `patch` is that program, and `Leaves` says what its machine leaves at
      address 0. A trial patches a tape instead, which cannot be told apart
      (`answer_iff`).
    - `comesTo_search_of_first`: the first pair, noun by noun, whose trial
      fails or has the answer that is looked for decides the search, and
      later pairs are not tried.
    - `exists_of_find`: what the search finds is the code of such a pair.
-/

namespace TapeNet

namespace NounVerb

variable {program : List Int} {target limit : Int} {fuel : Nat}

/-! ### Trials -/

/-- A program with its noun at address 1 and its verb at address 2. One that is shorter than that is
    extended with zeros before. -/
def patch (program : List Int) (noun verb : Int) : List Int :=
  ((program ++ List.replicate (3 - program.length) 0).set 1 noun).set 2 verb

/-- What the end of a run leaves at address 0, or the fault that broke the run off. -/
def leavings : Outcome × Machine × Unit → Except Fault Int
  | (.failed fault, _, _) => .error fault
  | (_, m, _) => .ok (m.tape.get 0)

/-- A fresh machine on a program stops, and this is what it leaves at address 0. -/
def Leaves (program : List Int) (r : Except Fault Int) : Prop :=
  ∃ fuel e, (Machine.load {} program).run Port.silent fuel () = some e ∧ leavings e = r

theorem run_answer (program : List Int) (noun verb : Int) (fuel : Nat) :
    (answer fuel program noun verb).run =
      ((Machine.onTape {} (patched program noun verb)).run Port.silent fuel ()).map leavings := by
  rw [answer, ExceptT.run_bind, Machine.finish]
  cases (Machine.onTape {} (patched program noun verb)).run Port.silent fuel () with
  | none => rfl
  | some e =>
    obtain ⟨o, m, s⟩ := e
    cases o with
    | _ => rfl

theorem settles_answer (program : List Int) (noun verb : Int) :
    Settles (answer · program noun verb) := by
  intro fuel extra r h
  rw [run_answer] at h ⊢
  obtain ⟨e, he, hr⟩ := Option.map_eq_some_iff.mp h
  rw [Machine.run_add Port.silent extra he, Option.map_some, hr]

/-- A tape that is patched holds the same words as the tape of the patched program. -/
theorem padded_patched (program : List Int) (noun verb : Int) :
    (patched program noun verb).Padded 0 (Tape.ofList (patch program noun verb)) where
  get a := by
    have hlength : (program ++ List.replicate (3 - program.length) 0).length =
        max program.length 3 := by
      rw [List.length_append, List.length_replicate]
      omega
    have hrest : (program ++ List.replicate (3 - program.length) 0)[a]?.getD 0 =
        program[a]?.getD 0 := by
      rcases Nat.lt_or_ge a program.length with ha | ha
      · rw [List.getElem?_append_left ha]
      · rw [List.getElem?_append_right ha, List.getElem?_eq_none ha, List.getElem?_replicate]
        split
        · rfl
        · rfl
    rw [patched, Tape.get_set, Tape.get_set, Tape.get_ofList, Tape.get_ofList, patch,
      List.getElem?_set, List.getElem?_set, List.length_set, hlength]
    rcases eq_or_ne a 2 with rfl | hverb
    · rw [if_pos rfl, if_pos rfl, if_pos (by omega)]
      rfl
    · rcases eq_or_ne a 1 with rfl | hnoun
      · rw [if_neg hverb.symm, if_pos rfl, if_pos (by omega), if_neg hverb, if_pos rfl]
        rfl
      · rw [if_neg hverb.symm, if_neg hnoun.symm, if_neg hverb, if_neg hnoun, hrest]
  size := by
    rw [patched, Tape.size_set, Tape.size_set, Tape.size_ofList, Tape.size_ofList, patch,
      List.length_set, List.length_set, List.length_append, List.length_replicate]
    omega

/-- What is left does not depend on the length of the tape. -/
theorem leavings_eq {m m' : Machine} (h : m.Padded 0 m') (o : Outcome) :
    leavings (o, m', ()) = leavings (o, m, ()) := by
  cases o with
  | failed fault => rfl
  | _ => exact congrArg Except.ok (h.tape.get 0)

theorem map_leavings_eq {x y : Option (Outcome × Machine × Unit)}
    (h : Option.Rel (fun e e' => leavings e' = leavings e) x y) :
    y.map leavings = x.map leavings := by
  cases h with
  | some he => exact congrArg some he
  | none => rfl

/-- The two machines run equally long and leave the same. -/
theorem run_patched (program : List Int) (noun verb : Int) (fuel : Nat) :
    ((Machine.load {} (patch program noun verb)).run Port.silent fuel ()).map leavings =
      ((Machine.onTape {} (patched program noun verb)).run Port.silent fuel ()).map leavings := by
  have hmachines : (Machine.onTape {} (patched program noun verb)).Padded 0
      (Machine.load {} (patch program noun verb)) :=
    ⟨rfl, padded_patched program noun verb, rfl, rfl, rfl, rfl⟩
  have hstart : Machine.Parallel.OnePort (Machine.Padded 0)
      (Machine.onTape {} (patched program noun verb), ())
      (Machine.load {} (patch program noun verb), ()) := ⟨hmachines, rfl⟩
  have hlockstep := (Machine.parallel_padded 0).lockstep Port.silent
  exact map_leavings_eq (hlockstep.run (fun _ => Iff.rfl)
    (fun o _ _ hq => leavings_eq hq.1 o) hstart fuel)

/-- A trial comes to what a fresh machine on the patched program does. -/
theorem answer_iff {noun verb : Int} {r : Except Fault Int} :
    (∃ fuel, (answer fuel program noun verb).run = some r) ↔
      Leaves (patch program noun verb) r := by
  simp only [run_answer, ← run_patched, Option.map_eq_some_iff, Leaves]

theorem comesTo_answer {noun verb : Int} {r : Except Fault Int}
    (h : Leaves (patch program noun verb) r) : ComesTo (answer · program noun verb) r := by
  obtain ⟨fuel, hr⟩ := answer_iff.mpr h
  exact (settles_answer program noun verb).comesTo hr

/-! ### Rows -/

/-- The trial of a pair stops with another answer than the one that is looked for. -/
def Misses (program : List Int) (target noun verb : Int) : Prop :=
  ∃ a, a ≠ target ∧ Leaves (patch program noun verb) (.ok a)

/-- What a trial means for the search: the code of the pair if it has the answer. -/
def trial (program : List Int) (target : Int) (noun fuel verb : Nat) :
    ExceptT Fault Option (Option Int) := do
  let r ← answer fuel program noun verb
  pure (if r = target then some (100 * noun + verb : Int) else none)

/-- The trials with one noun. -/
def row (program : List Int) (target : Int) (n fuel noun : Nat) :
    ExceptT Fault Option (Option Int) :=
  (List.range n).findSomeM? (trial program target noun fuel)

theorem search_eq (program : List Int) (target : Int) (n fuel : Nat) :
    search fuel program target n = (List.range n).findSomeM? (row program target n fuel) := rfl

variable {noun verb n : Nat}

theorem comesTo_trial_hit (h : Leaves (patch program noun verb) (.ok target)) :
    ComesTo (trial program target noun · verb) (.ok (some (100 * noun + verb))) := by
  have hpure := comesTo_const (Except.ok (some (100 * noun + verb : Int)) : Except Fault _)
  refine (comesTo_answer h).bind ?_
  rw [if_pos rfl]
  exact hpure

theorem comesTo_trial_miss (h : Misses program target noun verb) :
    ComesTo (trial program target noun · verb) (.ok none) := by
  obtain ⟨a, hne, ha⟩ := h
  have hpure := comesTo_const (Except.ok none : Except Fault (Option Int))
  refine (comesTo_answer ha).bind ?_
  rw [if_neg hne]
  exact hpure

theorem comesTo_trial_fault {fault : Fault} (h : Leaves (patch program noun verb) (.error fault)) :
    ComesTo (trial program target noun · verb) (.error fault) :=
  (comesTo_answer h).bind_error

/-- Counting gets past all smaller numbers before it gets to a number. -/
theorem exists_range_eq {k n : Nat} (h : k < n) :
    ∃ after, List.range n = List.range k ++ k :: after := by
  refine ⟨(List.range n).drop (k + 1), ?_⟩
  have hlength : k < (List.range n).length := by rwa [List.length_range]
  have hk : (List.range n)[k] = k := List.getElem_range hlength
  calc List.range n = (List.range n).take k ++ (List.range n).drop k :=
        (List.take_append_drop k _).symm
    _ = List.range k ++ k :: (List.range n).drop (k + 1) := by
        rw [List.take_range, Nat.min_eq_left (Nat.le_of_lt h),
          List.drop_eq_getElem_cons hlength, hk]

theorem comesTo_row_of_misses (h : ∀ v < n, Misses program target noun (v : Nat)) :
    ComesTo (row program target n · noun) (.ok none) :=
  ComesTo.findSome_none fun v hv => comesTo_trial_miss (h v (List.mem_range.mp hv))

/-! ### Searches -/

variable {s : Except Fault (Option Int)}

/-- The first trial, noun by noun, that fails or has the answer decides the search. -/
theorem comesTo_search_of_first (hnoun : noun < n) (hverb : verb < n)
    (hbefore : ∀ k < n, ∀ v < n, k < noun ∨ k = noun ∧ v < verb →
      Misses program target (k : Nat) (v : Nat))
    (h : ComesTo (trial program target noun · verb) s) (hs : s ≠ .ok none) :
    ComesTo (search · program target n) s := by
  simp only [search_eq]
  obtain ⟨nouns, hnouns⟩ := exists_range_eq hnoun
  obtain ⟨verbs, hverbs⟩ := exists_range_eq hverb
  have hrow : ComesTo (row program target n · noun) s := by
    have htrials := (h.findSome_cons verbs hs).findSome_append fun v hv =>
      have hlt := List.mem_range.mp hv
      comesTo_trial_miss (hbefore noun hnoun v (Nat.lt_trans hlt hverb) (.inr ⟨rfl, hlt⟩))
    rwa [← hverbs] at htrials
  have hrows := (hrow.findSome_cons nouns hs).findSome_append fun k hk =>
    have hlt := List.mem_range.mp hk
    comesTo_row_of_misses fun v hv => hbefore k (Nat.lt_trans hlt hnoun) v hv (.inl hlt)
  rwa [← hnouns] at hrows

theorem comesTo_search_of_misses
    (h : ∀ k < n, ∀ v < n, Misses program target (k : Nat) (v : Nat)) :
    ComesTo (search · program target n) (.ok none) :=
  ComesTo.findSome_none fun k hk => comesTo_row_of_misses (h k (List.mem_range.mp hk))

/-- What the search means for its caller. -/
def answerOf (limit target : Int) : Except Fault (Option Int) → Except SearchError Int
  | .error fault => .error (.fault fault)
  | .ok (some code) => .ok code
  | .ok none => .error (.notFound limit target)

theorem comesTo_find (h : ComesTo (search · program target (limit + 1).toNat) s) :
    ComesTo (find · program target limit) (answerOf limit target s) := by
  have hadapted := h.adapt SearchError.fault
  match s with
  | .error fault => exact hadapted.bind_error
  | .ok (some code) => exact hadapted.bind (comesTo_const _)
  | .ok none => exact hadapted.bind (comesTo_const _)

/-- What is found is the code of a pair that has the answer. -/
theorem exists_of_find {r : Int} (h : (find fuel program target limit).run = some (.ok r)) :
    ∃ noun < (limit + 1).toNat, ∃ verb < (limit + 1).toNat, r = 100 * (noun : Int) + verb ∧
      (answer fuel program noun verb).run = some (.ok target) := by
  obtain ⟨found, hsearch, hcode⟩ := exists_of_run_bind h
  have hfound : found = some r := by
    cases found with
    | none => cases hcode
    | some code =>
      cases hcode
      rfl
  rw [hfound] at hsearch
  obtain ⟨noun, hnoun, hrow⟩ := exists_of_findSome (run_of_run_adapt hsearch)
  obtain ⟨verb, hverb, htrial⟩ := exists_of_findSome hrow
  obtain ⟨a, ha, hpure⟩ := exists_of_run_bind htrial
  have hcode : (if a = target then some (100 * (noun : Int) + verb) else none) = some r :=
    Except.ok.inj (Option.some.inj hpure)
  rw [Option.ite_none_right_eq_some, Option.some_inj] at hcode
  obtain ⟨rfl, hr⟩ := hcode
  exact ⟨noun, List.mem_range.mp hnoun, verb, List.mem_range.mp hverb, hr.symm, ha⟩

/-! ### Pairs of integers -/

/-- The pairs that are searched: both parts are from 0 up to the limit. -/
structure InSquare (limit noun verb : Int) : Prop where
  noun_nonneg : 0 ≤ noun
  noun_le : noun ≤ limit
  verb_nonneg : 0 ≤ verb
  verb_le : verb ≤ limit

/-- Pairs are searched noun by noun. -/
def Precedes (p q : Int × Int) : Prop := p.1 < q.1 ∨ p.1 = q.1 ∧ p.2 < q.2

theorem inSquare_natCast {noun verb : Nat} (hnoun : noun < (limit + 1).toNat)
    (hverb : verb < (limit + 1).toNat) : InSquare limit noun verb where
  noun_nonneg := Int.natCast_nonneg noun
  noun_le := by omega
  verb_nonneg := Int.natCast_nonneg verb
  verb_le := by omega

/-- A trial comes to what a fresh machine does on a program of its own, in which the noun and the
    verb are put. The first pair, noun by noun, whose trial fails or has the answer that is looked
    for decides the search, with the fault or with the code of the pair; if there is none, that is
    what the search says. Up to 99 the code says which pair it was. -/
theorem first_pair_decides (program : List Int) (target limit : Int) :
    (∀ noun verb r, (∃ fuel, (answer fuel program noun verb).run = some r) ↔
      Leaves (patch program noun verb) r) ∧
    (∀ noun verb, InSquare limit noun verb →
      (∀ n v, InSquare limit n v → Precedes (n, v) (noun, verb) → Misses program target n v) →
        (Leaves (patch program noun verb) (.ok target) →
          ComesTo (find · program target limit) (.ok (100 * noun + verb))) ∧
        ∀ fault, Leaves (patch program noun verb) (.error fault) →
          ComesTo (find · program target limit) (.error (.fault fault))) ∧
    ((∀ noun verb, InSquare limit noun verb → Misses program target noun verb) →
      ComesTo (find · program target limit) (.error (.notFound limit target))) ∧
    (limit ≤ 99 → ∀ fuel r, (find fuel program target limit).run = some (.ok r) →
      (answer fuel program (r / 100) (r % 100)).run = some (.ok target)) := by
  refine ⟨fun noun verb r => answer_iff, ?_, ?_, ?_⟩
  · intro noun verb hpair hbefore
    obtain ⟨noun, rfl⟩ := Int.eq_ofNat_of_zero_le hpair.noun_nonneg
    obtain ⟨verb, rfl⟩ := Int.eq_ofNat_of_zero_le hpair.verb_nonneg
    have hnoun : noun < (limit + 1).toNat := by have := hpair.noun_le; omega
    have hverb : verb < (limit + 1).toNat := by have := hpair.verb_le; omega
    have hmisses : ∀ k < (limit + 1).toNat, ∀ v < (limit + 1).toNat,
        k < noun ∨ k = noun ∧ v < verb → Misses program target (k : Nat) (v : Nat) := by
      intro k hk v hv hlt
      apply hbefore k v (inSquare_natCast hk hv)
      show (k : Int) < noun ∨ (k : Int) = noun ∧ (v : Int) < verb
      omega
    constructor
    · intro hhit
      exact comesTo_find (comesTo_search_of_first hnoun hverb hmisses (comesTo_trial_hit hhit)
        (by simp))
    · intro fault hfault
      exact comesTo_find (comesTo_search_of_first hnoun hverb hmisses (comesTo_trial_fault hfault)
        (by simp))
  · intro hmisses
    exact comesTo_find (comesTo_search_of_misses fun k hk v hv =>
      hmisses k v (inSquare_natCast hk hv))
  · intro hlimit fuel r hfind
    obtain ⟨noun, hnoun, verb, hverb, rfl, ha⟩ := exists_of_find hfind
    -- the verb has at most two digits, so the noun is what stands before them
    have hdiv : (100 * (noun : Int) + verb) / 100 = noun := by omega
    have hmod : (100 * (noun : Int) + verb) % 100 = verb := by omega
    rwa [hdiv, hmod]

/-- Adds the words at two addresses, which may be those of the noun and the verb. -/
def adder : List Int := [1, 0, 0, 0, 99]

/-- Fourteen pairs have other sums before the fifteenth one has 103. -/
theorem adder_first_pair :
    (∀ n v, InSquare 4 n v → Precedes (n, v) (2, 4) → Misses adder 103 n v) ∧
      Leaves (patch adder 2 4) (.ok 103) ∧ ComesTo (find · adder 103 4) (.ok 204) ∧
      (answer 2 adder 2 4).run = some (.ok 103) := by
  have hsums : ∀ n v : Fin 5, (answer 2 adder n v).run = some (.ok
      ((patch adder n v).getD n 0 + (patch adder n v).getD v 0)) := by decide +kernel
  have hothers : ∀ n v : Fin 5, n < 2 ∨ n = 2 ∧ v < 4 →
      (patch adder n v).getD n 0 + (patch adder n v).getD v 0 ≠ 103 := by decide +kernel
  obtain ⟨htrials, hfirst, -, hcode⟩ := first_pair_decides adder 103 4
  have hmisses : ∀ n v, InSquare 4 n v → Precedes (n, v) (2, 4) → Misses adder 103 n v := by
    intro n v ⟨hn, hn', hv, hv'⟩ hlt
    obtain ⟨n, rfl⟩ := Int.eq_ofNat_of_zero_le hn
    obtain ⟨v, rfl⟩ := Int.eq_ofNat_of_zero_le hv
    have hlt' : (n : Int) < 2 ∨ (n : Int) = 2 ∧ (v : Int) < 4 := hlt
    refine ⟨_, hothers ⟨n, by omega⟩ ⟨v, by omega⟩ ?_,
      (htrials _ _ _).mp ⟨2, hsums ⟨n, by omega⟩ ⟨v, by omega⟩⟩⟩
    simp only [Fin.lt_def, Fin.ext_iff]
    show n < 2 ∨ n = 2 ∧ v < 4
    omega
  have hhit : Leaves (patch adder 2 4) (.ok 103) := (htrials _ _ _).mp ⟨2, hsums 2 4⟩
  have hfound := (hfirst 2 4 ⟨by decide, by decide, by decide, by decide⟩ hmisses).1 hhit
  have hfind : (find 2 adder 103 4).run = some (.ok 204) := by decide +kernel
  exact ⟨hmisses, hhit, hfound, hcode (by decide) 2 204 hfind⟩

end NounVerb

end TapeNet
