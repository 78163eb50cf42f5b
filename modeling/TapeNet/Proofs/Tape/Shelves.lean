import TapeNet.Shelf
import TapeNet.Proofs.Tape.Chronicles

/-! # Chronicles of tapes on a shelf

    Tapes on a shelf refer to buffers, which are written in place. Still they
    are as independent as values, because no two of them refer to the same
    buffer.

    - `Holds s h t`: what the shelf `s` has for the handle `h` is the tape
      `t`, words and spare cells.
    - `Rewritten`: what a write may have done to a shelf. It keeps to one
      buffer, or to a new one (`exists_put`).
    - `Archive` is a shelf of chronicles in place of tapes.
    - `Kept`: the tapes of a shelf show their chronicles, and have a buffer
      each. A shelf answers every request as its archive does, and this is
      kept (`Kept.serve`), so nothing else about a tape can be found out
      (`tapes_show_chronicles`).
-/

namespace TapeNet

/-! ### Archives -/

/-- The chronicles of the tapes of a shelf, in order. -/
abbrev Archive := List Chronicle

namespace Archive

open TapeNet.Shelf

/-- What the chronicle of a number says, if there is one. -/
def about (A : Archive) (i : Nat) (f : Chronicle → Answer) : Answer := (A[i]?.map f).getD .missing

/-- The answer to a request, as far as chronicles tell. -/
def answer (limit : Option Nat) (A : Archive) : Shelf.Request → Answer
  | .create _ => .tape A.length
  | .copy i => A.about i fun _ => .tape A.length
  | .rebuild i => A.about i fun _ => .tape A.length
  | .write i a _ => A.about i fun _ => if a < 0 then .refused (.of limit a ⟨a⟩) else .done
  | .read i a => A.about i fun c =>
    if a < 0 then .refused (.of limit a ⟨a⟩) else .word (c.value a.toNat)
  | .size i => A.about i fun c => .size c.size
  | .list i => A.about i fun c => .words c.contents
  | .describe i => A.about i fun c => .text s!"Memory(size={c.size})"
  | .same i j => A.about i fun c => A.about j fun d => .verdict (c.contents == d.contents)
  | .holds i vs => A.about i fun c => .verdict (c.contents == vs)

/-- A copy starts a chronicle of its own. -/
def renew (A : Archive) (i : Nat) : Archive :=
  match A[i]? with
  | none => A
  | some c => A ++ [⟨c.contents, []⟩]

/-- The chronicles once a request was served. A write concerns one of them, unless its address is
    negative. -/
def next (A : Archive) : Shelf.Request → Archive
  | .create program => A ++ [⟨program, []⟩]
  | .copy i => A.renew i
  | .rebuild i => A.renew i
  | .write i (.ofNat a) v => A.modify i (·.written a v)
  | _ => A

def answers (limit : Option Nat) (A : Archive) : List Shelf.Request → List Answer
  | [] => []
  | r :: rs => A.answer limit r :: (A.next r).answers limit rs

/-- The chronicles that some requests leave behind, from an empty shelf on. -/
def ofRequests (rs : List Shelf.Request) : Archive := rs.foldl next []

theorem about_of_getElem? {A : Archive} {i : Nat} {c : Chronicle} (hc : A[i]? = some c)
    (f : Chronicle → Answer) : A.about i f = f c := by
  rw [about, hc]
  rfl

end Archive

namespace Shelf

open Chronicle

variable {limit : Option Nat} {s s' : Shelf} {A : Archive} {i : Nat} {h h' k : Handle} {t : Tape}

/-! ### One tape on a shelf -/

/-- The shelf has this tape for a handle. -/
structure Holds (s : Shelf) (h : Handle) (t : Tape) : Prop where
  buffer_eq : s.buffers[h.buffer]? = some t.cells
  size_eq : h.size = t.size

theorem cells_of_getElem? {cells : Array Int} (hb : s.buffers[h.buffer]? = some cells) :
    s.cells h = cells := by
  rw [Shelf.cells, Array.getD_eq_getD_getElem?, hb]
  rfl

theorem Holds.cells_eq (hh : s.Holds h t) : s.cells h = t.cells := cells_of_getElem? hh.buffer_eq

theorem Holds.lt (hh : s.Holds h t) : h.buffer < s.buffers.size :=
  (Array.getElem?_eq_some_iff.mp hh.buffer_eq).1

theorem Holds.get_eq (hh : s.Holds h t) (a : Nat) : s.get h a = t.get a := by
  rw [Shelf.get, hh.cells_eq, hh.size_eq]
  rfl

theorem Holds.words_eq (hh : s.Holds h t) : s.words h = t.toList := by
  rw [Shelf.words, hh.cells_eq, hh.size_eq]
  rfl

/-- A tape is left alone by all that leaves its buffer alone. -/
theorem Holds.of_buffer_eq (hh : s.Holds h t) (hb : s'.buffers[h.buffer]? = s.buffers[h.buffer]?) :
    s'.Holds h t := ⟨hb.trans hh.buffer_eq, hh.size_eq⟩

theorem holds_add (s : Shelf) (t : Tape) :
    (s.add t.cells t.size).2.Holds ⟨s.buffers.size, t.size⟩ t :=
  ⟨Array.getElem?_push_size, rfl⟩

theorem Holds.store (hh : s.Holds h t) {a : Nat} (ha : a < t.size) (v : Int) :
    (s.store h a v).Holds h (t.put a v ha) where
  buffer_eq := by
    show (s.buffers.modify h.buffer _)[h.buffer]? = _
    rw [Array.getElem?_modify, if_pos rfl, hh.buffer_eq]
    rfl
  size_eq := hh.size_eq

/-! ### What a write does to a shelf -/

/-- After a write to the tape of a number: it may have got another handle, with a buffer that is new
    if it is not the old one, and all other handles and buffers are as before. -/
structure Rewritten (s s' : Shelf) (i : Nat) (h h' : Handle) : Prop where
  tapes_eq : s'.tapes = s.tapes.setIfInBounds i h'
  buffer : h'.buffer = h.buffer ∨ h'.buffer = s.buffers.size
  others : ∀ b < s.buffers.size, b ≠ h.buffer → s'.buffers[b]? = s.buffers[b]?

theorem rewritten_self (hi : s.tapes[i]? = some h) : Rewritten s s i h h where
  tapes_eq := by
    obtain ⟨hlt, rfl⟩ := Array.getElem?_eq_some_iff.mp hi
    rw [Array.setIfInBounds_def, dif_pos hlt, Array.set_getElem_self hlt]
  buffer := .inl rfl
  others _ _ _ := rfl

/-- Storing a value changes one buffer, which is the tape's own or a new one. -/
theorem Rewritten.store (hr : Rewritten s s' i h h') (a : Nat) (v : Int) :
    Rewritten s (s'.store h' a v) i h h' where
  tapes_eq := hr.tapes_eq
  buffer := hr.buffer
  others b hb hne := by
    have hother : h'.buffer ≠ b := by
      rcases hr.buffer with hold | hnew
      · rw [hold]
        exact Ne.symm hne
      · rw [hnew]
        exact (Nat.ne_of_lt hb).symm
    show (s'.buffers.modify h'.buffer _)[b]? = _
    rw [Array.getElem?_modify, if_neg hother]
    exact hr.others b hb hne

/-- Growth in the buffer and growth by moving to another one. -/
theorem exists_grow (i size : Nat) (hh : s.Holds h t) (hsize : t.size ≤ size) :
    ∃ h' s', s.grow i h size = (h', s') ∧ Rewritten s s' i h h' ∧
      s'.Holds h' (t.grow size hsize) := by
  unfold Shelf.grow Tape.grow
  rw [hh.cells_eq, hh.size_eq]
  by_cases hroom : size ≤ t.cells.size
  · rw [if_pos hroom, dif_pos hroom]
    refine ⟨_, _, rfl, ⟨rfl, .inl rfl, fun _ _ _ => rfl⟩, ⟨hh.buffer_eq, rfl⟩⟩
  · rw [if_neg hroom, dif_neg hroom]
    refine ⟨_, _, rfl, ⟨rfl, .inr rfl, ?_⟩, ⟨Array.getElem?_push_size, rfl⟩⟩
    intro b hb _
    show (s.buffers.push _)[b]? = _
    rw [Array.getElem?_push, if_neg (Nat.ne_of_lt hb)]

theorem exists_put (hi : s.tapes[i]? = some h) (hh : s.Holds h t) (a : Nat) (v : Int) :
    ∃ h', Rewritten s (s.put i h a v) i h h' ∧ (s.put i h a v).Holds h' (t.set a v) := by
  unfold Shelf.put Tape.set
  rw [hh.size_eq]
  by_cases ha : a < t.size
  · rw [if_pos ha, dif_pos ha]
    exact ⟨h, (rewritten_self hi).store a v, hh.store ha v⟩
  · rw [if_neg ha, dif_neg ha]
    obtain ⟨h', s', hgrow, hrewritten, hholds⟩ := exists_grow i (a + 1) hh (by omega)
    rw [hgrow]
    exact ⟨h', hrewritten.store a v, hholds.store (Tape.lt_size_grow ha) v⟩

/-! ### A shelf and its archive -/

/-- Every tape of a shelf shows its chronicle, and has its buffer for itself. -/
structure Kept (s : Shelf) (A : Archive) : Prop where
  size_eq : s.tapes.size = A.length
  shows : ∀ (i : Nat) (h : Handle), s.tapes[i]? = some h →
    ∃ t c, s.Holds h t ∧ A[i]? = some c ∧ Shows t c
  apart : ∀ (i j : Nat) (h k : Handle), s.tapes[i]? = some h → s.tapes[j]? = some k →
    h.buffer = k.buffer → i = j

theorem kept_empty : Kept .empty [] where
  size_eq := rfl
  shows i h hi := by
    rw [empty, Array.getElem?_eq_none (Nat.zero_le i)] at hi
    cases hi
  apart i j h k hi := by
    rw [empty, Array.getElem?_eq_none (Nat.zero_le i)] at hi
    cases hi

/-- A number has a tape and a chronicle, or neither. -/
theorem Kept.cases (hk : Kept s A) (i : Nat) :
    (s.tapes[i]? = none ∧ A[i]? = none) ∨
      ∃ h t c, s.tapes[i]? = some h ∧ s.Holds h t ∧ A[i]? = some c ∧ Shows t c := by
  cases hi : s.tapes[i]? with
  | none =>
    have hle : s.tapes.size ≤ i := by simpa using hi
    exact .inl ⟨rfl, List.getElem?_eq_none (by rw [← hk.size_eq]; exact hle)⟩
  | some h =>
    obtain ⟨t, c, hh, hc, hshows⟩ := hk.shows i h hi
    exact .inr ⟨h, t, c, rfl, hh, hc, hshows⟩

/-- A number that is in use has a buffer of the shelf. -/
theorem Kept.lt (hk : Kept s A) (hi : s.tapes[i]? = some h) : h.buffer < s.buffers.size := by
  obtain ⟨t, c, hh, -⟩ := hk.shows i h hi
  exact hh.lt

/-- A new tape gets a buffer that no other tape has. -/
theorem Kept.add (hk : Kept s A) {t : Tape} {c : Chronicle} (hshows : Shows t c) :
    (s.add t.cells t.size).1 = .tape A.length ∧ Kept (s.add t.cells t.size).2 (A ++ [c]) := by
  have htapes (j : Nat) : (s.add t.cells t.size).2.tapes[j]? =
      if j = s.tapes.size then some ⟨s.buffers.size, t.size⟩ else s.tapes[j]? :=
    Array.getElem?_push
  refine ⟨congrArg Answer.tape hk.size_eq, ?_, ?_, ?_⟩
  · show (s.tapes.push _).size = _
    rw [Array.size_push, hk.size_eq, List.length_append, List.length_singleton]
  · intro j k hj
    rw [htapes] at hj
    split at hj
    · next hlast =>
      -- the tape that was put on the shelf
      obtain rfl := Option.some.inj hj
      refine ⟨t, c, s.holds_add t, ?_, hshows⟩
      rw [hlast, hk.size_eq]
      exact List.getElem?_concat_length
    · obtain ⟨u, d, hu, hd, hold⟩ := hk.shows j k hj
      obtain ⟨hlt, -⟩ := List.getElem?_eq_some_iff.mp hd
      refine ⟨u, d, hu.of_buffer_eq ?_, (List.getElem?_append_left hlt).trans hd, hold⟩
      show (s.buffers.push _)[k.buffer]? = _
      rw [Array.getElem?_push, if_neg (Nat.ne_of_lt hu.lt)]
  · intro j m k l hj hm hbuffer
    rw [htapes] at hj hm
    split at hj <;> split at hm
    · next hjlast hmlast => rw [hjlast, hmlast]
    · obtain rfl := Option.some.inj hj
      exact absurd hbuffer.symm (Nat.ne_of_lt (hk.lt hm))
    · obtain rfl := Option.some.inj hm
      exact absurd hbuffer (Nat.ne_of_lt (hk.lt hj))
    · exact hk.apart j m k l hj hm hbuffer

/-- What is done to a tape and noted in its chronicle concerns no other tape. -/
theorem Kept.replace (hk : Kept s A) {c : Chronicle} (f : Chronicle → Chronicle)
    (hi : s.tapes[i]? = some h) (hr : Rewritten s s' i h h') (hh' : s'.Holds h' t)
    (hc : A[i]? = some c) (hshows : Shows t (f c)) : Kept s' (A.modify i f) := by
  obtain ⟨hlt, -⟩ := Array.getElem?_eq_some_iff.mp hi
  have hself : s'.tapes[i]? = some h' := by
    rw [hr.tapes_eq]
    exact Array.getElem?_setIfInBounds_self_of_lt hlt
  have hother {j : Nat} (hj : j ≠ i) : s'.tapes[j]? = s.tapes[j]? := by
    rw [hr.tapes_eq]
    exact Array.getElem?_setIfInBounds_ne (Ne.symm hj)
  -- the handle that was written through has a buffer that no other tape has
  have hown {j : Nat} {k : Handle} (hj : j ≠ i) (hk' : s.tapes[j]? = some k) :
      k.buffer ≠ h'.buffer := by
    intro hbuffer
    rcases hr.buffer with hold | hnew
    · exact hj (hk.apart j i k h hk' hi (hbuffer.trans hold))
    · exact Nat.ne_of_lt (hk.lt hk') (hbuffer.trans hnew)
  refine ⟨?_, ?_, ?_⟩
  · rw [hr.tapes_eq, Array.size_setIfInBounds, List.length_modify, hk.size_eq]
  · intro j k hj
    by_cases hij : j = i
    · subst hij
      obtain rfl := Option.some.inj (hself.symm.trans hj)
      exact ⟨t, f c, hh', by simp [hc], hshows⟩
    · rw [hother hij] at hj
      obtain ⟨u, d, hu, hd, hold⟩ := hk.shows j k hj
      have hne : k.buffer ≠ h.buffer := fun hbuffer => hij (hk.apart j i k h hj hi hbuffer)
      exact ⟨u, d, hu.of_buffer_eq (hr.others _ hu.lt hne), by simp [hd, Ne.symm hij], hold⟩
  · intro j m k l hj hm hbuffer
    by_cases hji : j = i <;> by_cases hmi : m = i
    · rw [hji, hmi]
    · subst hji
      obtain rfl := Option.some.inj (hself.symm.trans hj)
      rw [hother hmi] at hm
      exact absurd hbuffer.symm (hown hmi hm)
    · subst hmi
      obtain rfl := Option.some.inj (hself.symm.trans hm)
      rw [hother hji] at hj
      exact absurd hbuffer (hown hji hj)
    · rw [hother hji] at hj
      rw [hother hmi] at hm
      exact hk.apart j m k l hj hm hbuffer

/-! ### Requests -/

/-- A request about a tape is answered as its chronicle answers it. -/
theorem Kept.onTape (hk : Kept s A) (i : Nat) {f : Handle → Answer × Shelf}
    {g : Chronicle → Answer}
    (hfg : ∀ h t c, s.Holds h t → Shows t c → f h = (g c, s)) :
    s.onTape i f = (A.about i g, s) := by
  unfold Shelf.onTape
  rcases hk.cases i with ⟨hi, hc⟩ | ⟨h, t, c, hi, hh, hc, hshows⟩
  · rw [hi, Archive.about, hc]
    rfl
  · rw [hi, Archive.about_of_getElem? hc]
    exact hfg h t c hh hshows

/-- Requests that are there to find something out. -/
def Request.looks : Request → Bool
  | .create _ | .copy _ | .rebuild _ | .write .. => false
  | _ => true

/-- Looking changes nothing. -/
theorem Kept.look (hk : Kept s A) {r : Request} (hr : r.looks = true) :
    s.serve limit r = (A.answer limit r, s) := by
  cases r with
  | create | copy | rebuild | write => cases hr
  | read i a =>
    refine hk.onTape i fun h t c hh hshows => ?_
    cases a with
    | ofNat n =>
      have hn : ¬Int.ofNat n < 0 := Int.not_lt.mpr (Int.natCast_nonneg n)
      rw [if_neg hn]
      show (Answer.word (s.get h n), s) = _
      rw [hh.get_eq, hshows.get_eq]
      rfl
    | negSucc n =>
      rw [if_pos (Int.negSucc_lt_zero n)]
      rfl
  | size i => exact hk.onTape i fun h t c hh hshows => by rw [hh.size_eq, hshows.size_eq]
  | list i => exact hk.onTape i fun h t c hh hshows => by rw [hh.words_eq, hshows.toList_eq]
  | describe i => exact hk.onTape i fun h t c hh hshows => by rw [hh.size_eq, hshows.size_eq]
  | same i j =>
    refine hk.onTape i fun h t c hh hshows => hk.onTape j fun k u d hk' hother => ?_
    rw [hh.words_eq, hk'.words_eq, hshows.toList_eq, hother.toList_eq]
  | holds i vs =>
    refine hk.onTape i fun h t c hh hshows => ?_
    rw [hh.words_eq, hshows.toList_eq]

/-- A tape that looks like another one starts a chronicle of its own. -/
theorem Kept.renew (hk : Kept s A) (i : Nat) {f : Handle → Answer × Shelf}
    (hf : ∀ h t c, s.Holds h t → Shows t c →
      ∃ u : Tape, f h = s.add u.cells u.size ∧ Shows u ⟨c.contents, []⟩) :
    (s.onTape i f).1 = A.about i (fun _ => .tape A.length) ∧
      Kept (s.onTape i f).2 (A.renew i) := by
  unfold Shelf.onTape Archive.renew
  rcases hk.cases i with ⟨hi, hc⟩ | ⟨h, t, c, hi, hh, hc, hshows⟩
  · rw [hi, Archive.about, hc]
    exact ⟨rfl, hk⟩
  · rw [hi, hc, Archive.about_of_getElem? hc]
    obtain ⟨u, hu, hrenewed⟩ := hf h t c hh hshows
    show (f h).1 = _ ∧ Kept (f h).2 _
    rw [hu]
    exact hk.add hrenewed

theorem Kept.write (hk : Kept s A) (limit : Option Nat) (i : Nat) (a v : Int) :
    (s.serve limit (.write i a v)).1 = A.answer limit (.write i a v) ∧
      Kept (s.serve limit (.write i a v)).2 (A.next (.write i a v)) := by
  show (s.onTape i fun h => s.write limit i h v a).1 = A.about i _ ∧
    Kept (s.onTape i fun h => s.write limit i h v a).2 _
  unfold Shelf.onTape
  rcases hk.cases i with ⟨hi, hc⟩ | ⟨h, t, c, hi, hh, hc, hshows⟩
  · rw [hi, Archive.about, hc]
    refine ⟨rfl, ?_⟩
    cases a with
    | ofNat n =>
      -- there is no chronicle to note the value in
      have hnone : A.modify i (·.written n v) = A :=
        List.modify_eq_self (List.getElem?_eq_none_iff.mp hc)
      show Kept s (A.modify i (·.written n v))
      rw [hnone]
      exact hk
    | negSucc n => exact hk
  · rw [hi, Archive.about_of_getElem? hc]
    cases a with
    | ofNat n =>
      have hn : ¬Int.ofNat n < 0 := Int.not_lt.mpr (Int.natCast_nonneg n)
      rw [if_neg hn]
      obtain ⟨h', hrewritten, hholds⟩ := exists_put hi hh n v
      exact ⟨rfl, hk.replace (·.written n v) hi hrewritten hholds hc (hshows.set n v)⟩
    | negSucc n =>
      rw [if_pos (Int.negSucc_lt_zero n)]
      exact ⟨rfl, hk⟩

/-- One request: the shelf gives the answer of the archive, and its tapes still show their
    chronicles. -/
theorem Kept.serve (hk : Kept s A) (limit : Option Nat) (r : Request) :
    (s.serve limit r).1 = A.answer limit r ∧ Kept (s.serve limit r).2 (A.next r) := by
  have hlook (hr : r.looks = true) (hnext : A.next r = A) :
      (s.serve limit r).1 = A.answer limit r ∧ Kept (s.serve limit r).2 (A.next r) := by
    rw [hk.look hr, hnext]
    exact ⟨rfl, hk⟩
  cases r with
  | create program =>
    have hsize := Tape.size_ofList program
    have hadd := hk.add (shows_ofList program)
    rw [hsize] at hadd
    exact hadd
  | copy i =>
    refine hk.renew i fun h t c hh hshows => ⟨t.copy, ?_, hshows.copy⟩
    rw [hh.cells_eq, hh.size_eq, Tape.size_copy]
    rfl
  | rebuild i =>
    refine hk.renew i fun h t c hh hshows => ⟨.ofList t.toList, ?_, hshows.rebuild⟩
    rw [hh.words_eq, Tape.size_ofList]
    rfl
  | write i a v => exact hk.write limit i a v
  | read | size | list | describe | same | holds => exact hlook rfl rfl

/-- Any number of requests. -/
theorem Kept.serveAll (hk : Kept s A) (limit : Option Nat) (rs : List Request) :
    (s.serveAll limit rs).1 = A.answers limit rs ∧
      Kept (s.serveAll limit rs).2 (rs.foldl Archive.next A) := by
  induction rs generalizing s A with
  | nil => exact ⟨rfl, hk⟩
  | cons r rs ih =>
    obtain ⟨hanswer, hnext⟩ := hk.serve limit r
    obtain ⟨hanswers, hlast⟩ := ih hnext
    exact ⟨congrArg₂ List.cons hanswer hanswers, hlast⟩

/-- A write leaves all other tapes as they are, down to their spare cells. -/
theorem Kept.write_other (hk : Kept s A) {j : Nat} (hj : j ≠ i) (a v : Int) :
    (s.serve limit (.write i a v)).2.tapes[j]? = s.tapes[j]? ∧
      ∀ k, s.tapes[j]? = some k → (s.serve limit (.write i a v)).2.cells k = s.cells k := by
  show (s.onTape i fun h => s.write limit i h v a).2.tapes[j]? = _ ∧ ∀ k, _ →
    (s.onTape i fun h => s.write limit i h v a).2.cells k = _
  unfold Shelf.onTape
  rcases hk.cases i with ⟨hi, -⟩ | ⟨h, t, c, hi, hh, -⟩
  · rw [hi]
    exact ⟨rfl, fun _ _ => rfl⟩
  · rw [hi]
    cases a with
    | negSucc n => exact ⟨rfl, fun _ _ => rfl⟩
    | ofNat n =>
      obtain ⟨h', hr, -⟩ := exists_put hi hh n v
      show (s.put i h n v).tapes[j]? = _ ∧ ∀ k, _ → (s.put i h n v).cells k = _
      refine ⟨?_, ?_⟩
      · rw [hr.tapes_eq]
        exact Array.getElem?_setIfInBounds_ne (Ne.symm hj)
      · intro k hk'
        have hne : k.buffer ≠ h.buffer := fun hbuffer => hj (hk.apart j i k h hk' hi hbuffer)
        unfold Shelf.cells
        rw [Array.getD_eq_getD_getElem?, Array.getD_eq_getD_getElem?,
          hr.others _ (hk.lt hk') hne]

/-- A refused write leaves the whole shelf as it was. -/
theorem write_negative (s : Shelf) (i : Nat) {a : Int} (ha : a < 0) (v : Int) :
    (s.serve limit (.write i a v)).2 = s := by
  obtain ⟨n, rfl⟩ := Int.eq_negSucc_of_lt_zero ha
  show (s.onTape i fun h => s.write limit i h v (.negSucc n)).2 = s
  unfold Shelf.onTape
  cases s.tapes[i]? with
  | none => rfl
  | some h => rfl

end Shelf

end TapeNet
