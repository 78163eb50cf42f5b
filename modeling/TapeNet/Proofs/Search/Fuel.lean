import TapeNet.Machine

/-! # Computations with fuel

    A computation with fuel yields nothing if the fuel runs out. What counts
    is what it comes to when there is enough of it.

    - `ComesTo c r`: with enough fuel, `c` has the result `r`.
    - `Settles c`: more fuel does not change a result, so one run that stops
      says what `c` comes to (`Settles.comesTo`).
    - `ComesTo.bind` and `ComesTo.bind_error` are for two computations, one
      after the other, `ComesTo.findSome_append` is for a search through a list.
-/

namespace TapeNet

variable {ε ε' α β : Type}

/-- With enough fuel, a computation has this result. -/
def ComesTo (c : Nat → ExceptT ε Option α) (r : Except ε α) : Prop :=
  ∃ enough, ∀ fuel, enough ≤ fuel → (c fuel).run = some r

/-- More fuel does not change a result. -/
def Settles (c : Nat → ExceptT ε Option α) : Prop :=
  ∀ fuel extra r, (c fuel).run = some r → (c (fuel + extra)).run = some r

theorem Settles.comesTo {c : Nat → ExceptT ε Option α} (hc : Settles c) {fuel : Nat}
    {r : Except ε α} (h : (c fuel).run = some r) : ComesTo c r := by
  refine ⟨fuel, ?_⟩
  intro fuel' hle
  have hmore := hc fuel (fuel' - fuel) r h
  rwa [Nat.add_sub_cancel' hle] at hmore

theorem comesTo_const (r : Except ε α) : ComesTo (fun _ => ExceptT.mk (some r)) r :=
  ⟨0, fun _ _ => rfl⟩

/-! ### Results taken apart -/

/-- If two computations, one after the other, succeed, the first one does. -/
theorem exists_of_run_bind {x : ExceptT ε Option α} {g : α → ExceptT ε Option β} {b : β}
    (h : (x >>= g).run = some (.ok b)) : ∃ a, x.run = some (.ok a) ∧ (g a).run = some (.ok b) := by
  rw [ExceptT.run_bind] at h
  match hx : x.run with
  | none =>
    rw [hx] at h
    cases h
  | some (.error e) =>
    rw [hx] at h
    cases h
  | some (.ok a) =>
    rw [hx] at h
    exact ⟨a, rfl, h⟩

theorem run_of_run_adapt {x : ExceptT ε Option α} {g : ε → ε'} {a : α}
    (h : (x.adapt g).run = some (.ok a)) : x.run = some (.ok a) := by
  obtain ⟨r, hx, hr⟩ := Option.map_eq_some_iff.mp h
  match r with
  | .error e => cases hr
  | .ok a' =>
    cases hr
    exact hx

/-- What a search yields, something in the list has yielded. -/
theorem exists_of_findSome {g : α → ExceptT ε Option (Option β)} {l : List α} {b : β}
    (h : (l.findSomeM? g).run = some (.ok (some b))) :
    ∃ a ∈ l, (g a).run = some (.ok (some b)) := by
  induction l with
  | nil => cases h
  | cons a l ih =>
    rw [List.findSomeM?_cons] at h
    obtain ⟨found, ha, hrest⟩ := exists_of_run_bind h
    cases found with
    | some b' =>
      cases hrest
      exact ⟨a, List.mem_cons_self, ha⟩
    | none =>
      obtain ⟨a', ha', hb⟩ := ih hrest
      exact ⟨a', List.mem_cons_of_mem a ha', hb⟩

namespace ComesTo

variable {c : Nat → ExceptT ε Option α} {r r' : Except ε α}

/-- A computation comes to one result only. -/
theorem unique (h : ComesTo c r) (h' : ComesTo c r') : r = r' := by
  obtain ⟨n, hn⟩ := h
  obtain ⟨n', hn'⟩ := h'
  have hr := hn (n + n') (Nat.le_add_right n n')
  have hr' := hn' (n + n') (Nat.le_add_left n' n)
  exact Option.some.inj (hr.symm.trans hr')

/-! ### One computation after the other -/

theorem bind {f : Nat → α → ExceptT ε Option β} {a : α} {s : Except ε β} (h : ComesTo c (.ok a))
    (h' : ComesTo (fun fuel => f fuel a) s) : ComesTo (fun fuel => c fuel >>= f fuel) s := by
  obtain ⟨n, hn⟩ := h
  obtain ⟨n', hn'⟩ := h'
  refine ⟨n + n', ?_⟩
  intro fuel hle
  have hfirst := hn fuel (by omega)
  have hsecond := hn' fuel (by omega)
  rw [ExceptT.run_bind, hfirst]
  exact hsecond

theorem bind_error {f : Nat → α → ExceptT ε Option β} {e : ε} (h : ComesTo c (.error e)) :
    ComesTo (fun fuel => c fuel >>= f fuel) (.error e) := by
  obtain ⟨n, hn⟩ := h
  refine ⟨n, ?_⟩
  intro fuel hle
  rw [ExceptT.run_bind, hn fuel hle]
  rfl

theorem adapt (h : ComesTo c r) (g : ε → ε') :
    ComesTo (fun fuel => (c fuel).adapt g) (r.mapError g) := by
  obtain ⟨n, hn⟩ := h
  refine ⟨n, ?_⟩
  intro fuel hle
  show Except.mapError g <$> (c fuel).run = _
  rw [hn fuel hle]
  rfl

/-! ### Searches -/

variable {f : Nat → α → ExceptT ε Option (Option β)} {s : Except ε (Option β)}

/-- A search goes past what yields nothing. -/
theorem findSome_append {before after : List α}
    (hbefore : ∀ a ∈ before, ComesTo (f · a) (.ok none))
    (h : ComesTo (fun fuel => after.findSomeM? (f fuel)) s) :
    ComesTo (fun fuel => (before ++ after).findSomeM? (f fuel)) s := by
  induction before with
  | nil => exact h
  | cons a before ih =>
    have hrest := ih fun b hb => hbefore b (List.mem_cons_of_mem a hb)
    simp only [List.cons_append, List.findSomeM?_cons]
    exact (hbefore a List.mem_cons_self).bind hrest

/-- A search in vain goes through the whole list. -/
theorem findSome_none {l : List α} (h : ∀ a ∈ l, ComesTo (f · a) (.ok none)) :
    ComesTo (fun fuel => l.findSomeM? (f fuel)) (.ok none) := by
  have hnil : ComesTo (fun fuel => [].findSomeM? (f fuel)) (.ok none) := comesTo_const _
  have hall := findSome_append h hnil
  rwa [List.append_nil] at hall

/-- A search stops at the first thing that fails or yields something. -/
theorem findSome_cons {a : α} (after : List α) (h : ComesTo (f · a) s) (hs : s ≠ .ok none) :
    ComesTo (fun fuel => (a :: after).findSomeM? (f fuel)) s := by
  simp only [List.findSomeM?_cons]
  match s with
  | .error e => exact h.bind_error
  | .ok none => exact absurd rfl hs
  | .ok (some b) => exact h.bind (comesTo_const _)

end ComesTo

end TapeNet
