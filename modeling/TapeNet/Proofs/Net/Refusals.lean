import TapeNet.Proofs.Net.Launch
import TapeNet.Proofs.Net.Layout

/-! # Refused calls

    A network is used through calls: edits, which build it or set its limit,
    and runs. A call that fails is as good as not made.

    - `Answers` is what a call can answer and leave, `AnswersAll` the same for
      one call after the other. Only a run can end in several ways; what
      `Network.run` computes is one of them (`answers_of_run_eq_some`).
    - `Refuses`: the call fails, and whatever is called after it goes as if
      it had not been made. `FailsLike`: it goes as if another call had been
      made instead.
    - A connection that meets an unknown node fails like the connection to
      the nodes before that one (`failsLike_of_stopsAt`). Every other call
      that fails on a network that has not run is refused.
    - A network that has run refuses everything but a new limit
      (`refuses_of_started`).
-/

namespace TapeNet

namespace NetworkM

variable {α β : Type} {op : NetworkM α} {f : α → β} {net net' : Network} {e : NetworkError}

theorem on_pure (b : β) (net : Network) : on (pure b) net = (.ok b, net) := rfl

/-- What is made of the answer does not concern the network that is left, or a failure. -/
theorem on_bind_pure_snd : (on (op >>= fun a => pure (f a)) net).2 = (on op net).2 := by
  rw [on_bind]
  rcases on op net with ⟨e' | a, net₁⟩
  · rfl
  · rfl

theorem on_bind_pure_eq_error :
    on (op >>= fun a => pure (f a)) net = (.error e, net') ↔ on op net = (.error e, net') := by
  rw [on_bind]
  rcases on op net with ⟨e' | a, net₁⟩
  · simp
  · simp [on_pure]

end NetworkM

namespace Network

open NetworkM TapeNet.System

/-! ### Calls -/

/-- A call that builds a network, or sets its limit. -/
inductive Edit
  | addMachine (name : String) (program inputs : List Int)
  | feed (name : String) (values : List Int)
  | connect (source : String) (targets : List String)
  | addSink (source : String) (name : Option String)
  | setMaxWorkers (limit : Option Int)

/-- What an edit does. The answer to a new sink is its name. -/
def Edit.perform : Edit → NetworkM (Option String)
  | .addMachine name program inputs => do Network.addMachine name program inputs; pure none
  | .feed name values => do Network.feed name values; pure none
  | .connect source targets => do Network.connect source targets; pure none
  | .addSink source name => do
    let k ← Network.addSink source name
    pure (some k)
  | .setMaxWorkers limit => do
    modify fun net => net.setMaxWorkers limit
    pure none

/-- A call on a network. -/
inductive Call
  | edit (edit : Edit)
  | run

abbrev Answer := Except NetworkError (Option String)

/-- What a finished system can mean for the network's run: any of the faults may be the first
    that is noticed. -/
def Reports (s : System (Station ⊕ Relay)) (r : Answer) : Prop :=
  (faults s = [] ∧ r = .ok none) ∨ ∃ f ∈ faults s, r = .error (.fault f)

/-- What a call can answer, and the network it can leave. The workers of a run interleave in any
    way. -/
inductive Answers (net : Network) : Call → Answer → Network → Prop
  | edit {edit : Edit} {r : Answer} {net' : Network} (h : on edit.perform net = (r, net')) :
      Answers net (.edit edit) r net'
  | refused {e : NetworkError} (h : net.obstacle = some e) : Answers net .run (.error e) net
  | ran {s : System (Station ⊕ Relay)} {r : Answer} (h : net.obstacle = none)
      (hs : Reaches net.system s) (hf : s.finished = true) (hr : Reports s r) :
      Answers net .run r (({ net with started := true } : Network).settle s)

/-- What calls can answer one after the other, and the network they can leave. -/
inductive AnswersAll : Network → List Call → List Answer → Network → Prop
  | nil (net : Network) : AnswersAll net [] [] net
  | cons {net net' last : Network} {c : Call} {r : Answer} {calls : List Call}
      {answers : List Answer} (h : net.Answers c r net') (h' : AnswersAll net' calls answers last) :
      AnswersAll net (c :: calls) (r :: answers) last

/-- The run of a network is one of its answers. -/
theorem answers_of_run_eq_some {net net' : Network} {fuel : Nat} {r : Except NetworkError Unit}
    (h : net.run fuel = some (r, net')) : net.Answers .run (r.map fun _ => none) net' := by
  cases hobstacle : net.obstacle with
  | some e =>
    rw [Network.run, hobstacle] at h
    obtain ⟨rfl, rfl⟩ := Prod.mk.inj (Option.some.inj h)
    exact .refused hobstacle
  | none =>
    obtain ⟨s, hs, hf, rfl, rfl⟩ := reaches_of_run_eq_some hobstacle h
    apply Answers.ran hobstacle hs hf
    unfold verdict
    cases hfaults : faults s with
    | nil => exact .inl ⟨hfaults, rfl⟩
    | cons f rest => exact .inr ⟨f, by simp [hfaults], rfl⟩

variable {net net' last : Network} {c c' : Call} {r : Answer} {e : NetworkError}

theorem answers_edit {edit : Edit} :
    net.Answers (.edit edit) r net' ↔ on edit.perform net = (r, net') := by
  constructor
  · intro h
    cases h with
    | edit h => exact h
  · exact .edit

theorem answersAll_cons {calls : List Call} {answers : List Answer} :
    net.AnswersAll (c :: calls) answers last ↔
      ∃ r net' rest, answers = r :: rest ∧ net.Answers c r net' ∧
        net'.AnswersAll calls rest last := by
  constructor
  · intro h
    cases h with
    | cons h h' => exact ⟨_, _, _, rfl, h, h'⟩
  · intro ⟨r, net', rest, heq, h, h'⟩
    rw [heq]
    exact .cons h h'

/-! ### Calls that fail -/

/-- The call fails, and whatever is called after it goes as if it had not been made. -/
structure Refuses (net : Network) (c : Call) (e : NetworkError) : Prop where
  answers_iff : ∀ r net', net.Answers c r net' ↔ r = .error e ∧ net' = net
  answersAll_iff : ∀ calls answers last, net.AnswersAll (c :: calls) answers last ↔
    ∃ rest, answers = .error e :: rest ∧ net.AnswersAll calls rest last

/-- The call fails, and whatever is called after it goes as if another call had been made, which
    succeeds. -/
structure FailsLike (net : Network) (c c' : Call) (e : NetworkError) : Prop where
  answers_iff : ∀ r net', net.Answers c r net' ↔ r = .error e ∧ net.Answers c' (.ok none) net'
  answersAll_iff : ∀ calls answers last, net.AnswersAll (c :: calls) answers last ↔
    ∃ rest, answers = .error e :: rest ∧ net.AnswersAll (c' :: calls) (.ok none :: rest) last

theorem refuses_of_answers_iff
    (h : ∀ r net', net.Answers c r net' ↔ r = .error e ∧ net' = net) : net.Refuses c e := by
  refine ⟨h, ?_⟩
  intro calls answers last
  rw [answersAll_cons]
  constructor
  · intro ⟨r, net', rest, hanswers, hc, hrest⟩
    obtain ⟨rfl, rfl⟩ := (h r net').mp hc
    exact ⟨rest, hanswers, hrest⟩
  · intro ⟨rest, hanswers, hrest⟩
    exact ⟨_, net, rest, hanswers, (h _ _).mpr ⟨rfl, rfl⟩, hrest⟩

theorem failsLike_of_answers_iff
    (h : ∀ r net', net.Answers c r net' ↔ r = .error e ∧ net.Answers c' (.ok none) net') :
    net.FailsLike c c' e := by
  refine ⟨h, ?_⟩
  intro calls answers last
  rw [answersAll_cons]
  constructor
  · intro ⟨r, net', rest, hanswers, hc, hrest⟩
    obtain ⟨rfl, hc'⟩ := (h r net').mp hc
    exact ⟨rest, hanswers, .cons hc' hrest⟩
  · intro ⟨rest, hanswers, hall⟩
    obtain ⟨r, net', rest', heq, hc', hrest⟩ := answersAll_cons.mp hall
    obtain ⟨rfl, rfl⟩ := List.cons.inj heq
    exact ⟨_, net', rest, hanswers, (h _ _).mpr ⟨rfl, hc'⟩, hrest⟩

/-- An edit that fails without a change is refused. -/
theorem refuses_of_on {edit : Edit} (h : on edit.perform net = (.error e, net)) :
    net.Refuses (.edit edit) e := by
  apply refuses_of_answers_iff
  intro r net'
  rw [answers_edit, h, Prod.mk.injEq, eq_comm, eq_comm (a := net)]

/-- An edit that fails and leaves what another leaves fails like that one. -/
theorem failsLike_of_on {edit edit' : Edit} (h : on edit.perform net = (.error e, net'))
    (h' : on edit'.perform net = (.ok none, net')) :
    net.FailsLike (.edit edit) (.edit edit') e := by
  apply failsLike_of_answers_iff
  intro r net₁
  rw [answers_edit, answers_edit, h, h', Prod.mk.injEq, Prod.mk.injEq, eq_comm]
  simp

/-- A run that something forbids is refused. -/
theorem refuses_run (h : net.obstacle = some e) : net.Refuses .run e := by
  apply refuses_of_answers_iff
  intro r net'
  constructor
  · intro hanswers
    cases hanswers with
    | refused h' =>
      rw [h] at h'
      obtain rfl := Option.some.inj h'
      exact ⟨rfl, rfl⟩
    | ran h' =>
      rw [h] at h'
      cases h'
  · intro ⟨hr, hnet⟩
    rw [hr, hnet]
    exact .refused h

/-! ### Operations that fail -/

/-- The operation changes nothing if it fails, and no machine is at fault. -/
def Guarded {α : Type} (op : NetworkM α) : Prop :=
  ∀ net e net', on op net = (.error e, net') → net' = net ∧ ∀ f, e ≠ .fault f

theorem Guarded.bind_pure {α β : Type} {op : NetworkM α} (h : Guarded op) (f : α → β) :
    Guarded (op >>= fun a => pure (f a)) := by
  intro net e net' hon
  exact h net e net' (on_bind_pure_eq_error.mp hon)

theorem guarded_addMachine (name : String) (program inputs : List Int) :
    Guarded (addMachine name program inputs) := by
  intro net e net' h
  rw [on_addMachine] at h
  split at h
  · cases h
    simp
  · split at h
    · cases h
      simp
    · cases h

theorem guarded_feed (name : String) (values : List Int) : Guarded (feed name values) := by
  intro net e net' h
  rw [on_feed] at h
  split at h
  · cases h
    simp
  · split at h
    · cases h
    · cases h
      simp

theorem guarded_addSink (source : String) (name : Option String) :
    Guarded (addSink source name) := by
  intro net e net' h
  rw [on_addSink] at h
  split at h
  · cases h
    simp
  · split at h
    · cases h
      simp
    · split at h
      · cases h
      · cases h
        simp

/-! ### Connections -/

/-- Whether a network has a node of that name. -/
def Has (net : Network) (name : String) : Prop := ∃ n ∈ net.nodes, n.name = name

instance (net : Network) (name : String) : Decidable (net.Has name) :=
  inferInstanceAs (Decidable (∃ n ∈ net.nodes, n.name = name))

theorem node?_eq_none_iff {name : String} : net.node? name = none ↔ ¬net.Has name := by
  rw [node?_eq_none, Has]
  simp

theorem exists_node? {name : String} (h : net.Has name) : ∃ n, net.node? name = some n := by
  cases hn : net.node? name with
  | none => exact absurd h (node?_eq_none_iff.mp hn)
  | some n => exact ⟨n, rfl⟩

theorem has_iff_sites {name : String} : net.Has name ↔ ∃ x ∈ net.sites, x.name = name := by
  simp [Has, sites, site]

/-- A connection to a node that exists succeeds, and all nodes stay. -/
theorem on_connectTo_of_has (W : Wiring net) {source target : String} (hs : net.Has source)
    (ht : net.Has target) :
    ∃ net', on (connectTo source target) net = (.ok (), net') ∧ Nonempty (Wiring net') ∧
      ∀ name, net'.Has name ↔ net.Has name := by
  obtain ⟨x, hx, hname⟩ := has_iff_sites.mp ht
  obtain ⟨net', hon, hwired, hsites, -⟩ :=
    W.connectTo_of_mem (has_iff_sites.mp hs) ⟨x, hx, hname, rfl⟩
  refine ⟨net', hon, hwired, ?_⟩
  intro name
  simp [has_iff_sites, hsites]

theorem on_connectAll_of_has (W : Wiring net) {source : String} (hs : net.Has source)
    {targets : List String} (ht : ∀ t ∈ targets, net.Has t) :
    ∃ net', on (connectAll source targets) net = (.ok (), net') ∧
      ∀ name, net'.Has name ↔ net.Has name := by
  -- by induction on the targets; nodes stay, so the targets that are left still exist
  induction targets generalizing net with
  | nil => exact ⟨net, rfl, fun _ => Iff.rfl⟩
  | cons target targets ih =>
    obtain ⟨hfirst, hrest⟩ := List.forall_mem_cons.mp ht
    obtain ⟨net₁, hon, ⟨W₁⟩, hhas⟩ := on_connectTo_of_has W hs hfirst
    obtain ⟨net₂, hon₂, hhas₂⟩ :=
      ih W₁ ((hhas source).mpr hs) fun t h => (hhas t).mpr (hrest t h)
    refine ⟨net₂, ?_, ?_⟩
    · rw [on_connectAll_cons, on_bind_of_ok hon, hon₂]
    · intro name
      rw [hhas₂, hhas]

theorem on_connectAll_append {source : String} {before after : List String}
    (h : on (connectAll source before) net = (.ok (), net')) :
    on (connectAll source (before ++ after)) net = on (connectAll source after) net' := by
  induction before generalizing net with
  | nil =>
    obtain ⟨-, rfl⟩ := Prod.mk.inj h
    rfl
  | cons target before ih =>
    rw [on_connectAll_cons, on_bind] at h
    rw [List.cons_append, on_connectAll_cons, on_bind]
    rcases hon : on (connectTo source target) net with ⟨e | u, net₁⟩
    · rw [hon] at h
      cases h
    · rw [hon] at h
      exact ih h

/-- Connecting up to a node that does not exist leaves what connecting to the nodes before it
    leaves. -/
theorem on_connectAll_unknown (W : Wiring net) {source target : String} {before : List String}
    (hs : net.Has source) (hbefore : ∀ t ∈ before, net.Has t) (ht : ¬net.Has target)
    (later : List String) :
    ∃ net', on (connectAll source before) net = (.ok (), net') ∧
      on (connectAll source (before ++ target :: later)) net =
        (.error (.unknownNode target), net') := by
  obtain ⟨net', hon, hhas⟩ := on_connectAll_of_has W hs hbefore
  refine ⟨net', hon, ?_⟩
  have hnone : net'.node? target = none := by rwa [node?_eq_none_iff, hhas]
  rw [on_connectAll_append hon, on_connectAll_cons, on_bind, on_connectTo_of_none hnone]

/-- Connections that fail meet a node that does not exist; the targets before it stay connected. -/
theorem exists_unknown_of_connectAll (W : Wiring net) {source : String} {targets : List String}
    (hs : net.Has source) (h : on (connectAll source targets) net = (.error e, net')) :
    ∃ before target later, targets = before ++ target :: later ∧ (∀ t ∈ before, net.Has t) ∧
      ¬net.Has target ∧ e = .unknownNode target ∧
      on (connectAll source before) net = (.ok (), net') := by
  cases hfind : targets.find? fun t => ¬net.Has t with
  | none =>
    have hall : ∀ t ∈ targets, net.Has t := by simpa using hfind
    obtain ⟨net₁, hon, -⟩ := on_connectAll_of_has W hs hall
    rw [hon] at h
    cases h
  | some target =>
    obtain ⟨hnot, before, later, rfl, hfirst⟩ := List.find?_eq_some_iff_append.mp hfind
    have ht : ¬net.Has target := by simpa using hnot
    have hbefore : ∀ t ∈ before, net.Has t := by simpa using hfirst
    obtain ⟨net₁, hon, hall⟩ := on_connectAll_unknown W hs hbefore ht later
    rw [hall] at h
    cases h
    exact ⟨before, target, later, rfl, hbefore, ht, rfl, hon⟩

theorem on_connect_of_has {source : String} {targets : List String}
    (hstarted : net.started = false) (hs : net.Has source) (hne : targets ≠ []) :
    on (connect source targets) net = on (connectAll source targets) net := by
  obtain ⟨n, hn⟩ := exists_node? hs
  obtain ⟨-, rfl⟩ := mem_of_node? hn
  have hempty : targets.isEmpty = false := by simpa using hne
  rw [on_connect, hstarted, hempty, hn]
  rfl

/-- The call connects a node to others, the first of which exist, and then to one that does
    not. -/
structure StopsAt (net : Network) (c : Call) (source : String) (before : List String)
    (target : String) : Prop where
  call_eq : ∃ later, c = .edit (.connect source (before ++ target :: later))
  not_started : net.started = false
  has_source : net.Has source
  before_ne_nil : before ≠ []
  has_before : ∀ t ∈ before, net.Has t
  not_has_target : ¬net.Has target

/-- Connecting up to a node that does not exist fails like connecting to the nodes before it. -/
theorem failsLike_of_stopsAt (W : Wiring net) {source target : String} {before : List String}
    (h : net.StopsAt c source before target) :
    net.FailsLike c (.edit (.connect source before)) (.unknownNode target) := by
  obtain ⟨⟨later, rfl⟩, hstarted, hs, hne, hbefore, ht⟩ := h
  obtain ⟨net', hon, hall⟩ := on_connectAll_unknown W hs hbefore ht later
  rw [← on_connect_of_has hstarted hs hne] at hon
  rw [← on_connect_of_has hstarted hs (by simp)] at hall
  exact failsLike_of_on (on_bind_pure_eq_error.mpr hall) (on_bind_of_ok hon)

/-- A connection that fails and does not stop past its first target changes nothing. -/
theorem connect_refused (W : Wiring net) {source : String} {targets : List String}
    (h : on (connect source targets) net = (.error e, net'))
    (hstops : ∀ source' before target,
      ¬net.StopsAt (.edit (.connect source targets)) source' before target) :
    net' = net ∧ ∀ f, e ≠ .fault f := by
  have hstarted := W.not_started
  by_cases hne : targets = []
  · rw [on_connect, hstarted, hne] at h
    cases h
    simp
  by_cases hs : net.Has source
  · rw [on_connect_of_has hstarted hs hne] at h
    obtain ⟨before, target, later, rfl, hbefore, ht, rfl, hon⟩ :=
      exists_unknown_of_connectAll W hs h
    -- with targets before the unknown one the connection would stop past its first target
    have hnil : before = [] := by
      by_contra hne'
      exact hstops source before target ⟨⟨later, rfl⟩, hstarted, hs, hne', hbefore, ht⟩
    rw [hnil] at hon
    obtain ⟨-, rfl⟩ := Prod.mk.inj hon
    simp
  · rw [on_connect, hstarted, node?_eq_none_iff.mpr hs] at h
    have hempty : targets.isEmpty = false := by simpa using hne
    rw [hempty] at h
    cases h
    simp

/-! ### Networks that calls leave -/

/-- A new limit does not concern the wiring. -/
def Wiring.setMaxWorkers (W : Wiring net) (limit : Option Int) :
    Wiring (net.setMaxWorkers limit) := { W with }

/-- A network that has run refuses everything but a new limit. -/
theorem refuses_of_started (hstarted : net.started = true)
    (hc : ∀ limit, c ≠ .edit (.setMaxWorkers limit)) : net.Refuses c .alreadyRun := by
  cases c with
  | run =>
    apply refuses_run
    rw [obstacle, if_pos hstarted]
  | edit edit =>
    apply refuses_of_on
    cases edit with
    | addMachine name program inputs =>
      apply on_bind_pure_eq_error.mpr
      rw [on_addMachine, if_pos hstarted]
    | feed name values =>
      apply on_bind_pure_eq_error.mpr
      rw [on_feed, if_pos hstarted]
    | connect source targets =>
      apply on_bind_pure_eq_error.mpr
      rw [on_connect, if_pos hstarted]
    | addSink source name =>
      apply on_bind_pure_eq_error.mpr
      rw [on_addSink, if_pos hstarted]
    | setMaxWorkers limit => exact absurd rfl (hc limit)

/-- A network that has run stays one. -/
theorem started_of_answers (h : net.Answers c r net') (hstarted : net.started = true) :
    net'.started = true := by
  by_cases hc : ∃ limit, c = .edit (.setMaxWorkers limit)
  · obtain ⟨limit, rfl⟩ := hc
    obtain ⟨-, rfl⟩ := Prod.mk.inj (answers_edit.mp h)
    exact hstarted
  · have hrefuses := refuses_of_started hstarted fun limit heq => hc ⟨limit, heq⟩
    obtain ⟨-, rfl⟩ := (hrefuses.answers_iff r net').mp h
    exact hstarted

theorem wiring_perform (W : Wiring net) (edit : Edit) :
    Nonempty (Wiring (on edit.perform net).2) := by
  cases edit with
  | addMachine name program inputs =>
    rw [Edit.perform, on_bind_pure_snd]
    exact wiring_addMachine W name program inputs
  | feed name values =>
    rw [Edit.perform, on_bind_pure_snd]
    exact wiring_feed W name values
  | connect source targets =>
    rw [Edit.perform, on_bind_pure_snd]
    exact wiring_connect W source targets
  | addSink source name =>
    rw [Edit.perform, on_bind_pure_snd]
    exact wiring_addSink W source name
  | setMaxWorkers limit => exact ⟨W.setMaxWorkers limit⟩

/-- A network that has run, or is wired, is so after each call. -/
theorem started_or_wired_of_answers (h : net.Answers c r net')
    (hnet : net.started = true ∨ Nonempty (Wiring net)) :
    net'.started = true ∨ Nonempty (Wiring net') := by
  obtain hstarted | hwired := hnet
  · exact .inl (started_of_answers h hstarted)
  cases h with
  | edit h =>
    obtain ⟨W⟩ := hwired
    obtain rfl := congrArg Prod.snd h
    exact .inr (wiring_perform W _)
  | refused => exact .inr hwired
  | ran => exact .inl rfl

theorem started_of_answersAll {calls : List Call} {answers : List Answer}
    (h : net.AnswersAll calls answers last) (hstarted : net.started = true) :
    last.started = true := by
  induction h with
  | nil => exact hstarted
  | cons h _ ih => exact ih (started_of_answers h hstarted)

theorem started_or_wired_of_answersAll {calls : List Call} {answers : List Answer}
    (h : net.AnswersAll calls answers last)
    (hnet : net.started = true ∨ Nonempty (Wiring net)) :
    last.started = true ∨ Nonempty (Wiring last) := by
  induction h with
  | nil => exact hnet
  | cons h _ ih => exact ih (started_or_wired_of_answers h hnet)

/-! ### Calls that fail, and calls after a run -/

theorem obstacle_ne_fault (h : net.obstacle = some e) (f : Fault) : e ≠ .fault f := by
  unfold obstacle at h
  split at h
  · cases h
    simp
  · split at h
    · cases h
      simp
    · split at h
      · cases h
        simp
      · cases h

/-- A call that fails on a wired network, and does not stop past the first target of a connection,
    is refused. -/
theorem refuses_of_wiring (W : Wiring net) (h : net.Answers c (.error e) net')
    (hrun : c = .run → net.obstacle ≠ none)
    (hstops : ∀ source before target, ¬net.StopsAt c source before target) :
    net.Refuses c e ∧ ∀ f, e ≠ .fault f := by
  cases h with
  | refused h => exact ⟨refuses_run h, obstacle_ne_fault h⟩
  | ran h => exact absurd h (hrun rfl)
  | @edit edit _ _ h =>
    have hsame : net' = net ∧ ∀ f, e ≠ .fault f := by
      cases edit with
      | addMachine name program inputs =>
        exact (guarded_addMachine name program inputs).bind_pure _ net e net' h
      | feed name values => exact (guarded_feed name values).bind_pure _ net e net' h
      | connect source targets => exact connect_refused W (on_bind_pure_eq_error.mp h) hstops
      | addSink source name => exact (guarded_addSink source name).bind_pure _ net e net' h
      | setMaxWorkers limit => cases h
    obtain ⟨rfl, hfault⟩ := hsame
    exact ⟨refuses_of_on h, hfault⟩

/-- A call that fails on a network that has run is refused. -/
theorem refuses_of_error_of_started (hstarted : net.started = true)
    (h : net.Answers c (.error e) net') : net.Refuses c e ∧ ∀ f, e ≠ .fault f := by
  have hc : ∀ limit, c ≠ .edit (.setMaxWorkers limit) := by
    intro limit heq
    rw [heq, answers_edit] at h
    cases h
  have hrefuses := refuses_of_started hstarted hc
  obtain ⟨heq, -⟩ := (hrefuses.answers_iff _ _).mp h
  obtain rfl := Except.error.inj heq
  refine ⟨hrefuses, ?_⟩
  simp

/-- The first run that is accepted starts the network. -/
theorem started_of_run (hfree : net.obstacle = none) (h : net.Answers .run r net') :
    net'.started = true := by
  cases h with
  | refused hsome =>
    rw [hfree] at hsome
    cases hsome
  | ran => rfl

/-- Failed calls leave a network runnable as it was. After any calls on an empty network, a call
    that fails is refused: it changes nothing, and all calls after it go as without it. Only a
    connection that stops past its first target does something, which is what the connection to
    the targets before the unknown one does. Once a run is accepted, whatever it answers, the
    network refuses everything but a new limit. -/
theorem failed_calls_unfelt {limit : Option Int} {calls : List Call} {answers : List Answer}
    {net : Network} (h : (empty limit).AnswersAll calls answers net) :
    (∀ c e net', net.Answers c (.error e) net' → (c = .run → net.obstacle ≠ none) →
      (∀ f, e ≠ .fault f) ∧
      (∀ source before target, net.StopsAt c source before target →
        e = .unknownNode target ∧ net.FailsLike c (.edit (.connect source before)) e) ∧
      ((∀ source before target, ¬net.StopsAt c source before target) → net.Refuses c e)) ∧
    (net.obstacle = none → ∀ r net₁ after rest net₂, net.Answers .run r net₁ →
      net₁.AnswersAll after rest net₂ →
        ∀ c, (∀ limit, c ≠ .edit (.setMaxWorkers limit)) → net₂.Refuses c .alreadyRun) := by
  have hnet := started_or_wired_of_answersAll h (.inr ⟨.empty limit⟩)
  constructor
  · intro c e net' hc hrun
    have hstop : ∀ source before target, net.StopsAt c source before target →
        e = .unknownNode target ∧ net.FailsLike c (.edit (.connect source before)) e := by
      intro source before target hstop
      -- a network that has run refuses connections outright, so this one is wired
      obtain ⟨W⟩ := hnet.resolve_left (by simp [hstop.not_started])
      have hlike := failsLike_of_stopsAt W hstop
      obtain ⟨heq, -⟩ := (hlike.answers_iff _ _).mp hc
      obtain rfl := Except.error.inj heq
      exact ⟨rfl, hlike⟩
    have hrefused : (∀ source before target, ¬net.StopsAt c source before target) →
        net.Refuses c e ∧ ∀ f, e ≠ .fault f := by
      intro hnone
      obtain hstarted | ⟨⟨W⟩⟩ := hnet
      · exact refuses_of_error_of_started hstarted hc
      · exact refuses_of_wiring W hc hrun hnone
    refine ⟨?_, hstop, fun hnone => (hrefused hnone).1⟩
    by_cases hstops : ∃ source before target, net.StopsAt c source before target
    · obtain ⟨source, before, target, hstops⟩ := hstops
      obtain ⟨rfl, -⟩ := hstop source before target hstops
      simp
    · simp only [not_exists] at hstops
      exact (hrefused hstops).2
  · intro hfree r net₁ after rest net₂ hrun hafter c hc
    have hstarted := started_of_run hfree hrun
    exact refuses_of_started (started_of_answersAll hafter hstarted) hc

/-- A single machine, which gives a value and then meets a word that is no instruction. -/
def lone : Network := (on (addMachine "a" [104, 1, 98] []) (.empty none)).2

/-- Its name is taken, a connection to it and to an unknown node is a connection to it, and once
    it has failed nothing runs. -/
theorem lone_unfelt :
    (empty none).AnswersAll [.edit (.addMachine "a" [104, 1, 98] [])] [.ok none] lone ∧
      lone.Refuses (.edit (.addMachine "a" [99] [])) (.duplicateNode "a") ∧
      lone.FailsLike (.edit (.connect "a" ["a", "b"])) (.edit (.connect "a" ["a"]))
        (.unknownNode "b") ∧
      ∃ net, lone.Answers .run (.error (.fault (.decode ⟨98, .unknownOpcode 98⟩))) net ∧
        net.Refuses .run .alreadyRun := by
  have hbuilt : (empty none).AnswersAll [.edit (.addMachine "a" [104, 1, 98] [])] [.ok none] lone :=
    .cons (.edit rfl) (.nil _)
  obtain ⟨hfailed, hran⟩ := failed_calls_unfelt hbuilt
  refine ⟨hbuilt, ?_, ?_, ?_⟩
  · have hedit : on (Edit.addMachine "a" [99] []).perform lone =
        (.error (.duplicateNode "a"), lone) := rfl
    obtain ⟨-, -, hrefuses⟩ := hfailed _ _ _ (.edit hedit) nofun
    apply hrefuses
    intro source before target hstops
    obtain ⟨later, heq⟩ := hstops.call_eq
    cases heq
  · have hstops : lone.StopsAt (.edit (.connect "a" ["a", "b"])) "a" ["a"] "b" :=
      ⟨⟨[], rfl⟩, rfl, by decide, by decide, by decide, by decide⟩
    have hedit : on (Edit.connect "a" ["a", "b"]).perform lone =
        (.error (.unknownNode "b"), (on (Edit.connect "a" ["a"]).perform lone).2) := rfl
    obtain ⟨-, hlike, -⟩ := hfailed _ _ _ (.edit hedit) nofun
    exact (hlike "a" ["a"] "b" hstops).2
  · have hfinished : (lone.system.follow (List.replicate 8 [0, 1]).flatten).finished = true := by
      decide +kernel
    have hfault : Fault.decode ⟨98, .unknownOpcode 98⟩ ∈
        faults (lone.system.follow (List.replicate 8 [0, 1]).flatten) := by
      decide +kernel
    have hrun : lone.Answers .run (.error (.fault (.decode ⟨98, .unknownOpcode 98⟩))) _ :=
      .ran rfl (reaches_follow _ _) hfinished (.inr ⟨_, hfault, rfl⟩)
    exact ⟨_, hrun, hran rfl _ _ [] [] _ hrun (.nil _) .run nofun⟩

end Network

end TapeNet
