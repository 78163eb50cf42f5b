import TapeNet.Amplifier
import TapeNet.Proofs.Net.Line
import TapeNet.Proofs.Net.Standalone

/-! # The layout of a circuit

    A circuit is a line of copies of one program, and in a feedback loop the
    last copy feeds the first one, too.

    - `before` is the place before a place; the last one is before the first.
    - `signals` is what an amplifier gets after its phase: the first one gets
      the signal and then, in a loop, what the last one gave.
    - `feeds_circuit_iff` and `supply_circuit`: who feeds an amplifier, and
      what with.
    - `Wiring.queue_of_circuit`: the sink holds what the last one gave.
    - `exists_of_run`: the answer of a circuit's run is the last value in the
      sink, in one of the interleavings.
-/

namespace TapeNet

namespace Network

open History Process Machine TapeNet.System Amplifier

variable {net : Network} {s : System (Station ⊕ Relay)} {log : List Exchange} {loop : Bool}
  {program phases : List Int} {signal : Int} {i : Nat} {p : Int}

/-- The programs of a circuit and their preloads. -/
def circuitPairs (program phases : List Int) (signal : Int) : List (List Int × List Int) :=
  (phases.map fun _ => program).zip (preloads signal phases)

/-- The layout of a circuit. -/
def circuitSites (loop : Bool) (program phases : List Int) (signal : Int) : List Site :=
  lineSites (lineExits loop (circuitPairs program phases signal).length)
    (circuitPairs program phases signal)

/-- The place before a place of a circuit of `n` nodes. -/
def before (n : Nat) : Nat → Nat
  | 0 => n - 1
  | i + 1 => i

/-- What an amplifier gets after its phase if the amplifiers give `out`. -/
def signals (loop : Bool) (n : Nat) (signal : Int) (out : Nat → List Int) : Nat → List Int
  | 0 => signal :: cond loop (out (n - 1)) []
  | i + 1 => out i

theorem length_preloads (signal : Int) (phases : List Int) :
    (preloads signal phases).length = phases.length := by
  cases phases with
  | nil => rfl
  | cons phase phases => simp [preloads]

/-- There is a preload for every copy of the program. -/
theorem length_preloads_getD (program : List Int) (signal : Int) (phases : List Int) :
    ((some (preloads signal phases)).getD
      ((phases.map fun _ => program).map fun _ => [])).length =
      (phases.map fun _ => program).length := by
  rw [Option.getD_some, length_preloads, List.length_map]

theorem length_circuitPairs (program phases : List Int) (signal : Int) :
    (circuitPairs program phases signal).length = phases.length := by
  rw [circuitPairs, List.length_zip, length_preloads, List.length_map, Nat.min_self]

theorem getElem?_circuitPairs (program : List Int) (signal : Int) (hp : phases[i]? = some p) :
    (circuitPairs program phases signal)[i]? =
      some (program, if i = 0 then [p, signal] else [p]) := by
  have hprogram : (phases.map fun _ => program)[i]? = some program := by
    rw [List.getElem?_map, hp]
    rfl
  refine List.getElem?_zip_eq_some.mpr ⟨hprogram, ?_⟩
  cases phases with
  | nil => cases hp
  | cons phase phases =>
    cases i with
    | zero =>
      obtain rfl := Option.some.inj hp
      rfl
    | succ i =>
      have hmap : (phases.map ([·]))[i]? = some [p] := by
        rw [List.getElem?_map, show phases[i]? = some p from hp]
        rfl
      exact hmap

/-- An amplifier as a node. -/
theorem exists_amplifier (hsites : net.sites = circuitSites loop program phases signal)
    (hp : phases[i]? = some p) :
    ∃ m x, net.nodes[i]? = some m ∧ net.sites[i]? = some x ∧
      m.machine = .load { name := lineName i } program ∧
      m.preload = (if i = 0 then [p, signal] else [p]) ∧ m.inbox = 2 * i ∧
      x.exits = lineExits loop phases.length i := by
  obtain ⟨m, x, hm, hx, hload, hpreload, hinbox, hexits⟩ :=
    exists_stage hsites (getElem?_circuitPairs program signal hp)
  rw [length_circuitPairs] at hexits
  exact ⟨m, x, hm, hx, hload, hpreload, hinbox, hexits⟩

theorem length_nodes_circuit (hsites : net.sites = circuitSites loop program phases signal) :
    net.nodes.length = phases.length := by
  have hlen := congrArg List.length hsites
  rwa [sites, List.length_map, circuitSites, length_lineSites, length_circuitPairs] at hlen

/-- Every amplifier is fed by the one before it, but for the first one of a chain. -/
theorem feeds_circuit_iff (hsites : net.sites = circuitSites loop program phases signal) {k : Nat}
    (hi : i < phases.length) :
    net.Feeds k i ↔ k = before phases.length i ∧ (i = 0 → loop = true) := by
  rw [feeds_iff_of_lineSites hsites, length_circuitPairs]
  cases i with
  | zero =>
    show _ ↔ k = phases.length - 1 ∧ _
    constructor
    · rintro ⟨hk, -, hnext | ⟨hloop, hlast, -⟩⟩
      · omega
      · exact ⟨by omega, fun _ => hloop⟩
    · rintro ⟨hk, hloop⟩
      exact ⟨by omega, hi, .inr ⟨hloop rfl, by omega, rfl⟩⟩
  | succ i =>
    show _ ↔ k = i ∧ _
    constructor
    · rintro ⟨hk, -, hnext | ⟨-, -, hfirst⟩⟩
      · exact ⟨by omega, by omega⟩
      · omega
    · rintro ⟨rfl, -⟩
      exact ⟨by omega, hi, .inl rfl⟩

/-- What an amplifier is supplied with: its phase and its signals. -/
theorem supply_circuit (hsites : net.sites = circuitSites loop program phases signal)
    (hp : phases[i]? = some p) (out : Nat → List Int) :
    net.supply out (before phases.length i) i = p :: signals loop phases.length signal out i := by
  obtain ⟨hi, -⟩ := List.getElem?_eq_some_iff.mp hp
  obtain ⟨m, -, hm, -, -, hpreload, hinbox, -⟩ := exists_amplifier hsites hp
  cases i with
  | zero =>
    cases loop with
    | false =>
      have hnone : ¬net.Feeds (before phases.length 0) 0 := by
        intro hfeeds
        cases ((feeds_circuit_iff hsites hi).mp hfeeds).2 rfl
      rw [supply_of_no_source hm hnone, hpreload]
      rfl
    | true =>
      have hlast : phases.length - 1 < phases.length := by omega
      obtain ⟨-, x, -, hx, -, -, -, hexits⟩ :=
        exists_amplifier hsites (List.getElem?_eq_getElem hlast)
      have hcount : x.exits.count m.inbox = 1 := by
        rw [hexits, hinbox]
        exact count_lineExits_first (by omega)
      rw [before, supply_of_exit hm hx hcount, hpreload]
      rfl
  | succ i =>
    have hlt : i < phases.length := by omega
    obtain ⟨-, x, -, hx, -, -, -, hexits⟩ :=
      exists_amplifier hsites (List.getElem?_eq_getElem hlt)
    have hcount : x.exits.count m.inbox = 1 := by
      rw [hexits, hinbox]
      exact count_lineExits_next hlt
    rw [before, supply_of_exit hm hx hcount, hpreload]
    rfl

/-- The layout of a circuit that was built. -/
theorem on_circuit (loop : Bool) (program : List Int) (hne : phases ≠ []) (signal : Int)
    (maxWorkers : Option Int) :
    ∃ net, (line loop (phases.map fun _ => program) (some (preloads signal phases))).on
        (.empty maxWorkers) = (.ok "output", net) ∧ net.Built ∧
      net.sinks = [⟨"output", 2 * phases.length, []⟩] ∧
      net.sites = circuitSites loop program phases signal := by
  have hprograms : (phases.map fun _ => program) ≠ [] := by simpa using hne
  obtain ⟨net, hok, hbuilt, hsinks, hsites⟩ :=
    on_line loop hprograms (length_preloads_getD program signal phases) maxWorkers
  rw [List.length_map] at hsinks
  exact ⟨net, hok, hbuilt, hsinks, hsites⟩

/-- In the end the sink holds what the last amplifier gave, and that one was not cut off. -/
theorem Wiring.queue_of_circuit (W : Wiring net) (h : Records net.system log s)
    (hf : s.finished = true) (hsites : net.sites = circuitSites loop program phases signal)
    (hne : phases ≠ []) (hsinks : net.sinks = [⟨"output", 2 * phases.length, []⟩]) :
    (s.board.channel (2 * phases.length)).queue = net.outputs log (phases.length - 1) ∧
      ¬net.CutOff log (phases.length - 1) := by
  have hpos := List.length_pos_iff.mpr hne
  have hlast : phases.length - 1 < phases.length := Nat.sub_lt hpos Nat.one_pos
  obtain ⟨-, x, -, hx, -, -, -, hexits⟩ :=
    exists_amplifier hsites (List.getElem?_eq_getElem hlast)
  have hsink : (⟨"output", 2 * phases.length, []⟩ : Sink) ∈ net.sinks := by
    rw [hsinks]
    exact List.mem_singleton_self _
  have hcount : x.exits.count (2 * phases.length) = 1 := by
    have hone := @count_lineExits_next loop phases.length _ hlast
    rwa [← hexits, Nat.sub_add_cancel hpos] at hone
  exact W.queue_of_exit h hf hx hsink hcount

/-! ### Running a circuit -/

/-- A circuit with phases is built, and it may be run. -/
theorem exists_circuit (loop : Bool) (program : List Int) (hne : phases ≠ []) (signal : Int) :
    ∃ net, circuit loop program phases signal = (.ok "output", net) ∧ net.Built ∧
      net.obstacle = none ∧ net.sinks = [⟨"output", 2 * phases.length, []⟩] ∧
      net.sites = circuitSites loop program phases signal := by
  obtain ⟨net, hok, hbuilt, hsinks, hsites⟩ := on_circuit loop program hne signal none
  have hprograms : (phases.map fun _ => program) ≠ [] := by simpa using hne
  have hfree := obstacle_of_line loop hprograms (length_preloads_getD program signal phases)
  rw [hok] at hfree
  exact ⟨net, hok, hbuilt, hfree, hsinks, hsites⟩

/-- The run of a circuit is one of its interleavings: either the verdict is an error, or the last
    value in the sink is the answer. -/
theorem exists_of_run (hcircuit : circuit loop program phases signal = (.ok "output", net))
    (hne : phases ≠ []) (hfree : net.obstacle = none) {fuel : Nat}
    {answer : Except CircuitError Int}
    (hrun : (Amplifier.run fuel loop program phases signal).run = some answer) :
    ∃ s, Reaches net.system s ∧ s.finished = true ∧
      answer = match verdict s with
        | .ok () => ((({ net with started := true } : Network).settle s).last "output").1.mapError
            .network
        | .error e => .error (.network e) := by
  have hphases : phases.isEmpty = false := by simpa using hne
  unfold Amplifier.run at hrun
  simp only [hphases, hcircuit, Bool.false_eq_true, if_false] at hrun
  cases hnet : net.run fuel with
  | none =>
    rw [hnet] at hrun
    cases hrun
  | some result =>
    obtain ⟨r, net'⟩ := result
    rw [hnet] at hrun
    obtain ⟨s, hs, hf, rfl, rfl⟩ := reaches_of_run_eq_some hfree hnet
    refine ⟨s, hs, hf, ?_⟩
    cases hverdict : verdict s with
    | ok _ =>
      rw [hverdict] at hrun
      exact (Option.some.inj hrun).symm
    | error e =>
      rw [hverdict] at hrun
      exact (Option.some.inj hrun).symm

end Network

end TapeNet
