import TapeNet.Proofs.Net.Layout

/-! # Lines and loops

    What `line` builds, for any number of machines: machine `i` reads from
    channel `2 * i` and sends to the inbox of machine `i + 1`; the last one
    sends to the sink and, in a loop, to the inbox of the first one.

    - `Laid pairs exits net`: so far the network is a line of machines with
      these programs and preloads, and machine `i` has the exits `exits i`.
    - `on_line`: a line of machines is always built, and its layout is
      `lineSites (lineExits ..)`. Without a limit on the workers it may be run
      (`obstacle_of_line`).
    - `feeds_iff_of_lineSites` is the graph of a line and of a loop.
-/

namespace TapeNet

namespace Network

open NetworkM

/-! ### Names -/

/-- The name of the machine at a place of a line. -/
def lineName (i : Nat) : String := s!"vm-{i}"

/-! ### Layouts of lines -/

/-- The layout of a line whose machine at place `i` has the exits `exits i`. -/
def lineSites (exits : Nat → List Nat) (pairs : List (List Int × List Int)) : List Site :=
  pairs.mapIdx fun i p => ⟨lineName i, .load { name := lineName i } p.1, p.2, 2 * i, exits i⟩

variable {exits : Nat → List Nat} {pairs : List (List Int × List Int)}

theorem lineSites_eq (exits : Nat → List Nat) (pairs : List (List Int × List Int)) :
    lineSites exits pairs = numberedSites "vm" 0 exits pairs := by
  unfold lineSites numberedSites
  simp only [Nat.zero_add]
  rfl

theorem getElem?_lineSites (exits : Nat → List Nat) (pairs : List (List Int × List Int))
    (i : Nat) :
    (lineSites exits pairs)[i]? = pairs[i]?.map fun p =>
      ⟨lineName i, .load { name := lineName i } p.1, p.2, 2 * i, exits i⟩ :=
  List.getElem?_mapIdx

theorem length_lineSites : (lineSites exits pairs).length = pairs.length := List.length_mapIdx

/-- The site at a place of a line. -/
theorem exists_lineSite (exits : Nat → List Nat) {i : Nat} (hi : i < pairs.length) :
    ∃ x ∈ lineSites exits pairs, x.name = lineName i ∧ x.inbox = 2 * i := by
  obtain ⟨x, hx, hname, hinbox⟩ := exists_numberedSite "vm" 0 exits hi
  rw [← lineSites_eq] at hx
  exact ⟨x, hx, hname, hinbox.trans (Nat.zero_add _)⟩

/-- One more exit at one place of a line. -/
theorem map_extend_lineSites (k c : Nat) :
    (lineSites exits pairs).map (Site.extend (lineName k) [c]) =
      lineSites (fun i => if i = k then exits i ++ [c] else exits i) pairs := by
  rw [lineSites_eq, lineSites_eq]
  exact map_extend_numberedSites "vm" 0 exits pairs k c

/-! ### Lines under construction -/

/-- So far the network is a line of machines, and machine `i` has the exits `exits i`. -/
structure Laid (pairs : List (List Int × List Int)) (exits : Nat → List Nat) (net : Network) :
    Prop where
  built : net.Built
  sites_eq : net.sites = lineSites exits pairs
  no_sinks : net.sinks = []
  size_channels : net.board.channels.size = 2 * pairs.length

theorem Laid.drawn {net : Network} (h : Laid pairs exits net) :
    Drawn (lineSites exits pairs) [] (2 * pairs.length) net :=
  ⟨h.built, h.sites_eq, h.no_sinks, h.size_channels⟩

/-- A line of machines that are not wired can be built from nothing. -/
theorem exists_laid (maxWorkers : Option Int) (pairs : List (List Int × List Int)) :
    ∃ net, on (addMachines "vm" 0 pairs) (.empty maxWorkers) =
        (.ok ((List.range' 0 pairs.length).map lineName), net) ∧
      Laid pairs (fun _ => []) net := by
  obtain ⟨net, hok, h⟩ := (drawn_empty maxWorkers).addMachines "vm" 0
    (fun x hx => absurd hx List.not_mem_nil) pairs
  simp only [Nat.zero_add, List.nil_append] at h
  exact ⟨net, hok, h.built, h.sites_eq, h.sinks_eq, h.size_channels⟩

/-- A machine of a line can be wired to another one. -/
theorem Laid.connect {net : Network} (h : Laid pairs exits net) {i j : Nat}
    (hi : i < pairs.length) (hj : j < pairs.length) :
    ∃ net', on (connect (lineName i) [lineName j]) net = (.ok (), net') ∧
      Laid pairs (fun k => if k = i then exits k ++ [2 * j] else exits k) net' := by
  obtain ⟨x, hx, hxname, -⟩ := exists_lineSite exits hi
  have htargets : ∀ t ∈ [(lineName j, 2 * j)],
      ∃ y ∈ lineSites exits pairs, y.name = t.1 ∧ y.inbox = t.2 := by
    intro t ht
    obtain rfl := List.mem_singleton.mp ht
    exact exists_lineSite exits hj
  obtain ⟨net', hok, h'⟩ :=
    h.drawn.connect (lineName i) ⟨x, hx, hxname⟩ (List.cons_ne_nil _ _) htargets
  refine ⟨net', hok, h'.built, ?_, h'.sinks_eq, h'.size_channels⟩
  rw [h'.sites_eq]
  exact map_extend_lineSites i (2 * j)

/-- Every machine from place `k` on is wired to the next one. -/
theorem Laid.connectLine {k m : Nat} {net : Network} (h : Laid pairs exits net)
    (hm : k + m = pairs.length) :
    ∃ net', on (connectLine ((List.range' k m).map lineName)) net = (.ok (), net') ∧
      Laid pairs (fun i => if k ≤ i ∧ i + 1 < k + m then exits i ++ [2 * (i + 1)] else exits i)
        net' := by
  induction m generalizing k net exits with
  | zero =>
    refine ⟨net, rfl, ?_⟩
    have hnone : ∀ i, ¬(k ≤ i ∧ i + 1 < k + 0) := fun i => by omega
    simpa only [hnone, if_false] using h
  | succ m ih =>
    cases m with
    | zero =>
      refine ⟨net, rfl, ?_⟩
      have hnone : ∀ i, ¬(k ≤ i ∧ i + 1 < k + (0 + 1)) := fun i => by omega
      simpa only [hnone, if_false] using h
    | succ m =>
      obtain ⟨net₁, hok₁, h₁⟩ := h.connect (i := k) (j := k + 1) (by omega) (by omega)
      obtain ⟨net₂, hok₂, h₂⟩ := ih (k := k + 1) h₁ (by omega)
      refine ⟨net₂, ?_, ?_⟩
      · show on (do
          Network.connect (lineName k) [lineName (k + 1)]
          Network.connectLine ((List.range' (k + 1) (m + 1)).map lineName)) net = _
        rw [on_bind_of_ok hok₁, hok₂]
      · -- the two steps add one exit each, at different places
        have hexits : (fun i => if k + 1 ≤ i ∧ i + 1 < k + 1 + (m + 1) then
              (if i = k then exits i ++ [2 * (k + 1)] else exits i) ++ [2 * (i + 1)]
            else if i = k then exits i ++ [2 * (k + 1)] else exits i) =
            fun i => if k ≤ i ∧ i + 1 < k + (m + 1 + 1) then exits i ++ [2 * (i + 1)]
              else exits i := by
          funext i
          by_cases hik : i = k
          · subst hik
            rw [if_neg (by omega), if_pos rfl, if_pos (by omega)]
          · rw [if_neg hik]
            by_cases hi : k + 1 ≤ i ∧ i + 1 < k + 1 + (m + 1)
            · rw [if_pos hi, if_pos (by omega)]
            · rw [if_neg hi, if_neg (by omega)]
        rw [← hexits]
        exact h₂

/-- A machine of a line can be given the first sink. -/
theorem Laid.addSink {net : Network} (h : Laid pairs exits net) {i : Nat} (hi : i < pairs.length)
    (name : String) :
    ∃ net', on (addSink (lineName i) (some name)) net = (.ok name, net') ∧ net'.Built ∧
      net'.sinks = [⟨name, 2 * pairs.length, []⟩] ∧
      net'.sites =
        lineSites (fun k => if k = i then exits k ++ [2 * pairs.length] else exits k) pairs := by
  obtain ⟨x, hx, hname, -⟩ := exists_lineSite exits hi
  obtain ⟨net', hok, h'⟩ := h.drawn.addSink ⟨x, hx, hname⟩ (some name)
    fun k hk => absurd hk List.not_mem_nil
  refine ⟨net', hok, h'.built, h'.sinks_eq, ?_⟩
  rw [h'.sites_eq]
  exact map_extend_lineSites i (2 * pairs.length)

/-- The last machine of a line is wired to the first one, if a loop is wanted, before the
    building goes on. -/
theorem Laid.closeLoop {net : Network} (h : Laid pairs exits net) {n : Nat}
    (hn : pairs.length = n + 1) (loop : Bool) {α : Type} (next : NetworkM α) :
    ∃ net', on (if loop then (do Network.connect (lineName n) [lineName 0]; next) else next) net =
        on next net' ∧
      Laid pairs (fun i => if i = n ∧ loop = true then exits i ++ [0] else exits i) net' := by
  cases loop with
  | false => exact ⟨net, rfl, by simpa using h⟩
  | true =>
    obtain ⟨net', hok, h'⟩ := h.connect (i := n) (j := 0) (by omega) (by omega)
    exact ⟨net', on_bind_of_ok hok, by simpa using h'⟩

/-! ### What is built -/

/-- The exits of machine `i` in a line of `n` machines. -/
def lineExits (loop : Bool) (n i : Nat) : List Nat :=
  if i + 1 < n then [2 * (i + 1)]
  else if i + 1 = n then (if loop then [0] else []) ++ [2 * n]
  else []

/-- A line of machines that is not empty is always built, and this is its layout. -/
theorem on_line (loop : Bool) {programs : List (List Int)} (hne : programs ≠ [])
    {preloads : Option (List (List Int))}
    (hlen : (preloads.getD (programs.map fun _ => [])).length = programs.length)
    (maxWorkers : Option Int) :
    ∃ net, on (line loop programs preloads) (.empty maxWorkers) = (.ok "output", net) ∧
      net.Built ∧ net.sinks = [⟨"output", 2 * programs.length, []⟩] ∧
      net.sites =
        lineSites (lineExits loop (programs.zip (preloads.getD (programs.map fun _ => []))).length)
          (programs.zip (preloads.getD (programs.map fun _ => []))) := by
  set pairs := programs.zip (preloads.getD (programs.map fun _ => [])) with hpairs
  have hn : pairs.length = programs.length := by
    rw [hpairs, List.length_zip, hlen, Nat.min_self]
  obtain ⟨n, hsucc⟩ : ∃ n, pairs.length = n + 1 :=
    ⟨pairs.length - 1, by have := List.length_pos_iff.mpr hne; omega⟩
  obtain ⟨net₁, hok₁, h₁⟩ := exists_laid maxWorkers pairs
  obtain ⟨net₂, hok₂, h₂⟩ := h₁.connectLine (k := 0) (m := pairs.length) (Nat.zero_add _)
  obtain ⟨net₃, hok₃, h₃⟩ := h₂.closeLoop hsucc loop
    (Network.addSink (lineName n) (some "output"))
  obtain ⟨net₄, hok₄, hbuilt, hsinks, hsites⟩ := h₃.addSink (i := n) (by omega) "output"
  have hlast : ((List.range' 0 pairs.length).map lineName).getLastD "" = lineName n := by
    rw [hsucc, List.range'_1_concat, List.map_append, List.map_singleton, Nat.zero_add]
    exact List.getLastD_concat
  have hhead : ((List.range' 0 pairs.length).map lineName).headD "" = lineName 0 := by
    rw [hsucc]
    rfl
  have hpair : on (pairUp .unmatchedPreloads programs preloads) (.empty maxWorkers) =
      (.ok pairs, .empty maxWorkers) := by
    rw [on_pairUp, if_neg (by simpa using hlen)]
  have hempty : programs.isEmpty = false := by simpa using hne
  refine ⟨net₄, ?_, hbuilt, ?_, ?_⟩
  · unfold line
    simp only [hempty, Bool.false_eq_true, if_false]
    rw [on_bind_of_ok hpair, on_bind_of_ok hok₁]
    rw [on_bind_of_ok hok₂, hlast, hhead]
    exact hok₃.trans hok₄
  · rw [hsinks, hn]
  · -- the exits that the steps added, one place at a time
    rw [hsites]
    congr 1
    funext i
    unfold lineExits
    by_cases hi : i = n
    · rw [if_pos hi, if_neg (show ¬(i + 1 < pairs.length) by omega),
        if_neg (show ¬(0 ≤ i ∧ i + 1 < 0 + pairs.length) by omega),
        if_pos (show i + 1 = pairs.length by omega)]
      cases loop with
      | false => rw [if_neg (by simp)]; rfl
      | true => rw [if_pos ⟨hi, rfl⟩]; rfl
    · rw [if_neg hi, if_neg (fun h => hi h.1)]
      by_cases hlt : i + 1 < pairs.length
      · rw [if_pos (show 0 ≤ i ∧ i + 1 < 0 + pairs.length by omega), if_pos hlt]
        rfl
      · rw [if_neg (show ¬(0 ≤ i ∧ i + 1 < 0 + pairs.length) by omega), if_neg hlt,
          if_neg (by omega)]

/-- Without programs, or with too few or too many preloads, nothing is built. -/
theorem on_line_of_mismatch (loop : Bool) {programs : List (List Int)}
    {preloads : Option (List (List Int))}
    (h : ¬(programs ≠ [] ∧
      (preloads.getD (programs.map fun _ => [])).length = programs.length)) (net : Network) :
    ∃ e, on (line loop programs preloads) net = (.error e, net) := by
  unfold line
  cases hempty : programs.isEmpty with
  | true => exact ⟨.noPrograms, rfl⟩
  | false =>
    have hne : programs ≠ [] := by simpa using hempty
    have hlen := fun hl => h ⟨hne, hl⟩
    refine ⟨.unmatchedPreloads, ?_⟩
    simp only [Bool.false_eq_true, if_false]
    rw [on_bind, on_pairUp, if_pos hlen]

theorem built_line (loop : Bool) (programs : List (List Int))
    (preloads : Option (List (List Int))) (maxWorkers : Option Int) :
    (on (line loop programs preloads) (.empty maxWorkers)).2.Built := by
  by_cases h : programs ≠ [] ∧
      (preloads.getD (programs.map fun _ => [])).length = programs.length
  · obtain ⟨net, hok, hbuilt, -⟩ := on_line loop h.1 h.2 maxWorkers
    rw [hok]
    exact hbuilt
  · obtain ⟨e, herror⟩ := on_line_of_mismatch loop h (.empty maxWorkers)
    rw [herror]
    exact .empty maxWorkers

theorem sites_line (loop : Bool) {programs : List (List Int)} (hne : programs ≠ [])
    {preloads : Option (List (List Int))}
    (hlen : (preloads.getD (programs.map fun _ => [])).length = programs.length)
    (maxWorkers : Option Int) :
    (on (line loop programs preloads) (.empty maxWorkers)).2.sites =
      lineSites (lineExits loop (programs.zip (preloads.getD (programs.map fun _ => []))).length)
        (programs.zip (preloads.getD (programs.map fun _ => []))) := by
  obtain ⟨net, hok, -, -, hsites⟩ := on_line loop hne hlen maxWorkers
  rw [hok]
  exact hsites

theorem keepsLimit_addMachines (stem : String) (index : Nat)
    (pairs : List (List Int × List Int)) : KeepsLimit (addMachines stem index pairs) := by
  induction pairs generalizing index with
  | nil => exact keepsLimit_pure []
  | cons p pairs ih =>
    refine (keepsLimit_addMachine _ _ _).bind fun _ => ?_
    exact (ih (index + 1)).bind fun names => keepsLimit_pure _

theorem keepsLimit_connectLine (names : List String) : KeepsLimit (connectLine names) := by
  -- two at a time: each node is wired to the one after it
  induction names with
  | nil => exact keepsLimit_pure ()
  | cons a names ih =>
    cases names with
    | nil => exact keepsLimit_pure ()
    | cons b names => exact (keepsLimit_connect a [b]).bind fun _ => ih

/-- However a line is built, the limit on the workers stays as it was. -/
theorem keepsLimit_line (loop : Bool) (programs : List (List Int))
    (preloads : Option (List (List Int))) : KeepsLimit (line loop programs preloads) := by
  unfold line
  cases programs.isEmpty with
  | true => exact keepsLimit_throw .noPrograms
  | false =>
    have hpair : KeepsLimit (pairUp .unmatchedPreloads programs preloads) := by
      intro net
      rw [on_pairUp]
      split
      · rfl
      · rfl
    simp only [Bool.false_eq_true, if_false]
    refine hpair.bind fun pairs => (keepsLimit_addMachines "vm" 0 pairs).bind fun names => ?_
    refine (keepsLimit_connectLine names).bind fun _ => ?_
    cases loop with
    | true => exact (keepsLimit_connect _ _).bind fun _ => keepsLimit_addSink _ _
    | false => exact keepsLimit_addSink _ _

/-- A line of machines that was built without a limit may be run. -/
theorem obstacle_of_line (loop : Bool) {programs : List (List Int)} (hne : programs ≠ [])
    {preloads : Option (List (List Int))}
    (hlen : (preloads.getD (programs.map fun _ => [])).length = programs.length) :
    (on (line loop programs preloads) (.empty none)).2.obstacle = none := by
  obtain ⟨net, hok, hbuilt, -, hsites⟩ := on_line loop hne hlen none
  have hlimit := keepsLimit_line loop programs preloads (.empty none)
  rw [hok] at hlimit ⊢
  obtain ⟨W⟩ := hbuilt.wiring
  have hnodes : net.nodes.length = programs.length := by
    rw [← length_sites, hsites, length_lineSites, List.length_zip, hlen, Nat.min_self]
  have hsome : net.nodes ≠ [] := by
    rw [← List.length_pos_iff, hnodes]
    exact List.length_pos_iff.mpr hne
  exact obstacle_eq_none W.not_started hsome hlimit

/-! ### The graphs -/

theorem mem_lineExits {loop : Bool} {n i c : Nat} :
    c ∈ lineExits loop n i ↔
      (i + 1 < n ∧ c = 2 * (i + 1)) ∨ (i + 1 = n ∧ (c = 2 * n ∨ (loop = true ∧ c = 0))) := by
  unfold lineExits
  by_cases hlt : i + 1 < n
  · have hne : i + 1 ≠ n := hlt.ne
    simp [hlt, hne]
  · by_cases heq : i + 1 = n
    · cases loop with
      | false => simp [heq]
      | true => simp [heq, or_comm]
    · simp [hlt, heq]

/-- Every machine has the inbox of the next one, or the sink, among its exits once. -/
theorem count_lineExits_next {loop : Bool} {n i : Nat} (hi : i < n) :
    (lineExits loop n i).count (2 * (i + 1)) = 1 := by
  unfold lineExits
  by_cases hnext : i + 1 < n
  · rw [if_pos hnext, List.count_singleton_self]
  · have hlast : i + 1 = n := by omega
    have hzero : (0 == 2 * n) = false := by rw [beq_eq_false_iff_ne]; omega
    rw [if_neg hnext, if_pos hlast, hlast]
    cases loop with
    | false => simp
    | true => simp [List.count_cons, hzero]

/-- The last machine of a loop has the inbox of the first one among its exits once. -/
theorem count_lineExits_first {n i : Nat} (hi : i + 1 = n) : (lineExits true n i).count 0 = 1 := by
  unfold lineExits
  have hzero : (2 * n == 0) = false := by rw [beq_eq_false_iff_ne]; omega
  rw [if_neg (by omega), if_pos hi]
  simp [List.count_cons, hzero]

/-- The node and the site at a place of a line. -/
theorem exists_stage {net : Network} {loop : Bool}
    (hsites : net.sites = lineSites (lineExits loop pairs.length) pairs) {i : Nat}
    {p : List Int × List Int} (hp : pairs[i]? = some p) :
    ∃ m x, net.nodes[i]? = some m ∧ net.sites[i]? = some x ∧
      m.machine = .load { name := lineName i } p.1 ∧ m.preload = p.2 ∧ m.inbox = 2 * i ∧
      x.exits = lineExits loop pairs.length i := by
  have hsite := getElem?_lineSites (lineExits loop pairs.length) pairs i
  rw [hp, Option.map_some, ← hsites] at hsite
  have hnode := hsite
  rw [getElem?_sites] at hnode
  obtain ⟨m, hm, hx⟩ := Option.map_eq_some_iff.mp hnode
  exact ⟨m, _, hm, hsite, congrArg Site.machine hx, congrArg Site.preload hx,
    congrArg Site.inbox hx, rfl⟩

/-- In a line every machine sends to the next one and, in a loop, the last one to the first. -/
theorem feeds_iff_of_lineSites {net : Network} {loop : Bool}
    (h : net.sites = lineSites (lineExits loop pairs.length) pairs) {i j : Nat} :
    net.Feeds i j ↔ i < pairs.length ∧ j < pairs.length ∧
      (i + 1 = j ∨ (loop = true ∧ i + 1 = pairs.length ∧ j = 0)) := by
  rw [feeds_iff]
  constructor
  · rintro ⟨x, y, hx, hy, hmem⟩
    rw [h, getElem?_lineSites] at hx hy
    obtain ⟨p, hp, rfl⟩ := Option.map_eq_some_iff.mp hx
    obtain ⟨q, hq, rfl⟩ := Option.map_eq_some_iff.mp hy
    obtain ⟨hi, -⟩ := List.getElem?_eq_some_iff.mp hp
    obtain ⟨hj, -⟩ := List.getElem?_eq_some_iff.mp hq
    refine ⟨hi, hj, ?_⟩
    rcases mem_lineExits.mp hmem with ⟨-, hc⟩ | ⟨hlast, hc | ⟨hloop, hc⟩⟩
    · exact .inl (by simp only at hc; omega)
    · simp only at hc
      omega
    · exact .inr ⟨hloop, hlast, by simp only at hc; omega⟩
  · rintro ⟨hi, hj, hij⟩
    have hx := getElem?_lineSites (lineExits loop pairs.length) pairs i
    have hy := getElem?_lineSites (lineExits loop pairs.length) pairs j
    rw [List.getElem?_eq_getElem hi, Option.map_some, ← h] at hx
    rw [List.getElem?_eq_getElem hj, Option.map_some, ← h] at hy
    refine ⟨_, _, hx, hy, mem_lineExits.mpr ?_⟩
    rcases hij with hnext | ⟨hloop, hlast, hfirst⟩
    · exact .inl ⟨by omega, by simp only; omega⟩
    · exact .inr ⟨hlast, .inr ⟨hloop, by simp only; omega⟩⟩

end Network

end TapeNet
