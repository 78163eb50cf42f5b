import Std.Data.String.ToNat
import TapeNet.Net.Topology
import TapeNet.Proofs.Net.Wiring

/-! # Layouts

    A network without its endpoints: for every node what it computes, what it
    starts with and which channels it sends to.

    - `Site` and `sites`: the layout of a network. `feeds_iff` reads its
      graph off the layout.
    - `sites_withMachine`, `sites_withTarget` and `sites_withSink` say what
      an operation does to it.
    - `Drawn xs ks c net`: so far the network has the sites `xs`, the sinks
      `ks` and `c` channels. Every operation that succeeds draws on from
      there, and nothing else about the network has to be known.
-/

namespace TapeNet

namespace Network

open NetworkM

/-- A node as its neighbours see it. -/
@[ext]
structure Site where
  name : String
  machine : Machine
  preload : List Int
  inbox : Nat
  /-- the channels that the node sends to, in the order of its targets -/
  exits : List Nat

/-- What a node is on a switchboard. -/
def site (b : Switchboard) (n : Node) : Site where
  name := n.name
  machine := n.machine
  preload := n.preload
  inbox := n.inbox
  exits := n.relay.targets.map fun t => (b.sender t).channel

/-- The layout of a network. -/
def sites (net : Network) : List Site := net.nodes.map (site net.board)

/-- A site that sends to one more channel. -/
def Site.addExit (x : Site) (c : Nat) : Site := { x with exits := x.exits ++ [c] }

variable {net : Network}

theorem length_sites (net : Network) : net.sites.length = net.nodes.length := List.length_map _

theorem getElem?_sites (net : Network) (i : Nat) :
    net.sites[i]? = net.nodes[i]?.map (site net.board) :=
  List.getElem?_map

/-- Node `i` sends to node `j` if the inbox of `j` is among the exits of `i`. -/
theorem feeds_iff {i j : Nat} :
    net.Feeds i j ↔
      ∃ x y, net.sites[i]? = some x ∧ net.sites[j]? = some y ∧ y.inbox ∈ x.exits := by
  simp only [Feeds, getElem?_sites, Option.map_eq_some_iff]
  constructor
  · rintro ⟨n, m, hn, hm, t, ht, hc⟩
    exact ⟨_, _, ⟨n, hn, rfl⟩, ⟨m, hm, rfl⟩, List.mem_map.mpr ⟨t, ht, hc⟩⟩
  · rintro ⟨_, _, ⟨n, hn, rfl⟩, ⟨m, hm, rfl⟩, hmem⟩
    obtain ⟨t, ht, hc⟩ := List.mem_map.mp hmem
    exact ⟨n, m, hn, hm, t, ht, hc⟩

/-! ### What the operations do to a layout -/

theorem Placed.site_of_grows {use : Nat → Use} {owner : Nat → Owner} {b b' : Switchboard}
    {n : Node} (h : Placed use owner b n) (hg : Grows b b') : site b' n = site b n := by
  have hexits : n.relay.targets.map (fun t => (b'.sender t).channel) =
      n.relay.targets.map fun t => (b.sender t).channel := by
    refine List.map_congr_left fun t ht => ?_
    rw [hg.sender_eq t (h.target_lt t ht)]
  simp only [site, hexits]

theorem Wiring.sites_withMachine (W : Wiring net) (name : String) (program inputs : List Int) :
    (net.withMachine name program inputs).sites =
      net.sites ++ [⟨name, .load { name } program, inputs, net.board.channels.size, []⟩] := by
  show (net.nodes ++ [_]).map _ = _
  rw [List.map_append]
  congr 1
  refine List.map_congr_left fun n hn => ?_
  exact (W.placed n hn).site_of_grows (grows_withMachine net name program inputs)

/-- One more target is one more exit of its node. -/
theorem Wiring.sites_addTarget (W : Wiring net) {b : Switchboard} (hg : Grows net.board b)
    (sinks : List Sink) (source : String) (t : Nat) :
    (({ net with board := b, sinks := sinks } : Network).addTarget source t).sites =
      net.sites.map fun x => if x.name = source then x.addExit (b.sender t).channel else x := by
  show (net.nodes.map _).map _ = (net.nodes.map _).map _
  rw [List.map_map, List.map_map]
  refine List.map_congr_left fun n hn => ?_
  have hsite := (W.placed n hn).site_of_grows hg
  show site b (if n.name = source then { n with relay := n.relay.addTarget t } else n) =
    if n.name = source then (site net.board n).addExit (b.sender t).channel else site net.board n
  rw [← hsite]
  split
  · simp [site, Site.addExit, Relay.addTarget]
  · rfl

theorem Wiring.sites_withTarget (W : Wiring net) (source : String) (c : Nat) :
    (net.withTarget source c).sites =
      net.sites.map fun x => if x.name = source then x.addExit c else x := by
  have h := W.sites_addTarget (grows_withSender net.board c) net.sinks source
    net.board.senders.size
  rw [Switchboard.sender_withSender, if_pos rfl] at h
  exact h

theorem Wiring.sites_withSink (W : Wiring net) (source name : String) :
    (net.withSink source name).sites =
      net.sites.map fun x =>
        if x.name = source then x.addExit net.board.channels.size else x := by
  have h := W.sites_addTarget (grows_openChannel net.board name)
    (net.sinks ++ [⟨name, net.board.channels.size, []⟩]) source net.board.senders.size
  rw [Switchboard.sender_openChannel, if_pos rfl] at h
  exact h

/-! ### Operations that succeed -/

/-- A name is taken if and only if a site has it. -/
theorem node?_eq_none_iff_sites {name : String} :
    net.node? name = none ↔ ∀ x ∈ net.sites, x.name ≠ name := by
  rw [node?_eq_none]
  simp only [sites, List.mem_map, forall_exists_index, and_imp, forall_apply_eq_imp_iff₂]
  rfl

/-- Where a site is, there is a node of its name. -/
theorem exists_node_of_site {x : Site} (hx : x ∈ net.sites) :
    ∃ n, net.node? x.name = some n ∧ n ∈ net.nodes ∧ n.name = x.name := by
  cases hn : net.node? x.name with
  | none => exact absurd rfl (node?_eq_none_iff_sites.mp hn x hx)
  | some n => exact ⟨n, rfl, (mem_of_node? hn).1, (mem_of_node? hn).2⟩

theorem Wiring.addMachine_of_fresh (W : Wiring net) {name : String}
    (hfresh : ∀ x ∈ net.sites, x.name ≠ name) (program inputs : List Int) :
    on (addMachine name program inputs) net = (.ok (), net.withMachine name program inputs) := by
  rw [on_addMachine, W.not_started, node?_eq_none_iff_sites.mpr hfresh]
  rfl

/-- The site of a name, with more exits. -/
def Site.extend (source : String) (cs : List Nat) (x : Site) : Site :=
  if x.name = source then { x with exits := x.exits ++ cs } else x

@[simp] theorem Site.name_extend (source : String) (cs : List Nat) (x : Site) :
    (x.extend source cs).name = x.name := by
  unfold Site.extend
  split
  · rfl
  · rfl

@[simp] theorem Site.inbox_extend (source : String) (cs : List Nat) (x : Site) :
    (x.extend source cs).inbox = x.inbox := by
  unfold Site.extend
  split
  · rfl
  · rfl

theorem Site.extend_extend (source : String) (cs ds : List Nat) (x : Site) :
    (x.extend source cs).extend source ds = x.extend source (cs ++ ds) := by
  unfold Site.extend
  by_cases h : x.name = source
  · simp [h]
  · simp [h]

theorem Site.extend_nil (source : String) (x : Site) : x.extend source [] = x := by
  unfold Site.extend
  split
  · rw [List.append_nil]
  · rfl

/-- A node can be wired to a node of any name, which adds its inbox to the exits. -/
theorem Wiring.connectTo_of_mem (W : Wiring net) {source target : String} {c : Nat}
    (hsource : ∃ x ∈ net.sites, x.name = source)
    (htarget : ∃ y ∈ net.sites, y.name = target ∧ y.inbox = c) :
    ∃ net', on (connectTo source target) net = (.ok (), net') ∧ Nonempty (Wiring net') ∧
      net'.sites = net.sites.map (Site.extend source [c]) ∧ net'.sinks = net.sinks ∧
      net'.board.channels.size = net.board.channels.size := by
  obtain ⟨y, hy, rfl, rfl⟩ := htarget
  obtain ⟨x, hx, rfl⟩ := hsource
  obtain ⟨m, hm, hmem, hmname⟩ := exists_node_of_site hy
  obtain ⟨n, -, hn, hname⟩ := exists_node_of_site hx
  have hplaced := W.placed m hmem
  -- names tell nodes apart, so the node that is found is the one of the site
  have hinbox : m.inbox = y.inbox := by
    obtain ⟨m', hm', rfl⟩ := List.mem_map.mp hy
    rw [W.eq_of_name_eq hmem hm' hmname]
    rfl
  have hok := on_connectTo hm (W.isOpen _ hplaced.feed_lt) x.name
  rw [hplaced.feed_channel, hinbox] at hok
  refine ⟨_, hok, ?_, W.sites_withTarget x.name y.inbox, rfl, ?_⟩
  · have hwiring := (wiring_connectTo W ⟨n, hn, hname⟩ y.name).1
    rw [hok] at hwiring
    exact hwiring
  · exact Switchboard.size_channels_withSender _ _

/-- A node can be wired to any number of nodes, one after the other. -/
theorem Wiring.connectAll_of_mem (W : Wiring net) {source : String}
    (hsource : ∃ x ∈ net.sites, x.name = source) {targets : List (String × Nat)}
    (htargets : ∀ t ∈ targets, ∃ y ∈ net.sites, y.name = t.1 ∧ y.inbox = t.2) :
    ∃ net', on (connectAll source (targets.map (·.1))) net = (.ok (), net') ∧
      net'.sites = net.sites.map (Site.extend source (targets.map (·.2))) ∧
      net'.sinks = net.sinks ∧ net'.board.channels.size = net.board.channels.size := by
  -- by induction on the targets; one more exit changes neither the names nor the inboxes of sites
  induction targets generalizing net with
  | nil =>
    refine ⟨net, rfl, ?_, rfl, rfl⟩
    have hsame : Site.extend source [] = id := funext fun x => x.extend_nil source
    rw [List.map_nil, hsame, List.map_id]
  | cons t targets ih =>
    obtain ⟨net₁, hok, ⟨W₁⟩, hsites, hsinks, hsize⟩ :=
      W.connectTo_of_mem hsource (htargets t List.mem_cons_self)
    have hkept : ∀ name c, (∃ y ∈ net.sites, y.name = name ∧ y.inbox = c) →
        ∃ y ∈ net₁.sites, y.name = name ∧ y.inbox = c := by
      intro name c ⟨y, hy, hname, hinbox⟩
      refine ⟨y.extend source [t.2], ?_, ?_, ?_⟩
      · rw [hsites]
        exact List.mem_map_of_mem hy
      · rw [Site.name_extend, hname]
      · rw [Site.inbox_extend, hinbox]
    have hsource₁ : ∃ x ∈ net₁.sites, x.name = source := by
      obtain ⟨x, hx, hname⟩ := hsource
      obtain ⟨y, hy, hyname, -⟩ := hkept source x.inbox ⟨x, hx, hname, rfl⟩
      exact ⟨y, hy, hyname⟩
    obtain ⟨net₂, hok₂, hsites₂, hsinks₂, hsize₂⟩ :=
      ih W₁ hsource₁ fun u hu => hkept u.1 u.2 (htargets u (List.mem_cons_of_mem _ hu))
    refine ⟨net₂, ?_, ?_, hsinks₂.trans hsinks, hsize₂.trans hsize⟩
    · rw [List.map_cons, on_connectAll_cons, on_bind_of_ok hok, hok₂]
    · rw [hsites₂, hsites, List.map_map]
      refine List.map_congr_left fun x _ => ?_
      exact x.extend_extend source [t.2] (targets.map (·.2))

theorem Wiring.addSink_of_mem (W : Wiring net) {source : String}
    (hsource : ∃ x ∈ net.sites, x.name = source) (name : Option String)
    (hfresh : net.sink? (name.getD (source ++ ".sink")) = none) :
    on (addSink source name) net = (.ok (name.getD (source ++ ".sink")),
      net.withSink source (name.getD (source ++ ".sink"))) := by
  obtain ⟨x, hx, rfl⟩ := hsource
  obtain ⟨n, hn, -, hname⟩ := exists_node_of_site hx
  rw [on_addSink, W.not_started, hn, ← hname]
  rw [← hname] at hfresh
  simp [hfresh]

/-! ### Networks under construction -/

/-- So far the network has these sites and these sinks, and so many channels. -/
structure Drawn (xs : List Site) (ks : List Sink) (c : Nat) (net : Network) : Prop where
  built : net.Built
  sites_eq : net.sites = xs
  sinks_eq : net.sinks = ks
  size_channels : net.board.channels.size = c

theorem drawn_empty (maxWorkers : Option Int) : Drawn [] [] 0 (.empty maxWorkers) where
  built := .empty maxWorkers
  sites_eq := rfl
  sinks_eq := rfl
  size_channels := rfl

/-- The name of the machine that has a number, among those of one stem. -/
def numbered (stem : String) (i : Nat) : String := s!"{stem}-{i}"

theorem numbered_injective {stem : String} {i j : Nat} (h : numbered stem i = numbered stem j) :
    i = j := by
  have hlists := congrArg String.toList h
  simp only [numbered, String.toList_append] at hlists
  have hrepr : Nat.repr i = Nat.repr j := by
    apply String.toList_injective
    simpa [toString] using hlists
  exact Nat.repr_injective hrepr

/-- The sites of machines that are numbered from 0 on: the inbox of the first one is channel `c`,
    and machine `i` has the exits `exits i`. -/
def numberedSites (stem : String) (c : Nat) (exits : Nat → List Nat)
    (pairs : List (List Int × List Int)) : List Site :=
  pairs.mapIdx fun i p =>
    ⟨numbered stem i, .load { name := numbered stem i } p.1, p.2, c + 2 * i, exits i⟩

theorem getElem?_numberedSites (stem : String) (c : Nat) (exits : Nat → List Nat)
    (pairs : List (List Int × List Int)) (i : Nat) :
    (numberedSites stem c exits pairs)[i]? = pairs[i]?.map fun p =>
      ⟨numbered stem i, .load { name := numbered stem i } p.1, p.2, c + 2 * i, exits i⟩ :=
  List.getElem?_mapIdx

/-- The site of a machine that has a number. -/
theorem exists_numberedSite (stem : String) (c : Nat) (exits : Nat → List Nat)
    {pairs : List (List Int × List Int)} {i : Nat} (hi : i < pairs.length) :
    ∃ x ∈ numberedSites stem c exits pairs, x.name = numbered stem i ∧ x.inbox = c + 2 * i := by
  have hsite := getElem?_numberedSites stem c exits pairs i
  rw [List.getElem?_eq_getElem hi] at hsite
  exact ⟨_, List.mem_of_getElem? hsite, rfl, rfl⟩

/-- One more exit of the machine that has a number. -/
theorem map_extend_numberedSites (stem : String) (c : Nat) (exits : Nat → List Nat)
    (pairs : List (List Int × List Int)) (k d : Nat) :
    (numberedSites stem c exits pairs).map (Site.extend (numbered stem k) [d]) =
      numberedSites stem c (fun i => if i = k then exits i ++ [d] else exits i) pairs := by
  refine List.ext_getElem? fun i => ?_
  rw [List.getElem?_map, getElem?_numberedSites, getElem?_numberedSites, Option.map_map]
  congr 1
  funext p
  show Site.extend (numbered stem k) [d] _ = _
  unfold Site.extend
  by_cases hik : i = k
  · simp [hik]
  · rw [if_neg fun h => hik (numbered_injective h), if_neg hik]

namespace Drawn

variable {xs : List Site} {ks : List Sink} {c : Nat}

/-- A machine with a new name can be added. -/
theorem addMachine (h : Drawn xs ks c net) (name : String) (hfresh : ∀ x ∈ xs, x.name ≠ name)
    (program inputs : List Int) :
    ∃ net', on (Network.addMachine name program inputs) net = (.ok (), net') ∧
      Drawn (xs ++ [⟨name, .load { name } program, inputs, c, []⟩]) ks (c + 2) net' := by
  obtain ⟨W⟩ := h.built.wiring
  have hok := W.addMachine_of_fresh (by rwa [h.sites_eq]) program inputs
  refine ⟨_, hok, ?_, ?_, h.sinks_eq, ?_⟩
  · have hbuilt := h.built.addMachine name program inputs
    rw [hok] at hbuilt
    exact hbuilt
  · rw [W.sites_withMachine, h.sites_eq, h.size_channels]
  · rw [size_channels_withMachine, h.size_channels]

/-- Any number of machines can be added, if their names are new. -/
theorem addMachines (h : Drawn xs ks c net) (stem : String) (index : Nat)
    (hfresh : ∀ x ∈ xs, ∀ i, index ≤ i → x.name ≠ numbered stem i)
    (rest : List (List Int × List Int)) :
    ∃ net', on (Network.addMachines stem index rest) net =
        (.ok ((List.range' index rest.length).map (numbered stem)), net') ∧
      Drawn (xs ++ rest.mapIdx fun i p => ⟨numbered stem (index + i),
          .load { name := numbered stem (index + i) } p.1, p.2, c + 2 * i, []⟩)
        ks (c + 2 * rest.length) net' := by
  -- by induction on what is still to come, whatever is there so far
  induction rest generalizing xs c index net with
  | nil =>
    refine ⟨net, rfl, ?_⟩
    rw [List.mapIdx_nil, List.append_nil]
    exact h
  | cons p rest ih =>
    obtain ⟨net₁, hok₁, h₁⟩ :=
      h.addMachine (numbered stem index) (fun x hx => hfresh x hx index (Nat.le_refl _)) p.1 p.2
    -- the new machine has a smaller number than those after it
    have hfresh₁ : ∀ x ∈ xs ++ [(⟨numbered stem index, .load { name := numbered stem index } p.1,
        p.2, c, []⟩ : Site)], ∀ i, index + 1 ≤ i → x.name ≠ numbered stem i := by
      intro x hx i hi
      rcases List.mem_append.mp hx with hold | hlast
      · exact hfresh x hold i (by omega)
      · rw [List.mem_singleton.mp hlast]
        intro hname
        have := numbered_injective hname
        omega
    obtain ⟨net₂, hok₂, h₂⟩ := ih h₁ (index + 1) hfresh₁
    refine ⟨net₂, ?_, ?_⟩
    · show on (do
        Network.addMachine (numbered stem index) p.1 p.2
        let names ← Network.addMachines stem (index + 1) rest
        pure (numbered stem index :: names)) net = _
      rw [on_bind_of_ok hok₁, on_bind_of_ok hok₂]
      rfl
    · have hnumber : ∀ i, index + 1 + i = index + (i + 1) := fun i => by omega
      have hchannel : ∀ i, c + 2 + 2 * i = c + 2 * (i + 1) := fun i => by omega
      simp only [hnumber, hchannel, List.append_assoc, List.singleton_append] at h₂
      rw [List.mapIdx_cons, List.length_cons]
      exact h₂

/-- A machine can be wired to others, one after the other. -/
theorem connect (h : Drawn xs ks c net) (source : String) (hsource : ∃ x ∈ xs, x.name = source)
    {targets : List (String × Nat)} (hne : targets ≠ [])
    (htargets : ∀ t ∈ targets, ∃ y ∈ xs, y.name = t.1 ∧ y.inbox = t.2) :
    ∃ net', on (Network.connect source (targets.map (·.1))) net = (.ok (), net') ∧
      Drawn (xs.map (Site.extend source (targets.map (·.2)))) ks c net' := by
  obtain ⟨W⟩ := h.built.wiring
  have hbuilt := h.built.connect source (targets.map (·.1))
  rw [← h.sites_eq] at hsource htargets
  obtain ⟨net', hall, hsites, hsinks, hsize⟩ := W.connectAll_of_mem hsource htargets
  obtain ⟨x, hx, rfl⟩ := hsource
  obtain ⟨n, hn, -, hname⟩ := exists_node_of_site hx
  have hok : on (Network.connect x.name (targets.map (·.1))) net = (.ok (), net') := by
    have hsome : (targets.map (·.1)).isEmpty = false := by simpa using hne
    rw [on_connect, W.not_started, hsome, hn]
    show on (connectAll n.name _) net = _
    rw [hname, hall]
  rw [hok] at hbuilt
  refine ⟨net', hok, hbuilt, ?_, hsinks.trans h.sinks_eq, hsize.trans h.size_channels⟩
  rw [hsites, h.sites_eq]

/-- A machine can be given a sink with a new name. -/
theorem addSink (h : Drawn xs ks c net) {source : String} (hsource : ∃ x ∈ xs, x.name = source)
    (name : Option String) (hfresh : ∀ k ∈ ks, k.name ≠ name.getD (source ++ ".sink")) :
    ∃ net', on (Network.addSink source name) net =
        (.ok (name.getD (source ++ ".sink")), net') ∧
      Drawn (xs.map (Site.extend source [c]))
        (ks ++ [⟨name.getD (source ++ ".sink"), c, []⟩]) (c + 1) net' := by
  obtain ⟨W⟩ := h.built.wiring
  have hnone : net.sink? (name.getD (source ++ ".sink")) = none := by
    rw [sink?, h.sinks_eq]
    simpa [List.find?_eq_none] using hfresh
  have hok := W.addSink_of_mem (by rwa [h.sites_eq]) name hnone
  have hbuilt := h.built.addSink source name
  rw [hok] at hbuilt
  refine ⟨_, hok, hbuilt, ?_, ?_, ?_⟩
  · rw [W.sites_withSink, h.sites_eq, h.size_channels]
    rfl
  · show net.sinks ++ [⟨_, net.board.channels.size, []⟩] = _
    rw [h.sinks_eq, h.size_channels]
  · show (net.board.openChannel _).2.channels.size = _
    rw [Switchboard.size_channels_openChannel, h.size_channels]

end Drawn

theorem on_pairUp (mismatch : NetworkError) (programs : List (List Int))
    (preloads : Option (List (List Int))) (net : Network) :
    on (pairUp mismatch programs preloads) net =
      if (preloads.getD (programs.map fun _ => [])).length ≠ programs.length then
        (.error mismatch, net)
      else (.ok (programs.zip (preloads.getD (programs.map fun _ => []))), net) := by
  simp only [pairUp]
  by_cases hlen : (preloads.getD (programs.map fun _ => [])).length = programs.length
  · simp only [hlen, ne_eq, not_true, if_false]
    rfl
  · simp only [hlen, ne_eq, not_false_iff, if_true]
    rfl

end Network

end TapeNet
