import TapeNet.Net.Network
import TapeNet.Proofs.Net.Accounts

/-! # Construction of networks

    What each operation that builds a network answers and leaves.

    - `NetworkM.on` runs an operation on a network.
    - `withMachine`, `withTarget` and `withSink` are the networks that the
      operations leave if they succeed; `on_addMachine`, `on_connectTo` and
      `on_addSink` say when they do.
    - `Built` are the networks that any sequence of these operations builds
      from an empty one, operations that fail included.
    - `KeepsLimit`: none of the operations changes the limit on the workers.
-/

namespace TapeNet

namespace NetworkM

variable {α β : Type}

/-- What an operation answers on a network, and the network it leaves. -/
def on (op : NetworkM α) (net : Network) : Except NetworkError α × Network := op.run.run net

theorem on_bind (op : NetworkM α) (f : α → NetworkM β) (net : Network) :
    on (op >>= f) net =
      match op.on net with
      | (.ok a, net) => (f a).on net
      | (.error e, net) => (.error e, net) := by
  show (ExceptT.run (ExceptT.bind op f)).run net = _
  unfold ExceptT.bind on
  simp only [ExceptT.run, ExceptT.mk, StateT.run_bind]
  rcases StateT.run op net with ⟨_ | _, _⟩ <;> rfl

theorem on_get (net : Network) : on get net = (.ok net, net) := rfl

theorem on_modify (f : Network → Network) (net : Network) :
    on (modify f) net = (.ok (), f net) := rfl

/-- An operation that succeeded goes on with its answer. -/
theorem on_bind_of_ok {op : NetworkM α} {f : α → NetworkM β} {net net' : Network} {a : α}
    (h : op.on net = (.ok a, net')) : on (op >>= f) net = (f a).on net' := by
  rw [on_bind, h]

end NetworkM

namespace Network

open NetworkM

/-! ### The networks that operations leave -/

/-- The network with one more machine. -/
def withMachine (net : Network) (name : String) (program inputs : List Int) : Network :=
  { net with
    board := ((net.board.openChannel (name ++ ".in")).2.openChannel (name ++ ".out")).2
    nodes := net.nodes ++ [{
      name
      inbox := net.board.channels.size
      outlet := net.board.senders.size + 1
      feed := net.board.senders.size
      machine := .load { name } program
      relay := .create (name ++ ".relay") (net.board.channels.size + 1) []
      preload := inputs }] }

/-- The network in which a node's relay has one more target. -/
def addTarget (net : Network) (source : String) (t : Nat) : Network :=
  net.onNode source fun n => { n with relay := n.relay.addTarget t }

/-- The network in which a node also sends to a channel. -/
def withTarget (net : Network) (source : String) (c : Nat) : Network :=
  let grown : Network := { net with board := net.board.withSender c }
  grown.addTarget source net.board.senders.size

/-- The network with one more sink. -/
def withSink (net : Network) (source name : String) : Network :=
  let grown : Network := { net with
    board := (net.board.openChannel name).2
    sinks := net.sinks ++ [⟨name, net.board.channels.size, []⟩] }
  grown.addTarget source net.board.senders.size

@[simp] theorem size_channels_withMachine (net : Network) (name : String)
    (program inputs : List Int) :
    (net.withMachine name program inputs).board.channels.size = net.board.channels.size + 2 := by
  simp [withMachine]

@[simp] theorem size_senders_withMachine (net : Network) (name : String)
    (program inputs : List Int) :
    (net.withMachine name program inputs).board.senders.size = net.board.senders.size + 2 := by
  simp [withMachine]

theorem sender_withMachine (net : Network) (name : String) (program inputs : List Int) (t : Nat) :
    (net.withMachine name program inputs).board.sender t =
      if t = net.board.senders.size + 1 then ⟨net.board.channels.size + 1, true⟩
      else if t = net.board.senders.size then ⟨net.board.channels.size, true⟩
      else net.board.sender t := by
  simp [withMachine, Switchboard.sender_openChannel]

theorem channel_withMachine (net : Network) (name : String) (program inputs : List Int) (c : Nat) :
    (net.withMachine name program inputs).board.channel c =
      if c = net.board.channels.size + 1 then ⟨name ++ ".out", [], 1, true⟩
      else if c = net.board.channels.size then ⟨name ++ ".in", [], 1, true⟩
      else net.board.channel c := by
  simp [withMachine, Switchboard.channel_openChannel]

theorem mem_onNode {net : Network} {name : String} {f : Node → Node} {n : Node} :
    n ∈ (net.onNode name f).nodes ↔
      ∃ m ∈ net.nodes, n = if m.name = name then f m else m := by
  simp only [onNode, List.mem_map, eq_comm]

/-- A change of a node that keeps its name keeps all names. -/
theorem names_onNode (net : Network) (name : String) {f : Node → Node}
    (hf : ∀ n, (f n).name = n.name) :
    (net.onNode name f).nodes.map (·.name) = net.nodes.map (·.name) := by
  show (net.nodes.map _).map _ = _
  rw [List.map_map]
  refine List.map_congr_left fun n _ => ?_
  show (if n.name = name then f n else n).name = n.name
  split
  · exact hf n
  · rfl

/-! ### What the operations do -/

theorem on_checkNotStarted (net : Network) :
    on checkNotStarted net = (if net.started then .error .alreadyRun else .ok (), net) := by
  simp only [checkNotStarted, on_bind, on_get]
  cases net.started <;> rfl

theorem on_openChannel (net : Network) (name : String) :
    on (openChannel name) net =
      (.ok (net.board.openChannel name).1,
        { net with board := (net.board.openChannel name).2 }) := rfl

theorem on_node (net : Network) (name : String) :
    on (node name) net =
      match net.node? name with
      | some n => (.ok n, net)
      | none => (.error (.unknownNode name), net) := by
  simp only [node, on_bind, on_get]
  cases net.node? name <;> rfl

theorem on_addMachine (net : Network) (name : String) (program inputs : List Int) :
    on (addMachine name program inputs) net =
      if net.started then (.error .alreadyRun, net)
      else if (net.node? name).isSome then (.error (.duplicateNode name), net)
      else (.ok (), net.withMachine name program inputs) := by
  simp only [addMachine, on_bind, on_checkNotStarted]
  cases net.started with
  | true => rfl
  | false =>
    simp only [Bool.false_eq_true, if_false, on_get]
    cases (net.node? name).isSome with
    | true => rfl
    | false =>
      simp only [Bool.false_eq_true, if_false, on_bind, on_openChannel, on_modify]
      simp [withMachine, Switchboard.openChannel]

theorem on_feed (net : Network) (name : String) (values : List Int) :
    on (feed name values) net =
      if net.started then (.error .alreadyRun, net)
      else match net.node? name with
        | some n =>
          (.ok (), net.onNode n.name fun n => { n with preload := n.preload ++ values })
        | none => (.error (.unknownNode name), net) := by
  simp only [feed, on_bind, on_checkNotStarted]
  cases net.started with
  | true => rfl
  | false =>
    simp only [Bool.false_eq_true, if_false, on_node]
    cases net.node? name <;> rfl

/-- Wiring to a node whose feed is open gives its inbox one more sender. -/
theorem on_connectTo {net : Network} {target : String} {n : Node}
    (hn : net.node? target = some n) (ho : (net.board.sender n.feed).isOpen = true)
    (source : String) :
    on (connectTo source target) net =
      (.ok (), net.withTarget source (net.board.sender n.feed).channel) := by
  simp only [connectTo, on_bind, on_node, hn, on_get]
  rw [Switchboard.clone_of_isOpen ho]
  rfl

theorem on_connectTo_of_none {net : Network} {target : String} (hn : net.node? target = none)
    (source : String) :
    on (connectTo source target) net = (.error (.unknownNode target), net) := by
  simp only [connectTo, on_bind, on_node, hn]

theorem on_connectAll_cons (net : Network) (source target : String) (targets : List String) :
    on (connectAll source (target :: targets)) net =
      on (connectTo source target >>= fun _ => connectAll source targets) net := rfl

theorem on_connect (net : Network) (source : String) (targets : List String) :
    on (connect source targets) net =
      if net.started then (.error .alreadyRun, net)
      else if targets.isEmpty then (.error .noTargets, net)
      else match net.node? source with
        | some n => on (connectAll n.name targets) net
        | none => (.error (.unknownNode source), net) := by
  simp only [connect, on_bind, on_checkNotStarted]
  cases net.started with
  | true => rfl
  | false =>
    simp only [Bool.false_eq_true, if_false]
    cases targets.isEmpty with
    | true => rfl
    | false =>
      simp only [Bool.false_eq_true, if_false, on_bind, on_node]
      cases net.node? source <;> rfl

theorem on_addSink (net : Network) (source : String) (name : Option String) :
    on (addSink source name) net =
      if net.started then (.error .alreadyRun, net)
      else if (net.sink? (name.getD (source ++ ".sink"))).isSome then
        (.error (.duplicateSink (name.getD (source ++ ".sink"))), net)
      else match net.node? source with
        | some n =>
          (.ok (name.getD (source ++ ".sink")),
            net.withSink n.name (name.getD (source ++ ".sink")))
        | none => (.error (.unknownNode source), net) := by
  simp only [addSink, on_bind, on_checkNotStarted]
  cases net.started with
  | true => rfl
  | false =>
    simp only [Bool.false_eq_true, if_false, on_get]
    cases (net.sink? (name.getD (source ++ ".sink"))).isSome with
    | true => rfl
    | false =>
      simp only [Bool.false_eq_true, if_false, on_bind, on_node]
      cases net.node? source <;> rfl

/-! ### Networks that can be built -/

/-- A network that was built by these operations from an empty one. -/
inductive Built : Network → Prop
  | empty (maxWorkers : Option Int) : Built (.empty maxWorkers)
  | addMachine {net : Network} (name : String) (program inputs : List Int) :
      Built net → Built (on (addMachine name program inputs) net).2
  | feed {net : Network} (name : String) (values : List Int) :
      Built net → Built (on (feed name values) net).2
  | connect {net : Network} (source : String) (targets : List String) :
      Built net → Built (on (connect source targets) net).2
  | addSink {net : Network} (source : String) (name : Option String) :
      Built net → Built (on (addSink source name) net).2

/-! ### The limit on the workers -/

/-- The operation leaves the limit on the workers as it is. -/
def KeepsLimit {α : Type} (op : NetworkM α) : Prop :=
  ∀ net, (op.on net).2.maxWorkers = net.maxWorkers

theorem keepsLimit_pure {α : Type} (a : α) : KeepsLimit (pure a) := fun _ => rfl

theorem keepsLimit_throw {α : Type} (e : NetworkError) : KeepsLimit (throw e : NetworkM α) :=
  fun _ => rfl

theorem KeepsLimit.bind {α β : Type} {op : NetworkM α} {f : α → NetworkM β} (h : KeepsLimit op)
    (hf : ∀ a, KeepsLimit (f a)) : KeepsLimit (op >>= f) := by
  intro net
  have hop := h net
  rw [on_bind]
  rcases hon : op.on net with ⟨e | a, net'⟩ <;> rw [hon] at hop
  · exact hop
  · exact (hf a net').trans hop

theorem keepsLimit_addMachine (name : String) (program inputs : List Int) :
    KeepsLimit (addMachine name program inputs) := by
  intro net
  rw [on_addMachine]
  split
  · rfl
  · split
    · rfl
    · rfl

theorem keepsLimit_connectTo (source target : String) : KeepsLimit (connectTo source target) := by
  intro net
  simp only [connectTo, on_bind, on_node]
  cases net.node? target with
  | none => rfl
  | some n =>
    simp only [on_get]
    rcases net.board.clone n.feed with ⟨e | t, b⟩
    · rfl
    · rfl

theorem keepsLimit_connectAll (source : String) (targets : List String) :
    KeepsLimit (connectAll source targets) := by
  induction targets with
  | nil => exact keepsLimit_pure ()
  | cons target targets ih => exact (keepsLimit_connectTo source target).bind fun _ => ih

theorem keepsLimit_connect (source : String) (targets : List String) :
    KeepsLimit (connect source targets) := by
  intro net
  rw [on_connect]
  split
  · rfl
  · split
    · rfl
    · split
      · exact keepsLimit_connectAll _ _ net
      · rfl

theorem keepsLimit_addSink (source : String) (name : Option String) :
    KeepsLimit (addSink source name) := by
  intro net
  rw [on_addSink]
  split
  · rfl
  · split
    · rfl
    · split
      · rfl
      · rfl

/-- A network with machines and without a limit may be run once. -/
theorem obstacle_eq_none {net : Network} (hstarted : net.started = false) (hne : net.nodes ≠ [])
    (hlimit : net.maxWorkers = none) : net.obstacle = none := by
  have hempty : net.nodes.isEmpty = false := by simpa using hne
  rw [obstacle, hstarted, hempty, workersAllowed, hlimit]
  simp

end Network

end TapeNet
