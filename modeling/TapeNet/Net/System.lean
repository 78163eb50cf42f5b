import TapeNet.Net.Switchboard

/-! # Systems of workers

    A process makes one request after the other and goes on with the reply;
    it has finished when it makes none. A system runs many workers over one
    switchboard, in any interleaving.

    - A worker is `ready` if it has a request that does not block;
      `advance i` serves the request of worker `i`.
    - `Step` and `Reaches` are the interleavings: one step of one worker
      that is ready, and any number of such steps.
    - `follow` runs a given schedule, `run` the workers in turn, round by
      round, until all have finished. Both are interleavings
      (`reaches_follow`, `reaches_of_run`).
-/

namespace TapeNet

/-- A process that uses a switchboard. -/
class Process (α : Type) where
  /-- the next request; a process without one has finished -/
  request : α → Option Request
  /-- the process once its request is answered -/
  resume : α → Reply → α

namespace Process

variable {α β : Type}

/-- Runs a process alone, so that a request that would have to wait is refused; `none` if the
    fuel runs out. -/
def runAlone [Process α] : Nat → α → Switchboard → Option (α × Switchboard)
  | 0, _, _ => none
  | fuel + 1, p, b =>
    match request p with
    | none => some (p, b)
    | some r =>
      let (reply, b) := b.serve r
      runAlone fuel (resume p reply) b

/-- Two kinds of processes side by side. -/
instance [Process α] [Process β] : Process (α ⊕ β) where
  request
    | .inl p => request p
    | .inr p => request p
  resume
    | .inl p, reply => .inl (resume p reply)
    | .inr p, reply => .inr (resume p reply)

end Process

/-! ### State -/

structure System (α : Type) where
  board : Switchboard
  workers : Array α

namespace System

variable {α : Type} [Process α]

/-- The next request of a worker. -/
def request (s : System α) (i : Nat) : Option Request :=
  s.workers[i]?.bind Process.request

/-- Whether a worker can take a step. -/
def ready (s : System α) (i : Nat) : Bool :=
  match s.request i with
  | some r => !s.board.blocks r
  | none => false

/-- Whether all workers have finished. -/
def finished (s : System α) : Bool := s.workers.all fun w => (Process.request w).isNone

/-- The system once a request of worker `i` is served. -/
def serve (s : System α) (i : Nat) (r : Request) : System α :=
  let ⟨board, workers⟩ := s
  let (reply, board) := board.serve r
  ⟨board, workers.modify i fun w => Process.resume w reply⟩

/-- The system once the next request of worker `i` is served. -/
def advance (s : System α) (i : Nat) : System α :=
  match s.request i with
  | none => s
  | some r => s.serve i r

/-- The system once it was worker `i`'s turn: it advances if it is ready. -/
def turn (s : System α) (i : Nat) : System α :=
  match s.request i with
  | none => s
  | some r => if s.board.blocks r then s else s.serve i r

/-! ### Interleavings -/

/-- One step of one worker that is ready. -/
inductive Step : System α → System α → Prop
  | worker {s : System α} (i : Nat) (h : s.ready i = true) : Step s (s.advance i)

/-- Any number of steps. -/
inductive Reaches : System α → System α → Prop
  | refl (s : System α) : Reaches s s
  | step {s t u : System α} : Reaches s t → Step t u → Reaches s u

theorem Reaches.trans {s t u : System α} (h : Reaches s t) (h' : Reaches t u) : Reaches s u := by
  induction h' with
  | refl => exact h
  | step _ st ih => exact .step ih st

theorem reaches_turn (s : System α) (i : Nat) : Reaches s (s.turn i) := by
  cases hr : s.request i with
  | none => simpa [turn, hr] using Reaches.refl s
  | some r =>
    cases hb : s.board.blocks r with
    | true => simpa [turn, hr, hb] using Reaches.refl s
    | false =>
      have h : s.ready i = true := by simp [ready, hr, hb]
      have ht : s.turn i = s.advance i := by simp [turn, advance, hr, hb]
      rw [ht]
      exact .step (.refl s) (.worker i h)

/-! ### Schedules -/

/-- Runs a schedule: the workers whose turn it is, in order. -/
def follow (s : System α) : List Nat → System α
  | [] => s
  | i :: schedule => (s.turn i).follow schedule

theorem reaches_follow (s : System α) (schedule : List Nat) : Reaches s (s.follow schedule) := by
  induction schedule generalizing s with
  | nil => exact .refl s
  | cons i schedule ih => exact (reaches_turn s i).trans (ih _)

/-- Gives every worker its turn, round by round, until all have finished; `none` if that takes
    more rounds than there is fuel. -/
def run : Nat → System α → Option (System α)
  | 0, _ => none
  | fuel + 1, s =>
    if s.finished then some s else run fuel (s.follow (List.range s.workers.size))

/-- More fuel does not change the end of a run. -/
theorem run_add {fuel : Nat} (extra : Nat) {s t : System α} (h : run fuel s = some t) :
    run (fuel + extra) s = some t := by
  induction fuel generalizing s with
  | zero => cases h
  | succ fuel ih =>
    rw [Nat.succ_add, run]
    rw [run] at h
    split at h
    · next hf => rwa [if_pos hf]
    · next hf =>
      rw [if_neg hf]
      exact ih h

/-- A run is one of the interleavings, and it ends when all workers have finished. -/
theorem reaches_of_run {fuel : Nat} {s t : System α} (h : run fuel s = some t) :
    Reaches s t ∧ t.finished = true := by
  induction fuel generalizing s with
  | zero => cases h
  | succ fuel ih =>
    rw [run] at h
    split at h
    · next hf => cases h; exact ⟨.refl _, hf⟩
    · obtain ⟨h1, h2⟩ := ih h
      exact ⟨(reaches_follow _ _).trans h1, h2⟩

end System

end TapeNet
