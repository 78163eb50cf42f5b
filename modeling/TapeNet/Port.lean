/-! # Ports

    A machine talks to the outside world through a port: it demands a value
    or offers one, and the port replies.

    - `Demand` is what one step of a machine asks; `Reply` is the answer.
    - `Port σ` answers demands over a state `σ`, which stays with the caller.
    - `Port.silent` reads 0 and discards; `Buffer.port` serves a preset
      sequence of inputs and collects the outputs.
-/

namespace TapeNet

/-! ### Refusals -/

/-- Why an endpoint of a channel is of no use any more. -/
inductive Closure
  /-- nothing is queued and nothing can be sent any more -/
  | ended (channel : String)
  | receiverGone (channel : String)
  | senderClosed (channel : String)
  | cloneOfClosed (channel : String)
  /-- the port has no channel to read from -/
  | noInbound
  /-- the port has no channel to write to -/
  | noOutbound
deriving DecidableEq, Repr

def Closure.message : Closure → String
  | .ended channel => s!"{channel} is closed"
  | .receiverGone channel => s!"receiver of {channel} is gone"
  | .senderClosed channel => s!"send on closed sender of {channel}"
  | .cloneOfClosed channel => s!"cannot clone closed sender of {channel}"
  | .noInbound => "port has no inbound channel"
  | .noOutbound => "port has no outbound channel"

/-- Why a port gives or takes no value. -/
inductive PortError
  /-- the peer is gone -/
  | closed (cause : Closure)
  /-- the preset inputs are used up -/
  | exhausted
  /-- a value may still come, but nobody is left to send it now -/
  | wouldBlock
  /-- a drawing of an unknown tile -/
  | unknownTile (tile x y : Int)
deriving DecidableEq, Repr

def PortError.message : PortError → String
  | .closed cause => cause.message
  | .exhausted => "no more buffered input values"
  | .wouldBlock => "recv would block"
  | .unknownTile tile x y => s!"unknown tile id {tile} at ({x}, {y})"

/-! ### Demands and replies -/

/-- What one step of a machine asks of its port. -/
inductive Demand
  | silent
  | get
  | put (value : Int)
deriving DecidableEq, Repr

/-- The answer to a demand: a value, which is 0 where none was asked for, or a refusal. -/
abbrev Reply := Except PortError Int

/-- A port over a state. -/
structure Port (σ : Type) where
  get : σ → Reply × σ
  put : Int → σ → Reply × σ
  close : σ → σ

namespace Port

variable {σ : Type}

/-- Answers a demand; the port is left alone when nothing is asked. -/
def answer (P : Port σ) : Demand → σ → Reply × σ
  | .silent, s => (.ok 0, s)
  | .get, s => P.get s
  | .put v, s => P.put v s

/-- Puts values in turn, up to the first that is refused. -/
def putAll (P : Port σ) : List Int → σ → Reply × σ
  | [], s => (.ok 0, s)
  | v :: vs, s =>
    match P.put v s with
    | (.ok _, s) => P.putAll vs s
    | (.error e, s) => (.error e, s)

/-- Reads 0 and discards what is written. -/
def silent : Port Unit where
  get s := (.ok 0, s)
  put _ s := (.ok 0, s)
  close s := s

end Port

/-! ### Buffers -/

/-- Preset inputs, first to last, and the outputs collected so far. -/
structure Buffer where
  inputs : List Int
  outputs : Array Int
deriving DecidableEq, Repr

namespace Buffer

def ofInputs (vs : List Int) : Buffer := ⟨vs, #[]⟩

/-- Appends more inputs. -/
def feed (b : Buffer) (vs : List Int) : Buffer := { b with inputs := b.inputs ++ vs }

/-- The number of inputs not yet taken. -/
def remaining (b : Buffer) : Nat := b.inputs.length

def get (b : Buffer) : Reply × Buffer :=
  match b.inputs with
  | [] => (.error .exhausted, b)
  | v :: vs => (.ok v, { b with inputs := vs })

def put (v : Int) (b : Buffer) : Reply × Buffer :=
  (.ok 0, { b with outputs := b.outputs.push v })

def port : Port Buffer := ⟨get, put, id⟩

end Buffer

end TapeNet
