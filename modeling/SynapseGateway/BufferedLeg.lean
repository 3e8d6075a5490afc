import SynapseGateway.Resilience
import SynapseGateway.Stream

/-!
# A buffered leg

One leg of the buffered executor: the stream is opened under the provider's
breaker and retry policy, then drained into an accumulator. Legs of concurrent
requests share the breaker, so a leg is a state machine and a run interleaves
the steps of any number of legs.
-/

namespace SynapseGateway

inductive StartError where
  | genai (message kind : String) (status : Option Nat) (retryable : Bool)
  | firstChunkTimeout
  | emptyStream
deriving DecidableEq, Repr

def StartError.isRetryable : StartError → Bool
  | .genai _ _ _ retryable => retryable
  | .firstChunkTimeout | .emptyStream => false

def StartError.kind : StartError → String
  | .genai _ kind _ _ => kind
  | .firstChunkTimeout => "first_chunk_timeout"
  | .emptyStream => "empty_stream"

def StartError.status : StartError → Option Nat
  | .genai _ _ status _ => status
  | .firstChunkTimeout | .emptyStream => none

def StartError.intoLegError : StartError → LegError
  | .genai message _ _ _ => .start message
  | .firstChunkTimeout => .start "first-chunk timeout"
  | .emptyStream => .start "empty stream"

inductive BufferedLegError where
  | circuitOpen (name : String)
  | failed (error : LegError) (kind : String) (status : Option Nat)
deriving DecidableEq, Repr

inductive Chunk where
  | idleTimeout
  | item (r : Except LegError StreamItem)
  | finished

def drained (provider model : String) (acc : Accumulator) : Except BufferedLegError Completion :=
  if acc.gotDone then .ok (acc.completion provider model)
  else .error (.failed (.midStream "stream ended before completion") "incomplete_stream" none)

/-- A round of the loop that drains a committed stream: it goes on with an
accumulator, or the leg returns. -/
def drainStep (provider model : String) (acc : Accumulator) :
    Chunk → Accumulator ⊕ Except BufferedLegError Completion
  | .idleTimeout => .inr (.error (.failed (.midStream "idle timeout") "idle_timeout" none))
  | .item (.ok item) => .inl (acc.push item)
  | .item (.error error) => .inr (.error (.failed error "mid_stream" none))
  | .finished => .inr (drained provider model acc)

inductive Leg where
  | starting (retries : Nat)
  | draining (acc : Accumulator)
  | returned (r : Except BufferedLegError Completion)
deriving DecidableEq

structure Provider where
  id : String
  breaker : CircuitBreaker
  maxAttempts : Nat
deriving DecidableEq

/-- What happens to a leg: it is called, an attempt to open its stream gives
the first item or an error, or its stream gives the next chunk. -/
inductive LegEvent where
  | call
  | attempt (r : Except StartError StreamItem)
  | chunk (c : Chunk)

inductive Mark where
  | failure
  | firstChunk
  | success
deriving DecidableEq, Repr

/-- One step of a leg at time `now`; `none` is a leg that was not called yet. -/
def legStep (model : String) (p : Provider) (now : Nat) : Option Leg → LegEvent → Option (Provider × Leg × Option Mark)
  | none, .call =>
    match p.breaker.guard now with
    | (true, b) => some ({ p with breaker := b }, .starting 0, none)
    | (false, b) => some ({ p with breaker := b }, .returned (.error (.circuitOpen b.name)), none)
  | some (.starting retries), .attempt r =>
    match r with
    | .ok first =>
      -- the first item is put back in front of the stream, so the loop reads it first
      some ({ p with breaker := p.breaker.record true now }, .draining (({} : Accumulator).push first), some .firstChunk)
    | .error e =>
      if e.isRetryable && retries < p.maxAttempts - 1 then some (p, .starting (retries + 1), none)
      else some ({ p with breaker := p.breaker.record false now },
        .returned (.error (.failed e.intoLegError e.kind e.status)), some .failure)
  | some (.draining acc), .chunk c =>
    match drainStep p.id model acc c with
    | .inl acc => some (p, .draining acc, none)
    | .inr (.ok done) => some (p, .returned (.ok done), some .success)
    | .inr (.error e) => some ({ p with breaker := p.breaker.record false now }, .returned (.error e), some .failure)
  | _, _ => none

/-- The legs of one provider, each with the model it calls. -/
structure LegSystem where
  provider : Provider
  models : Nat → String
  legs : Nat → Option Leg

structure LegStep where
  now : Nat
  id : Nat
  event : LegEvent

/-- The marks of a run, the newest first. -/
abbrev History := List (Nat × Mark)

def LegSystem.step (s : LegSystem) (e : LegStep) : Option (LegSystem × Option Mark) :=
  (legStep (s.models e.id) s.provider e.now (s.legs e.id) e.event).map fun (p, leg, mark) =>
    (⟨p, s.models, fun id => if id = e.id then some leg else s.legs id⟩, mark)

def LegSystem.run : LegSystem → History → List LegStep → Option (LegSystem × History)
  | s, h, [] => some (s, h)
  | s, h, e :: es =>
    match s.step e with
    | none => none
    | some (s, mark) => run s (mark.toList.map (fun m => (e.now, m)) ++ h) es

end SynapseGateway
