import SynapseGateway.Ledger
import SynapseGateway.Output
import SynapseGateway.Stream

/-!
# The guarded stream

A streaming reply: upstream items are screened into a queue of items to yield,
and the usage row is written when the stream is dropped.
-/

namespace SynapseGateway

open String (utf8Len)
open Utf8

/-- Running usage of a streamed response; fires its row once, when dropped. -/
structure StreamSideEffects where
  route : String
  tenant : String
  attribution : Attribution
  provider : String
  model : String
  lane : String
  requestId : String
  inputTokens : Nat := 0
  outputTokens : Nat := 0
  status : String := "ok"
  fired : Bool := false
deriving DecidableEq

def StreamSideEffects.new (route tenant : String) (attribution : Attribution) (provider model lane requestId : String) :
    StreamSideEffects where
  route := route
  tenant := tenant
  attribution := attribution
  provider := provider
  model := model
  lane := lane
  requestId := requestId

def StreamSideEffects.observe (e : StreamSideEffects) : StreamItem → StreamSideEffects
  | .done inputTokens outputTokens _ => { e with inputTokens := inputTokens, outputTokens := outputTokens }
  | _ => e

def StreamSideEffects.markError (e : StreamSideEffects) : StreamSideEffects := { e with status := "error" }

def StreamSideEffects.markBlocked (e : StreamSideEffects) : StreamSideEffects := { e with status := "blocked" }

def StreamSideEffects.drop (e : StreamSideEffects) : List UsageEntry × StreamSideEffects :=
  if e.fired then ([], e)
  else
    ([{ tenant := e.tenant
        attribution := e.attribution
        route := e.route
        provider := e.provider
        model := e.model
        lane := e.lane
        inputTokens := e.inputTokens
        outputTokens := e.outputTokens
        requestId := e.requestId
        status := e.status
        op := "chat" }],
      { e with fired := true })

inductive Poll where
  | pending
  | item (r : Except LegError StreamItem)
  | finished

/-- An upstream body: what each poll returns until it is `finished`. -/
abbrev Upstream := List (Option (Except LegError StreamItem))

structure GuardedStream where
  inner : Upstream
  guard : StreamSideEffects
  policy : String
  output : Option OutputGuard
  queue : List (Except LegError StreamItem)
  ended : Bool

def GuardedStream.new (inner : Upstream) (guard : StreamSideEffects) (policy : String) (output : Option OutputGuard) :
    GuardedStream where
  inner := inner
  guard := guard
  policy := policy
  output := output
  queue := []
  ended := false

def GuardedStream.pushText (s : GuardedStream) (t : Text) : GuardedStream :=
  if t.isEmpty then s else { s with queue := s.queue ++ [.ok (.delta t)] }

/-- End the stream: a `content_filter` `Done`, the `Blocked` item, and no more
upstream reads. -/
def GuardedStream.block (s : GuardedStream) (scanners : List String) : GuardedStream :=
  let s := { s with guard := s.guard.markBlocked }
  { s with
    queue := s.queue ++ [.ok (.done s.guard.inputTokens s.guard.outputTokens .contentFilter),
      .ok (.blocked s.policy scanners)]
    inner := []
    ended := true }

variable (llm : LlmGuard) (eng : GuardEngine)

/-- Queue `item`, passing delta text through the output guard. Tool-call deltas
and `Done` flush held text first, so order is kept. -/
def GuardedStream.screen (s : GuardedStream) (item : StreamItem) : GuardedStream :=
  match s.output with
  | none => { s with queue := s.queue ++ [.ok item] }
  | some g =>
    let step := match item with
      | .delta t => g.push llm eng t
      | _ => g.flush llm eng
    let s := { s with output := some step.next }
    match step.release with
    | .blocked scanners => s.block scanners
    | .text t =>
      let s := s.pushText t
      match item with
      | .delta _ => s
      | _ => { s with queue := s.queue ++ [.ok item] }

def GuardedStream.releaseHeld (s : GuardedStream) (release : OutputGuard → OutputStep) : GuardedStream :=
  match s.output with
  | none => s
  | some g =>
    let step := release g
    let s := { s with output := some step.next }
    match step.release with
    | .text t => s.pushText t
    | .blocked scanners => s.block scanners

/-- Queue an upstream error after the text held before it. A block replaces
the error. -/
def GuardedStream.fail (s : GuardedStream) (e : LegError) : GuardedStream :=
  let s := { s with guard := s.guard.markError }
  let s := s.releaseHeld fun g => g.flush llm eng
  if s.ended then s else { s with queue := s.queue ++ [.error e] }

def GuardedStream.receive (s : GuardedStream) : Option (Except LegError StreamItem) → GuardedStream
  | some (.ok item) => { s with guard := s.guard.observe item }.screen llm eng item
  | some (.error e) => s.fail llm eng e
  | none => { s.releaseHeld fun g => g.finish llm eng with ended := true }

structure Polled where
  poll : Poll
  next : GuardedStream
  upstream : List Poll

/-- The poll loop. `inner` is the upstream as the loop sees it: each round
reads `s.inner`, which is `inner` unless the stream has ended. -/
def GuardedStream.pollFrom : Upstream → GuardedStream → Polled
  | inner, s =>
    match s.queue with
    | r :: queue => ⟨.item r, { s with queue := queue }, []⟩
    | [] =>
      if s.ended then ⟨.finished, s, []⟩
      else
        match inner with
        | [] =>
          let s := s.receive llm eng none
          match s.queue with
          | r :: queue => ⟨.item r, { s with queue := queue }, [.finished]⟩
          | [] => ⟨.finished, s, [.finished]⟩
        | none :: inner => ⟨.pending, { s with inner := inner }, [.pending]⟩
        | some r :: inner =>
          let p := GuardedStream.pollFrom inner ({ s with inner := inner }.receive llm eng (some r))
          { p with upstream := .item r :: p.upstream }

def GuardedStream.pollNext (s : GuardedStream) : Polled := s.pollFrom llm eng s.inner

def GuardedStream.polls (s : GuardedStream) : Nat → List Polled × GuardedStream
  | 0 => ([], s)
  | n + 1 =>
    let p := s.pollNext llm eng
    let (ps, s') := p.next.polls n
    (p :: ps, s')

def GuardedStream.drop (s : GuardedStream) : List UsageEntry := s.guard.drop.1

end SynapseGateway
