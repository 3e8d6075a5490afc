import SynapseGateway.BufferedLeg
import SynapseGateway.Engine
import SynapseGateway.Ledger
import SynapseGateway.Route

/-!
# Buffered chat

The legs of a route are walked until one gives a completion: on the standard
lane each leg's stream is buffered whole, on the native lane the first stream
that opens is collected. The completion is screened and its row written.
-/

namespace SynapseGateway

/-! ## The standard lane -/

/-- What waiting on a committed stream gives until it ends: its items, or `k`
of them before the idle bound passes. -/
def waits (items : List (Except LegError StreamItem)) : Option Nat → List Chunk
  | none => items.map Chunk.item
  | some k => (items.take k).map Chunk.item ++ [.idleTimeout]

def drain (provider model : String) (acc : Accumulator) : List Chunk → Except BufferedLegError Completion
  | [] => drained provider model acc
  | c :: chunks =>
    match drainStep provider model acc c with
    | .inl acc => drain provider model acc chunks
    | .inr r => r

inductive LegCall where
  | unbuilt
  | circuitOpen (name : String)
  | startFailed (e : StartError)
  | committed (items : List (Except LegError StreamItem)) (stall : Option Nat)

def bufferOneLegTimed (leg : ChainLeg) : LegCall → Except BufferedLegError Completion
  | .unbuilt => .error (.failed (.start ("unbuilt provider '" ++ leg.provider ++ "'")) "unbuilt_provider" none)
  | .circuitOpen name => .error (.circuitOpen name)
  | .startFailed e => .error (.failed e.intoLegError e.kind e.status)
  | .committed items stall => drain leg.provider leg.model {} (waits items stall)

def executeBufferedFrom (route : String) (failures : List LegFailure) (allCircuitOpen : Bool) :
    List (ChainLeg × LegCall) → Except GatewayError Completion
  | [] =>
    if allCircuitOpen && !failures.isEmpty then .error (.allCircuitsOpen route)
    else .error (.allLegsFailed route failures)
  | (leg, call) :: legs =>
    match bufferOneLegTimed leg call with
    | .ok c => .ok c
    | .error (.circuitOpen name) =>
      executeBufferedFrom route (failures ++ [⟨leg.provider, leg.model, "circuit open: " ++ name⟩]) allCircuitOpen legs
    | .error (.failed error _ _) =>
      executeBufferedFrom route (failures ++ [⟨leg.provider, leg.model, error.message⟩]) false legs

/-- Any failure of a leg moves to the next. -/
def executeBuffered (route : String) (legs : List (ChainLeg × LegCall)) : Except GatewayError Completion :=
  executeBufferedFrom route [] true legs

/-! ## The native lane -/

structure CommittedStream where
  provider : String
  model : String
  stream : List (Except LegError StreamItem)

def nativeStartRetryable : GatewayError → Bool
  | .upstream status _ => status ≥ 500 || status == 429 || status == 408
  | .upstreamTimeout => true
  | _ => false

/-- The first `vertex` leg whose stream opens. A call gives the stream or the
error of opening it. -/
def nativeFrom (route : String) (failures : List LegFailure) (lastRetryable : Option GatewayError) :
    List (ChainLeg × Except GatewayError (List (Except LegError StreamItem))) → Except GatewayError CommittedStream
  | [] => .error (lastRetryable.getD (.allLegsFailed route failures))
  | (leg, .ok stream) :: _ => .ok ⟨"vertex", leg.model, stream⟩
  | (leg, .error e) :: legs =>
    if nativeStartRetryable e then nativeFrom route (failures ++ [⟨leg.provider, leg.model, e.message⟩]) (some e) legs
    else .error e

def nativeCommitted (configured : Bool) (route : String)
    (legs : List (ChainLeg × Except GatewayError (List (Except LegError StreamItem)))) :
    Except GatewayError CommittedStream :=
  if !configured then .error (.badRequest "native vertex lane not configured")
  else
    let vertexLegs := legs.filter (·.1.provider == "vertex")
    if vertexLegs.isEmpty then .error (.nativeFeatureUnsupported "native-vertex" route)
    else nativeFrom route [] none vertexLegs

def collectFrom (acc : Accumulator) : List (Except LegError StreamItem) → Except GatewayError Accumulator
  | [] => .ok acc
  | .error e :: _ => .error (.upstream 502 e.message)
  | .ok item :: items => collectFrom (acc.push item) items

def collectCommitted (committed : CommittedStream) : Except GatewayError Completion :=
  (collectFrom {} committed.stream).map fun acc => acc.completion committed.provider committed.model

/-! ## The reply -/

structure ChatContext where
  route : String
  policy : String
  tenant : String
  attribution : Attribution
  requestId : String

inductive Lane where
  | standard | nativeVertex
deriving DecidableEq, Repr

def Lane.label : Lane → String
  | .standard => "standard"
  | .nativeVertex => "native"

def ChatContext.record (ctx : ChatContext) (lane : Lane) (c : Completion) (status : String) : UsageEntry where
  tenant := ctx.tenant
  attribution := ctx.attribution
  route := ctx.route
  provider := c.provider
  model := c.model
  lane := lane.label
  inputTokens := c.inputTokens
  outputTokens := c.outputTokens
  requestId := ctx.requestId
  status := status
  op := "chat"

def screenCompletion (llm : LlmGuard) (eng : GuardEngine) (policy : String) (c : Completion) : Completion × String :=
  if eng.hasOutput policy then
    let (scan, content, _) := eng.screenOutput llm policy c.content
    if scan.blockers.isEmpty then ({ c with content := content }, "ok")
    else ({ c with content := [], toolCalls := [], finishReason := .contentFilter }, "blocked")
  else (c, "ok")

/-- What a buffered chat call returns, and the rows it writes. -/
def chatRouted (llm : LlmGuard) (eng : GuardEngine) (ctx : ChatContext) (lane : Lane)
    (served : Except GatewayError Completion) : Except GatewayError Completion × List UsageEntry :=
  match served with
  | .error e => (.error e, [])
  | .ok c =>
    let (c, status) := screenCompletion llm eng ctx.policy c
    (.ok c, [ctx.record lane c status])

end SynapseGateway
