import Mathlib.Data.List.Sort
import Mathlib.Data.PNat.Basic
import Mathlib.Algebra.GroupWithZero.Nat
import SynapseGateway.GuardLane
import SynapseGateway.Lib.Chunks
import SynapseGateway.Route

/-!
# Embeddings

A list of inputs is embedded by the first leg of its alias that answers, in
batches of the provider's size. `F` is the type of a vector's components; how an
answer's JSON reads as a response is part of the reply.
-/

namespace SynapseGateway

open Utf8 (Text)

structure EmbedOut (F : Type) where
  vectors : List (List F)
  inputTokens : Nat

inductive EmbeddingInput where
  | one (s : Text)
  | many (v : List Text)

def EmbeddingInput.intoVec : EmbeddingInput → List Text
  | .one s => [s]
  | .many v => v

structure EmbeddingRequest where
  input : EmbeddingInput
  model : String
  dimensions : Option Nat := none

structure EmbeddingData (F : Type) where
  object : String
  index : Nat
  embedding : List F

structure EmbeddingResponse (F : Type) where
  object : String
  data : List (EmbeddingData F)
  model : String
  promptTokens : Nat
  totalTokens : Nat

variable {F : Type}

def buildResponse (model : String) (out : EmbedOut F) : EmbeddingResponse F where
  object := "list"
  data := out.vectors.zipIdx.map fun (embedding, index) => ⟨"embedding", index, embedding⟩
  model := model
  promptTokens := out.inputTokens
  totalTokens := out.inputTokens

def splitBatches (inputs : List Text) (limit : ℕ+) : List (List Text) := Chunks.chunks limit inputs

/-! ## Providers -/

structure RespPrediction (F : Type) where
  values : List F
  tokenCount : Option Nat := none

structure PredictResp (F : Type) where
  predictions : List (RespPrediction F)

structure RespDatum (F : Type) where
  index : Nat
  embedding : List F

structure EmbedResp (F : Type) where
  data : List (RespDatum F)
  totalTokens : Option Nat := none

inductive EmbedReply (R : Type) where
  | auth (e : String)
  | send (e : String)
  | status (code : Nat) (body : String)
  | body (e : String)
  | parse (e : String)
  | response (r : R)

def EmbedReply.read {R : Type} (label : String) : EmbedReply R → Except GatewayError R
  | .auth e => .error (.upstream 502 (label ++ " auth: " ++ e))
  | .send e => .error (.upstream 502 (label ++ " embed send: " ++ e))
  | .status code text => .error (.upstream code text)
  | .body e => .error (.upstream 502 (label ++ " embed body: " ++ e))
  | .parse e => .error (.upstream 502 (label ++ " embed parse: " ++ e))
  | .response r => .ok r

def parsePredictResponse (r : PredictResp F) : EmbedOut F where
  vectors := r.predictions.map (·.values)
  inputTokens := (r.predictions.map fun p => p.tokenCount.getD 0).sum % 2 ^ 64

def RespDatum.le (a b : RespDatum F) : Prop := a.index ≤ b.index

instance : DecidableRel (RespDatum.le (F := F)) := fun a b => inferInstanceAs (Decidable (a.index ≤ b.index))

def parseOpenaiResponse (r : EmbedResp F) : EmbedOut F where
  vectors := (r.data.insertionSort RespDatum.le).map (·.embedding)
  inputTokens := r.totalTokens.getD 0

/-- A provider's embedder. It is asked for batch `batch` of leg `leg` with the model, the
inputs and the dimension, and need not answer two calls alike. -/
inductive Embedder (F : Type) where
  | vertex (ask : (leg batch : Nat) → String → List Text → Nat → EmbedReply (PredictResp F))
  | openai (ask : (leg batch : Nat) → String → List Text → Nat → EmbedReply (EmbedResp F))

def Embedder.embed (e : Embedder F) (leg batch : Nat) (model : String) (inputs : List Text) (dims : Nat) :
    Except GatewayError (EmbedOut F) :=
  match e with
  | .vertex ask => ((ask leg batch model inputs dims).read "vertex").map parsePredictResponse
  | .openai ask => ((ask leg batch model inputs dims).read "openai").map parseOpenaiResponse

/-- A call to a provider: batch `batch` of leg `number`. -/
structure EmbedCall where
  number : Nat
  leg : ChainLeg
  batch : Nat
  inputs : List Text
  dims : Nat

/-- The batches from number `batch` on, each sent and then read. -/
def Embedder.batchesLane (e : Embedder F) (number : Nat) (leg : ChainLeg) (dims : Nat) :
    Nat → List (List Text) → LaneM EmbedCall (EmbedOut F)
  | _, [] => pure ⟨[], 0⟩
  | batch, inputs :: rest => do
    Trace.emit (.sent ⟨number, leg, batch, inputs, dims⟩)
    let out ← Trace.lift (e.embed number batch leg.model inputs dims)
    let outs ← e.batchesLane number leg dims (batch + 1) rest
    pure ⟨out.vectors ++ outs.vectors, (out.inputTokens + outs.inputTokens) % 2 ^ 64⟩

def Embedder.embedAllBatches (e : Embedder F) (number : Nat) (leg : ChainLeg) (inputs : List Text) (dims : Nat)
    (limit : ℕ+) : Except GatewayError (EmbedOut F) :=
  (e.batchesLane number leg dims 0 (splitBatches inputs limit)).result

/-! ## The request -/

structure EmbeddingEntry where
  dimensions : Nat
  legs : List ChainLeg
  policy : Option String := none

structure EmbedGateway (F : Type) where
  embedRoutes : List (String × EmbeddingEntry)
  embedders : String → Option (Embedder F)
  guard : GuardEngine := ⟨[]⟩
  defaultTenant : String := "default"
  taskTypeOf : String → String := fun _ => "simple"

def VERTEX_EMBED_BATCH : ℕ+ := 250
def OPENAI_EMBED_BATCH : ℕ+ := 2048

def embedBatchLimit (provider : String) : ℕ+ := if provider = "vertex" then VERTEX_EMBED_BATCH else OPENAI_EMBED_BATCH

def embeddingLeaves (inputs : List Text) : List Segment := inputs.map fun s => [s]

/-- A request that may go to a provider: its alias, its inputs after masking, and whether
the guard masked any. -/
structure AdmittedEmbedding where
  entry : EmbeddingEntry
  inputs : List Text
  masked : Bool

/-- The entry a request asks for. -/
def EmbedGateway.entryOf (g : EmbedGateway F) (req : EmbeddingRequest) : Except GatewayError EmbeddingEntry :=
  match g.embedRoutes.lookup req.model with
  | none => .error (.unknownModel req.model)
  | some entry =>
    match req.dimensions.filter (· != entry.dimensions) with
    | some d => .error (.badRequest ("dimensions " ++ toString d ++ " does not match embedding alias '" ++ req.model ++
        "' dimension " ++ toString entry.dimensions))
    | none => .ok entry

def EmbedGateway.admit (llm : LlmGuard) (g : EmbedGateway F) (req : EmbeddingRequest) :
    Except GatewayError AdmittedEmbedding := do
  let entry ← g.entryOf req
  let (screened, segments) :=
    g.guard.screen llm (entry.policy.getD "default") .embeddings (embeddingLeaves req.input.intoVec)
  let masked ← screened.outcome
  .ok ⟨entry, segments.map (·.headD []), masked⟩

def EmbedGateway.embedRow (g : EmbedGateway F) (ctx : RequestCtx) (routeAlias requestId : String) (leg : ChainLeg)
    (inputTokens : Nat) : UsageEntry where
  tenant := ctx.tenant.getD g.defaultTenant
  attribution := ctx.attributionOf g.taskTypeOf routeAlias
  route := routeAlias
  provider := leg.provider
  model := leg.model
  lane := "embedding"
  inputTokens := inputTokens
  outputTokens := 0
  requestId := requestId
  status := "ok"
  op := "embedding"

/-! ## The lane -/

/-- The legs from number `i` on: the first whose batches are all answered serves the
request. A provider with no embedder is passed over. -/
def EmbedGateway.legsLane (g : EmbedGateway F) (limit : String → ℕ+) (inputs : List Text) (dims : Nat)
    (routeAlias : String) : Nat → Option GatewayError → List ChainLeg → LaneM EmbedCall (ChainLeg × EmbedOut F)
  | _, lastErr, [] => .fail (lastErr.getD (.allLegsFailed routeAlias []))
  | i, lastErr, leg :: legs =>
    match g.embedders leg.provider with
    | none => g.legsLane limit inputs dims routeAlias (i + 1) lastErr legs
    | some e =>
      (do let out ← e.batchesLane i leg dims 0 (splitBatches inputs (limit leg.provider)); pure (leg, out)).recover
        fun err => g.legsLane limit inputs dims routeAlias (i + 1) (some err) legs

def EmbedGateway.embedLegs (g : EmbedGateway F) (limit : String → ℕ+) (inputs : List Text) (dims : Nat)
    (routeAlias : String) (i : Nat) (lastErr : Option GatewayError) (legs : List ChainLeg) :
    Except GatewayError (ChainLeg × EmbedOut F) :=
  (g.legsLane limit inputs dims routeAlias i lastErr legs).result

def EmbedGateway.laneCtx (g : EmbedGateway F) (ctx : RequestCtx) (uuid : String) : LaneCtx where
  tenant := ctx.tenant.getD g.defaultTenant
  attribution := ctx.attributionOf g.taskTypeOf
  requestId := ctx.requestIdOr uuid

/-- `uuid 0` stamps the request and `uuid 1` is there for its row. `limit` is the batch size
of each provider, `embedBatchLimit` in the gateway. -/
def EmbedGateway.embedLane (llm : LlmGuard) (g : EmbedGateway F) (limit : String → ℕ+) (uuid : Nat → String)
    (ctx : RequestCtx) (req : EmbeddingRequest) : LaneM EmbedCall (EmbeddingResponse F × Bool) := do
  let entry ← Trace.lift (g.entryOf req)
  let screened ← g.guard.guardLane llm (g.laneCtx ctx (uuid 0)) req.model entry.policy .embeddings
    (embeddingLeaves req.input.intoVec)
  let served ← g.legsLane limit (screened.1.map (·.headD [])) entry.dimensions req.model 0 none entry.legs
  let ctx := ctx.stamped (uuid 0)
  Trace.emit (.row (g.embedRow ctx req.model (ctx.resolvedRequestId.getD (uuid 1)) served.1 served.2.inputTokens))
  pure (buildResponse req.model served.2, screened.2)

/-- The response, and whether the guard masked any input. -/
def EmbedGateway.embedRouted (llm : LlmGuard) (g : EmbedGateway F) (limit : String → ℕ+) (ctx : RequestCtx)
    (uuid : String) (req : EmbeddingRequest) : Except GatewayError (EmbeddingResponse F × Bool) :=
  (g.embedLane llm limit (fun _ => uuid) ctx req).result

end SynapseGateway
