import Mathlib.Data.List.Sort
import SynapseGateway.Error
import SynapseGateway.Json
import SynapseGateway.Ledger
import SynapseGateway.RouteTable
import SynapseGateway.Sse

/-!
# The Gemini passthrough

A Gemini request is forwarded as it is to the Vertex legs of a route, and metered by the
usage counts in what comes back. How a body and a line read as JSON is a parameter, and
so is what screening makes of the request.
-/

namespace SynapseGateway

open Utf8 (Text)

structure SerdeJson where
  fromSlice : Bytes → Except String Json
  fromStr : Text → Except String Json

inductive PassthroughModels where
  | routed | any
deriving DecidableEq, Repr

structure GeminiGateway where
  vertexNative : Bool
  routes : RouteTable
  passthroughModels : PassthroughModels := .routed
  defaultTenant : String := "default"
  taskTypeOf : String → String := fun _ => "simple"

/-! ## The chain -/

structure VertexPassthroughChain where
  route : Option String
  legs : List ChainLeg
deriving DecidableEq, Repr

def ChainLeg.isVertex (l : ChainLeg) : Bool := l.provider == "vertex"

/-- The Vertex legs for a model: those of the alias of that name, else those from the
first leg for the model on, in an alias that begins with it where there is one. -/
def RouteTable.vertexFallbackChain (t : RouteTable) (model : String) : VertexPassthroughChain :=
  match if model ∈ t.jevDeclared then none else t.routes.lookup model with
  | some legs => ⟨some model, legs.takeWhile ChainLeg.isVertex⟩
  | none =>
    let aliases := ((t.routes.map (·.1)).filter (· ∉ t.jevDeclared)).insertionSort (· ≤ ·)
    let isLeg : ChainLeg → Bool := fun l => l.isVertex && l.model == model
    let fromFirst := aliases.findSome? fun a =>
      (((t.routes.lookup a).bind List.head?).filter isLeg).map fun _ => (a, 0)
    let fromAny := aliases.findSome? fun a =>
      ((t.routes.lookup a).bind (List.findIdx? isLeg)).map fun i => (a, i)
    match fromFirst.or fromAny with
    | some (route, start) =>
      ⟨some route, (((t.routes.lookup route).getD []).drop start).takeWhile ChainLeg.isVertex⟩
    | none => ⟨none, [{ provider := "vertex", model := model }]⟩

/-! ## Metering -/

/-- The usage of a response; its row is written when it is dropped. -/
structure PassthroughUsageGuard where
  provider : String
  tenant : String
  attribution : Attribution
  route : String
  model : String
  requestId : String
  inputTokens : Nat := 0
  outputTokens : Nat := 0
  status : String := "ok"
  op : String
deriving DecidableEq, Repr

def PassthroughUsageGuard.new (g : GeminiGateway) (ctx : RequestCtx) (uuid model : String) (route : Option String)
    (provider op : String) : PassthroughUsageGuard where
  provider := provider
  tenant := ctx.tenant.getD g.defaultTenant
  attribution := ctx.attributionOf g.taskTypeOf (route.getD model)
  route := route.getD model
  model := model
  requestId := ctx.resolvedRequestId.getD uuid
  op := op

def usageCount (group count : String) (v : Json) : Option Nat := ((v.key group).key count).asU64

def PassthroughUsageGuard.observeUsageMetadata (u : PassthroughUsageGuard) (v : Json) : PassthroughUsageGuard :=
  { u with
    inputTokens := (usageCount "usageMetadata" "promptTokenCount" v).getD
      ((usageCount "usage" "input_tokens" v).getD u.inputTokens)
    outputTokens := (usageCount "usageMetadata" "candidatesTokenCount" v).getD
      ((usageCount "usage" "output_tokens" v).getD u.outputTokens) }

def PassthroughUsageGuard.row (u : PassthroughUsageGuard) : UsageEntry where
  tenant := u.tenant
  attribution := u.attribution
  route := u.route
  provider := u.provider
  model := u.model
  lane := "passthrough"
  inputTokens := u.inputTokens
  outputTokens := u.outputTokens
  requestId := u.requestId
  status := u.status
  op := u.op

def cutLine : Text → Option (Text × Text)
  | [] => none
  | c :: t => if c = '\n' then some ([c], t) else (cutLine t).map fun p => (c :: p.1, p.2)

theorem cutLine_some {t line rest : Text} (h : cutLine t = some (line, rest)) :
    ∃ l, '\n' ∉ l ∧ line = l ++ ['\n'] ∧ t = l ++ '\n' :: rest := by
  induction t generalizing line with
  | nil => cases h
  | cons c t ih =>
    rw [cutLine] at h
    by_cases hc : c = '\n'
    · rw [if_pos hc] at h
      cases h
      exact ⟨[], by simp, by rw [hc]; rfl, by rw [hc]; rfl⟩
    · rw [if_neg hc] at h
      obtain ⟨p, hp, he⟩ := Option.map_eq_some_iff.mp h
      cases he
      obtain ⟨l, hl, hline, ht⟩ := ih hp
      refine ⟨c :: l, ?_, by rw [hline]; rfl, by rw [ht]; rfl⟩
      simpa [eq_comm, hc] using hl

theorem cutLine_append {l : Text} (h : '\n' ∉ l) (rest : Text) :
    cutLine (l ++ '\n' :: rest) = some (l ++ ['\n'], rest) := by
  induction l with
  | nil => rfl
  | cons c l ih =>
    have hc : c ≠ '\n' := fun hc => h (hc ▸ List.mem_cons_self)
    rw [List.cons_append, cutLine, if_neg hc, ih fun hl => h (List.mem_cons_of_mem c hl)]
    rfl

def newline : Framing.Cutter Char where
  cut := cutLine
  split h := by
    obtain ⟨l, -, rfl, rfl⟩ := cutLine_some h
    simp
  progress h := by
    obtain ⟨l, -, rfl, rfl⟩ := cutLine_some h
    simp
  stable c h := by
    obtain ⟨l, hl, rfl, rfl⟩ := cutLine_some h
    rw [List.append_assoc, List.cons_append]
    exact cutLine_append hl _

section
variable (serde : SerdeJson)

def PassthroughUsageGuard.observeSseLine (u : PassthroughUsageGuard) (line : Text) : PassthroughUsageGuard :=
  match stripPrefix "data:".toList line with
  | none => u
  | some data =>
    match serde.fromStr (trim data) with
    | .ok v => u.observeUsageMetadata v
    | .error _ => u

def PassthroughUsageGuard.observeLines (u : PassthroughUsageGuard) (lines : List Text) : PassthroughUsageGuard :=
  lines.foldl (fun u line => u.observeSseLine serde (trimEnd line)) u

/-- A Vertex event stream on its way to the client; `inner` is what is still to come. -/
structure MeteredSseStream where
  inner : List (Except String Bytes)
  guard : PassthroughUsageGuard
  lineBuf : Text := []

def MeteredSseStream.pollNext (s : MeteredSseStream) : Option (Except String Bytes) × MeteredSseStream :=
  match s.inner with
  | .ok bytes :: inner =>
    let (lines, rest) := newline.drain (s.lineBuf ++ fromUtf8Lossy bytes)
    (some (.ok bytes), ⟨inner, s.guard.observeLines serde lines, rest⟩)
  | .error e :: inner => (some (.error e), ⟨inner, { s.guard with status := "error" }, s.lineBuf⟩)
  -- the last line may have come without a newline
  | [] => (none, ⟨[], s.guard.observeSseLine serde (trimEnd s.lineBuf), []⟩)

def MeteredSseStream.polls : Nat → MeteredSseStream → MeteredSseStream
  | 0, s => s
  | n + 1, s => polls n (s.pollNext serde).2

/-- The stream after the poll that finds its end. -/
def MeteredSseStream.read (s : MeteredSseStream) : MeteredSseStream := s.polls serde (s.inner.length + 1)

end

/-! ## Forwarding -/

structure VertexCall where
  model : String
  action : String
  altSse : Bool
  body : Json
  region : Option String

structure VertexReply where
  status : Nat
  contentType : Option String := none
  body : List (Except String Bytes)

def isSuccess (status : Nat) : Bool := 200 ≤ status && status < 300

def passthroughStatusRetryable (status : Nat) : Bool :=
  (500 ≤ status && status < 600) || status == 429 || status == 408

/-- A body read whole: the first transport error ends it. -/
def readBytes : List (Except String Bytes) → Except String Bytes
  | [] => .ok []
  | .error e :: _ => .error e
  | .ok bytes :: body => (readBytes body).map (bytes ++ ·)

structure PassthroughHead where
  status : Nat
  contentType : String
  legsAttempted : Option Nat := none
  degraded : Option String := none
  guard : Option String := none
deriving DecidableEq, Repr

def PassthroughHead.withPassthroughLegHeaders (h : PassthroughHead) (legsAttempted : Nat) (succeeded : Bool) :
    PassthroughHead :=
  if legsAttempted > 1 then
    { h with
      legsAttempted := some legsAttempted
      degraded := some (if succeeded then "leg_escalation" else "all_legs_failed") }
  else h

def PassthroughHead.withGuardHeader (h : PassthroughHead) (masked : Bool) : PassthroughHead :=
  if masked then { h with guard := some "masked" } else h

inductive PassthroughOut where
  | failed (e : GatewayError)
  | buffered (head : PassthroughHead) (bytes : Bytes)
  | streamed (head : PassthroughHead) (stream : MeteredSseStream)

def PassthroughOut.withGuardHeader (masked : Bool) : PassthroughOut → PassthroughOut
  | .failed e => .failed e
  | .buffered head bytes => .buffered (head.withGuardHeader masked) bytes
  | .streamed head stream => .streamed (head.withGuardHeader masked) stream

/-- What a call gives the client, with the rows written by then. -/
structure PassthroughRun where
  rows : List UsageEntry
  out : PassthroughOut

section
variable (serde : SerdeJson)

/-- The rows once the response is read to its end. -/
def PassthroughRun.ledger (r : PassthroughRun) : List UsageEntry :=
  match r.out with
  | .streamed _ stream => r.rows ++ [(stream.read serde).guard.row]
  | _ => r.rows

def PassthroughUsageGuard.observeBody (u : PassthroughUsageGuard) (bytes : Bytes) : PassthroughUsageGuard :=
  match serde.fromSlice bytes with
  | .ok v => u.observeUsageMetadata v
  | .error _ => u

structure GeminiCall where
  gateway : GeminiGateway
  ctx : RequestCtx
  route : Option String
  action : String
  streaming : Bool
  altSse : Bool
  body : Json

def GeminiCall.usageGuard (c : GeminiCall) (uuid model : String) : PassthroughUsageGuard :=
  .new c.gateway c.ctx uuid model c.route "vertex" "chat"

/-- The row `meter_passthrough_error` writes for a leg. -/
def GeminiCall.errorRow (c : GeminiCall) (uuid model : String) : UsageEntry :=
  { c.usageGuard uuid model with status := "error" : PassthroughUsageGuard }.row

def GeminiCall.ask (c : GeminiCall) (leg : ChainLeg) : VertexCall :=
  ⟨leg.model, c.action, c.altSse && c.streaming, c.body, leg.region⟩

def GeminiCall.succeed (c : GeminiCall) (uuid : Nat → String) (i : Nat) (leg : ChainLeg) (reply : VertexReply) :
    PassthroughRun :=
  let guard := c.usageGuard (uuid i) leg.model
  if c.streaming && c.altSse then
    let head : PassthroughHead := ⟨200, reply.contentType.getD "text/event-stream", none, none, none⟩
    ⟨[], .streamed (head.withPassthroughLegHeaders (i + 1) true) ⟨reply.body, guard, []⟩⟩
  else
    match readBytes reply.body with
    | .error e => ⟨[guard.row], .failed (.upstream 502 e)⟩
    | .ok bytes =>
      let head : PassthroughHead := ⟨reply.status, "application/json", none, none, none⟩
      ⟨[(guard.observeBody serde bytes).row], .buffered (head.withPassthroughLegHeaders (i + 1) true) bytes⟩

/-- A call ends with a leg's answer, or goes on with the failure it saw last. -/
inductive PassthroughStep where
  | ends (out : PassthroughOut)
  | next (lastFailure : Option (Nat × Bytes))

/-- The answer of leg number `i`, with the rows written on it. There are `more` legs or not. -/
def GeminiCall.answered (c : GeminiCall) (uuid : Nat → String) (i : Nat) (lastFailure : Option (Nat × Bytes))
    (leg : ChainLeg) (more : Bool) : Except GatewayError VertexReply → List UsageEntry × PassthroughStep
  | .error e => ([c.errorRow (uuid i) leg.model], if more then .next lastFailure else .ends (.failed e))
  | .ok reply =>
    if isSuccess reply.status then
      let run := c.succeed serde uuid i leg reply
      (run.rows, .ends run.out)
    else
      let bytes := (readBytes reply.body).toOption.getD []
      ([c.errorRow (uuid i) leg.model],
        if passthroughStatusRetryable reply.status && more then .next (some (reply.status, bytes))
        else
          let head : PassthroughHead := ⟨reply.status, "application/json", none, none, none⟩
          .ends (.buffered (head.withPassthroughLegHeaders (i + 1) false) bytes))

/-- What is left to answer with after the last leg. -/
def exhausted (i : Nat) : Option (Nat × Bytes) → PassthroughOut
  | some (code, bytes) =>
    let head : PassthroughHead := ⟨code, "application/json", none, none, none⟩
    .buffered (head.withPassthroughLegHeaders i false) bytes
  | none => .failed (.upstream 502 "gemini passthrough: empty vertex fallback chain")

/-- The legs from number `i` on, up to the one the call ends with: each that is asked, with
the rows written on its answer. `send` is asked once for each leg and `uuid` names its row. -/
def GeminiCall.legSteps (c : GeminiCall) (send : Nat → VertexCall → Except GatewayError VertexReply)
    (uuid : Nat → String) : Nat → Option (Nat × Bytes) → List ChainLeg →
      List (Nat × ChainLeg × List UsageEntry) × PassthroughOut
  | i, lastFailure, [] => ([], exhausted i lastFailure)
  | i, lastFailure, leg :: legs =>
    match c.answered serde uuid i lastFailure leg (!legs.isEmpty) (send i (c.ask leg)) with
    | (rows, .ends out) => ([(i, leg, rows)], out)
    | (rows, .next failure) =>
      let (steps, out) := c.legSteps send uuid (i + 1) failure legs
      ((i, leg, rows) :: steps, out)

def GeminiCall.forwardGeminiLegs (c : GeminiCall) (send : Nat → VertexCall → Except GatewayError VertexReply)
    (uuid : Nat → String) (i : Nat) (lastFailure : Option (Nat × Bytes)) (legs : List ChainLeg) : PassthroughRun :=
  let (steps, out) := c.legSteps serde send uuid i lastFailure legs
  ⟨steps.flatMap fun s => s.2.2, out⟩

end

/-! ## The request -/

def NON_CONTENT_ACTIONS : List String := ["countTokens", "computeTokens"]

def rsplitOnce (sep : Char) (t : Text) : Option (Text × Text) :=
  if sep ∈ t then
    let back := t.reverse
    some (((back.dropWhile (· ≠ sep)).drop 1).reverse, (back.takeWhile (· ≠ sep)).reverse)
  else none

def isAsciiAlphabetic (c : Char) : Bool := ('a' ≤ c && c ≤ 'z') || ('A' ≤ c && c ≤ 'Z')

def isAsciiAlphanumeric (c : Char) : Bool := isAsciiAlphabetic c || ('0' ≤ c && c ≤ '9')

def checkModelAction (model action : Text) : Except GatewayError Unit :=
  let modelOk := !model.isEmpty && model.all fun c => isAsciiAlphanumeric c || c == '.' || c == '_' || c == '-'
  let actionOk := !action.isEmpty && action.all isAsciiAlphabetic
  if modelOk && actionOk then .ok ()
  else .error (.badRequest ("invalid model or action in models/" ++ String.ofList model ++ ":" ++ String.ofList action))

structure GeminiRequest where
  modelAction : Text
  query : Option Text := none
  body : Json

/-- `q.contains("alt=sse")`, anywhere in the query string. -/
def altSse (query : Option Text) : Bool := query.any fun q => decide ("alt=sse".toList <:+: q)

def RequestCtx.stamped (ctx : RequestCtx) (uuid : String) : RequestCtx :=
  { ctx with requestId := some (ctx.resolvedRequestId.getD uuid) }

/-- A request that may go to Vertex, its body as screening left it. -/
structure AdmittedGemini where
  model : String
  action : String
  chain : VertexPassthroughChain
  first : ChainLeg
  body : Json
  masked : Bool

/-- `screen` is what screening under the policies of a model and route makes of a body
for an action: the body to send and whether any of it was masked. -/
def GeminiGateway.admitGemini (g : GeminiGateway)
    (screen : (model route action : String) → Json → Except GatewayError (Json × Bool)) (req : GeminiRequest) :
    Except GatewayError AdmittedGemini :=
  if g.vertexNative then
    match rsplitOnce ':' req.modelAction with
    | none =>
      .error (.badRequest ("expected models/\x7bmodel\x7d:\x7baction\x7d, got '" ++ String.ofList req.modelAction ++ "'"))
    | some (modelText, actionText) => do
      checkModelAction modelText actionText
      let model := String.ofList modelText
      let action := String.ofList actionText
      let chain := g.routes.vertexFallbackChain model
      if chain.route = none ∧ g.passthroughModels = .routed then .error (.unknownModel model)
      else
        match chain.legs.head? with
        | none => .error (.badRequest ("route '" ++ model ++ "' has no leading vertex legs for the gemini passthrough"))
        | some first =>
          if action ∈ NON_CONTENT_ACTIONS then .ok ⟨model, action, chain, first, req.body, false⟩
          else
            let (body, masked) ← screen model (chain.route.getD model) action req.body
            .ok ⟨model, action, chain, first, body, masked⟩
  else .error (.badRequest "gemini passthrough requires the native vertex lane")

def isStreaming (action : String) : Bool := action == "streamGenerateContent"

def isMetered (action : String) : Bool := action == "generateContent" || isStreaming action

/-- An action that does not generate: one call, no row. -/
def AdmittedGemini.forwardOnce (a : AdmittedGemini) (send : Nat → VertexCall → Except GatewayError VertexReply) :
    PassthroughOut :=
  match send 0 ⟨a.first.model, a.action, false, a.body, a.first.region⟩ with
  | .error e => .failed e
  | .ok reply =>
    match readBytes reply.body with
    | .error e => .failed (.upstream 502 e)
    | .ok bytes => .buffered ⟨reply.status, "application/json", none, none, none⟩ bytes

def AdmittedGemini.call (a : AdmittedGemini) (g : GeminiGateway) (ctx : RequestCtx) (query : Option Text) :
    GeminiCall where
  gateway := g
  ctx := ctx
  route := a.chain.route
  action := a.action
  streaming := isStreaming a.action
  altSse := altSse query
  body := a.body

/-- `uuid 0` stamps the request; the others name the rows of the legs. -/
def GeminiGateway.forwardGemini (serde : SerdeJson) (g : GeminiGateway)
    (screen : (model route action : String) → Json → Except GatewayError (Json × Bool))
    (send : Nat → VertexCall → Except GatewayError VertexReply) (uuid : Nat → String) (ctx : RequestCtx)
    (req : GeminiRequest) : PassthroughRun :=
  match g.admitGemini screen req with
  | .error e => ⟨[], .failed e⟩
  | .ok a =>
    if isMetered a.action then
      let call := a.call g (ctx.stamped (uuid 0)) req.query
      let run := call.forwardGeminiLegs serde send (fun i => uuid (i + 1)) 0 none a.chain.legs
      { run with out := run.out.withGuardHeader a.masked }
    else ⟨[], (a.forwardOnce send).withGuardHeader a.masked⟩

end SynapseGateway
