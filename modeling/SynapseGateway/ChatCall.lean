import SynapseGateway.ChainWalk
import SynapseGateway.ChatLeaves
import SynapseGateway.GuardLane
import SynapseGateway.GuardedStream
import SynapseGateway.JevHybrid
import SynapseGateway.JevState
import SynapseGateway.RoutingReport

/-!
# Chat calls

A chat call, buffered or streamed: the input is screened, the route planned, a
lane serves the reply, and a row is written for what was used. A call is a run
that leaves what it sends and writes, in order.
-/

namespace SynapseGateway

open Fallible (refuseIf)
open Utf8 (Text)

/-! ## The gateway and what is outside -/

structure ChatGateway where
  llm : LlmGuard
  guard : GuardEngine
  routes : RouteTable
  defaultTenant : String
  aiTaskTypes : String → String
  jevConfigured : Bool
  vertexConfigured : Bool

structure ChatCallRequest extends HybridRequest where
  tools : Option (List Json) := none

inductive DecisionReply where
  | timedOut
  | sendFailed
  | response (status : Nat) (body : Option Json)

/-- What the legs and Jev give to a call. Legs are told by their place in the
list that is walked. -/
structure ChatOutside where
  wire : JevWire
  asF64 : Json → Option ℚ
  fromStr : Text → Option Json
  showF64 : ℚ → String
  decision : DecisionReply
  jevReply : Nat → JevLegReply
  provider : Nat → Option BuiltProvider
  start : Nat → Except GatewayError (List (Except LegError StreamItem))
  extractCall : Nat → Nat → ExtractionRequest → LegCall
  extractStart : Nat → Nat → ExtractionRequest → Except GatewayError (List (Except LegError StreamItem))
  newId : String

/-- What a call sends and writes. A leg that is refused by its breaker is not sent to. -/
inductive ChatCallEvent where
  | classified (text : Text)
  | decide (body : Json)
  | jevCall (body : Json)
  | legCall (leg : ChainLeg) (trace : CallTrace) (messages : List Message)
  | extraction (candidate : ExtractCandidate) (request : ExtractionRequest)
  | row (e : UsageEntry)

abbrev ChatCallM := Trace ChatCallEvent HybridFailure

inductive ChatOutcome where
  | plain (c : Completion)
  | hybrid (h : HybridOutcome)

def RoutePlan.chain (plan : RoutePlan) : List ChainLeg := plan.legs.map (·.leg)

def nonTypesafeLegs (legs : List ChainLeg) : List ChainLeg := legs.filter fun l => l.provider != "typesafe"

def requireJevBlock (req : ChatCallRequest) (legs : List ChainLeg) : Except GatewayError Unit :=
  let hasBlock := req.jev.any fun j => !j.questions.isEmpty
  if (legs.any fun l => l.provider == "typesafe") && !hasBlock then
    .error (.badRequest ("route '" ++ req.model ++
      "' uses provider 'typesafe'; send a 'jev' extension block with questions"))
  else .ok ()

inductive ChatLane where
  | standard | nativeVertex | jev
deriving DecidableEq, Repr

def classify (req : ChatCallRequest) : ChatLane :=
  if req.jev.any fun j => !j.questions.isEmpty then .jev
  else if vertexTriggers req.toRoutedRequest then .nativeVertex
  else .standard

/-! ## The decision -/

structure Decision where
  answers : JevAnswers
  inputTokens : Nat
  outputTokens : Nat

def parseAnswers (asF64 : Json → Option ℚ) (answers : Json) : Option JevAnswers :=
  ((answers.get? "difficulty").filter fun d => (d.get? "type").bind Json.asStr == some "score".toList).bind fun d =>
    ((d.get? "score").bind asF64).bind fun difficulty => ((d.get? "confidence").bind asF64).map fun confidence =>
      { difficulty := difficulty
        confidence := confidence
        needsReasoning := ((answers.get? "needs_reasoning").bind (·.get? "noul")).bind asF64 }

def isErrorStatus (status : Nat) : Bool := 400 ≤ status && status < 600

def callJev (asF64 : Json → Option ℚ) : DecisionReply → Except DecisionOutcome Decision
  | .timedOut => .error .timeout
  | .sendFailed => .error .error
  | .response status body =>
    if isErrorStatus status then .error .error
    else
      match body with
      | none => .error .error
      | some value =>
        match parseAnswers asF64 (value.key "answers") with
        | none => .error .error
        | some answers =>
          .ok {
            answers := answers
            inputTokens := ((value.key "usage").key "input_tokens").asU64.getD 0
            outputTokens := ((value.key "usage").key "output_tokens").asU64.getD 0 }

def buildQuestions (tiers : List Tier) : List (String × Json) :=
  [("difficulty", question "score"
    ("How demanding is it to produce a high-quality reply to `latest_user_message`, given `recent_history` " ++
      "and `system_prompt`?") (some (.array (tiers.map fun t => str t.description)))),
   ("needs_reasoning", question "noul"
    ("Does replying well to `latest_user_message` require careful step-by-step reasoning such as maths, logic, " ++
      "planning, or debugging?") none)]

def decisionBody (route : JevRoute) (req : ChatCallRequest) : Json :=
  .object [("model", str route.router.model),
    ("state", buildState { messages := req.messages, tools := req.tools } req.vertex),
    ("questions", .object (buildQuestions route.tiers))]

section
variable (g : ChatGateway) (w : ChatOutside) (ctx : RequestCtx)

/-! ## Rows -/

def ChatOutside.requestId : String := ctx.resolvedRequestId.getD w.newId

def ChatGateway.tenantOf : String := ctx.tenant.getD g.defaultTenant

def ChatGateway.laneCtx : LaneCtx := ⟨g.tenantOf ctx, ctx.attributionOf g.aiTaskTypes, w.requestId ctx⟩

def ChatGateway.usage (routeAlias provider model lane : String) (inputTokens outputTokens : Nat) (status op : String) :
    UsageEntry :=
  (g.laneCtx w ctx).usage routeAlias provider model lane inputTokens outputTokens status op

def ChatGateway.chatRow (routeAlias lane : String) (c : Completion) (status : String) : UsageEntry :=
  g.usage w ctx routeAlias c.provider c.model lane c.inputTokens c.outputTokens status "chat"

/-! ## Planning -/

def ChatGateway.policyFor (req : ChatCallRequest) : String := (g.routes.policyOf req.model).getD "default"

def ChatGateway.screenInput (req : ChatCallRequest) : ScreenRun :=
  g.guard.screenRun g.llm (g.policyFor req) .chat [leavesOf req.messages]

def ChatCallRequest.withLeaves (req : ChatCallRequest) (segments : List Segment) : ChatCallRequest :=
  { req with messages := writeMessages req.messages (segments.headD []) }

/-- The request with its leaves as they are left, and whether they were masked. -/
def ChatGateway.guardInput (req : ChatCallRequest) : ChatCallM (ChatCallRequest × Bool) :=
  let run := g.screenInput req
  ⟨(run.screened.outcome.mapError .error).map fun masked => (req.withLeaves run.segments, masked),
    run.asked.toList.map .classified ++ (g.guard.guardRows (g.laneCtx w ctx) req.model (g.policyFor req) run.screened).map .row⟩

def refuse (r : Except GatewayError α) : ChatCallM α := .lift (r.mapError .error)

def ChatGateway.decide (req : ChatCallRequest) (route : JevRoute) : ChatCallM Selection :=
  if g.jevConfigured then do
    Trace.emit (.decide (decisionBody route req))
    let result := callJev w.asF64 w.decision
    let selection := select (result.map (·.answers)) route
    match result, route.tiers[selection.tier]? with
    | .error _, _ => pure selection
    | .ok _, none => .fail (.panicked "index out of bounds")
    | .ok d, some tier => do
      Trace.emit (.row { g.usage w ctx req.model "typesafe" route.router.model "jev" d.inputTokens d.outputTokens "ok"
        "route_decision" with tier := some tier.name, outcome := some selection.outcome.metricLabel })
      pure selection
  else pure (select (.error .unavailable) route)

def ChatGateway.select (req : ChatCallRequest) (route : JevRoute) : RoutingMode → ChatCallM Selection
  | .staticOverride => pure ⟨route.defaultIndex, .staticOverride, false⟩
  | .static | .jev => g.decide w ctx req route

def ChatGateway.planTiered (req : ChatCallRequest) (route : JevRoute) (mode : RoutingMode) : ChatCallM RoutePlan := do
  refuse (refuseIf (hasJevBlock req.toRoutedRequest = true)
    (.badRequest "the jev extension is not supported on jev-routed routes"))
  let tiers := route.eligibleTiers (vertexTriggers req.toRoutedRequest)
  refuse (refuseIf (nearestServing tiers 0 = none) (noEligibleLegs req.toRoutedRequest))
  let selection ← g.select w ctx req route mode
  match nearestServing tiers selection.tier, route.tiers[selection.tier]? with
  | none, _ => refuse (.error (noEligibleLegs req.toRoutedRequest))
  | some _, none => .fail (.panicked "index out of bounds")
  | some start, some _ =>
    let policy := effortPolicy req.toRoutedRequest selection
    pure {
      mode := mode
      legs := orderLegs tiers start policy
      tierNames := route.tiers.map (·.name)
      decided := some selection.tier
      outcome := some selection.outcome
      clientEffort := policy == .client
      guard := none }

def ChatGateway.planFor (req : ChatCallRequest) (legs : List ChainLeg) (mode : RoutingMode) : ChatCallM RoutePlan :=
  match mode, g.routes.jevRoute req.model with
  | .jev, some route | .staticOverride, some route => g.planTiered w ctx req route mode
  | _, _ => pure (.staticLegs legs (clientSetsEffort req.toRoutedRequest))

/-- The legs of the route and the mode, before the input is screened. -/
def ChatGateway.resolve (req : ChatCallRequest) : Except GatewayError (List ChainLeg × RoutingMode) :=
  match g.routes.legs req.model with
  | none => .error (.unknownModel req.model)
  | some legs => ((resolveMode (g.routes.jevRoute req.model).isSome req.routingStrategy).mapError .badRequest).map (legs, ·)

def ChatGateway.planRoute (req : ChatCallRequest) : ChatCallM (ChatCallRequest × RoutePlan) := do
  let resolved ← refuse (g.resolve req)
  let screened ← g.guardInput w ctx req
  let plan ← g.planFor w ctx screened.1 resolved.1 resolved.2
  pure (screened.1, { plan with guard := if screened.2 then some "masked" else none })

/-! ## The lanes -/

def placed (f : Nat → α) (legs : List ChainLeg) : List (ChainLeg × α) := legs.zipIdx.map fun p => (p.1, f p.2)

/-- The legs of a walk that were reached. -/
def reached (req : ChatCallRequest) (legs : List ChainLeg) (traces : List CallTrace) : List ChatCallEvent :=
  (legs.zip traces).map fun p => .legCall p.1 p.2 req.messages

def standardBuffered (req : ChatCallRequest) (legs : List ChainLeg) : ChatCallM Completion :=
  let walk := executeBufferedWithTimeouts req.model (placed w.provider legs)
  ⟨walk.1.mapError .error, reached req legs walk.2⟩

def standardStreaming (req : ChatCallRequest) (legs : List ChainLeg) : ChatCallM CommittedStream :=
  let walk := executeStreamingWithTimeouts req.model (placed w.provider legs)
  ⟨walk.1.mapError .error, reached req legs walk.2⟩

/-- The `vertex` legs up to the first that opens or that no other leg can make up for. -/
def started : List (ChainLeg × Except GatewayError (List (Except LegError StreamItem))) → List ChainLeg
  | [] => []
  | (leg, .ok _) :: _ => [leg]
  | (leg, .error e) :: legs => if nativeStartRetryable e then leg :: started legs else [leg]

def ChatGateway.native (req : ChatCallRequest) (legs : List ChainLeg) : ChatCallM CommittedStream :=
  ⟨(nativeCommitted g.vertexConfigured req.model (placed w.start legs)).mapError .error,
    if g.vertexConfigured then
      (started ((placed w.start legs).filter (·.1.provider == "vertex"))).map fun leg =>
        .legCall leg ⟨1, []⟩ req.messages
    else []⟩

def ChatGateway.nativeBuffered (req : ChatCallRequest) (legs : List ChainLeg) : ChatCallM Completion := do
  let committed ← g.native w req legs
  refuse (collectCommitted committed)

def ChatGateway.attempt (req : ChatCallRequest) (legs : List ChainLeg) : ChatCallM JevAttempt :=
  let r := jevAttempt w.wire req.model req.messages req.jev g.jevConfigured (placed w.jevReply legs)
  ⟨r.1.mapError .error, r.2.map .jevCall⟩

/-- The lane a request is served on, with what each lane gives. A Jev lane that is
exhausted falls back to the legs that are not Jev's. -/
def ChatGateway.serve (standard native : List ChainLeg → ChatCallM β) (decided : Completion → β) (req : ChatCallRequest)
    (legs : List ChainLeg) : ChatCallM (β × String) :=
  match classify req with
  | .standard => do
    let served ← standard legs
    pure (served, "standard")
  | .nativeVertex => do
    let served ← native legs
    pure (served, "native")
  | .jev => do
    let attempt ← g.attempt w req legs
    match attempt with
    | .decided completion _ => pure (decided completion, "jev")
    | .exhausted failures =>
      let rest := nonTypesafeLegs legs
      if rest.isEmpty then refuse (.error (.allLegsFailed req.model failures))
      else if vertexTriggers req.toRoutedRequest then do
        let served ← native rest
        pure (served, "native")
      else do
        let served ← standard rest
        pure (served, "standard")

/-! ## The calls -/

def checkLegs (req : ChatCallRequest) (legs : List ChainLeg) : Except GatewayError Unit :=
  (requireJevBlock req legs).bind fun _ =>
    (validateExtract w.showF64 req.toHybridRequest (legs.any fun l => l.provider != "typesafe")
      (legs.any fun l => l.provider == "vertex")).mapError .badRequest

def HybridEvent.ofCall : HybridEvent → ChatCallEvent
  | .jevCall body => .jevCall body
  | .extraction candidate request => .extraction candidate request
  | .enqueue row => .row row

def ChatGateway.hybrid (req : ChatCallRequest) (legs : List ChainLeg) : ChatCallM HybridOutcome :=
  let run := chatHybrid {
      wire := w.wire
      asF64 := w.asF64
      fromStr := w.fromStr
      jevConfigured := g.jevConfigured
      vertexConfigured := g.vertexConfigured
      call := w.extractCall
      start := w.extractStart } {
      route := req.model
      policy := g.policyFor req
      tenant := g.tenantOf ctx
      attribution := ctx.attributionOf g.aiTaskTypes req.model
      requestId := w.requestId ctx } req.toHybridRequest (placed w.jevReply legs)
  ⟨run.result, run.events.map HybridEvent.ofCall⟩

/-- The reply as it is returned and written, with the signal for the client. Jev's
answers are not screened. -/
def ChatGateway.screenReply (policy lane : String) (guard : Option String) (c : Completion) :
    Completion × String × Option String :=
  if lane != "jev" && g.guard.hasOutput policy then
    let scanned := g.guard.screenOutput g.llm policy c.content
    if !scanned.1.blockers.isEmpty then
      ({ c with content := [], toolCalls := [], finishReason := .contentFilter }, "blocked", some "blocked")
    else ({ c with content := scanned.2.1 }, "ok", if scanned.1.outcome == "masked" then some "masked" else guard)
  else (c, "ok", guard)

def ChatGateway.chatRouted (req : ChatCallRequest) : ChatCallM (ChatOutcome × RoutingReport) := do
  let planned ← g.planRoute w ctx req
  let req := planned.1
  let legs := planned.2.chain
  refuse (checkLegs w req legs)
  if req.extract.isSome then do
    let outcome ← g.hybrid w ctx req legs
    pure (.hybrid outcome, planned.2.reportFor none)
  else do
    let served ← g.serve w (standardBuffered w req) (g.nativeBuffered w req) id req legs
    let reply := g.screenReply (g.policyFor req) served.2 planned.2.guard served.1
    Trace.emit (.row (g.chatRow w ctx req.model served.2 reply.1 reply.2.1))
    pure (.plain reply.1, { planned.2.reportFor (some (reply.1.provider, reply.1.model)) with guard := reply.2.2 })

/-- An answer of Jev as a stream. -/
def jevCommitted (c : Completion) : CommittedStream :=
  ⟨"typesafe", c.model, [.ok (.delta c.content), .ok (.done c.inputTokens c.outputTokens c.finishReason)]⟩

def ChatGateway.chatStream (req : ChatCallRequest) : ChatCallM (GuardedStream × RoutingReport) := do
  let planned ← g.planRoute w ctx req
  let req := planned.1
  let legs := planned.2.chain
  refuse (checkLegs w req legs)
  let served ← g.serve w (standardStreaming w req) (g.native w req) jevCommitted req legs
  let committed := served.1
  let guard := StreamSideEffects.new req.model (g.tenantOf ctx) (ctx.attributionOf g.aiTaskTypes req.model)
    committed.provider committed.model served.2 (w.requestId ctx)
  let policy := g.policyFor req
  let output := if served.2 != "jev" && g.guard.hasOutput policy then some (OutputGuard.new g.guard policy) else none
  pure (GuardedStream.new (committed.stream.map some) guard policy output,
    planned.2.reportFor (some (committed.provider, committed.model)))

end

end SynapseGateway
