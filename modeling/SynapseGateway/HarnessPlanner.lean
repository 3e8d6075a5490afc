import SynapseGateway.Engine
import SynapseGateway.HarnessJev
import SynapseGateway.Ledger
import SynapseGateway.Lib.Trace

/-!
# Harness turns

A turn finds its session and its harness route, plans the cells of the route,
and walks them until the runner completes one. What it does to the outside is
kept in order: Jev calls, runner calls, ledger rows and recorded responses.
-/

namespace SynapseGateway

open Utf8 (Text)

/-! ## Requests -/

structure UhpCreateRequest where
  model : Option String := none
  input : Json := .null
  instructions : Option Text := none
  previousResponseId : Option String := none
  tools : List Json := []
  metadata : List (String × Json) := []
  routingStrategy : Option String := none
  reasoningEffort : Option Effort := none
  maxStep : Option Nat := none

def UhpCreateRequest.harnessId (req : UhpCreateRequest) : Option String :=
  ((req.metadata.lookup "harness_id").bind Json.asStr).map String.ofList

def UhpCreateRequest.envId (req : UhpCreateRequest) : Option Text := (req.metadata.lookup "env_id").bind Json.asStr

def joinLines (ts : List Text) : Text := List.intercalate ['\n'] ts

def itemText (item : Json) : Option Text :=
  let content := item.get? "content"
  (content.bind Json.asStr).or
    ((content.bind Json.asArray).map fun parts => joinLines (parts.filterMap fun p => (p.get? "text").bind Json.asStr))

def UhpCreateRequest.promptText (req : UhpCreateRequest) : Text :=
  match req.input with
  | .string s => s
  | .array items => joinLines (items.filterMap itemText)
  | other => other.toText

mutual

def containsImage : Json → Bool
  | .object members => (match members.lookup "type" with
      | some (.string t) => decide ("image".toList <:+: t)
      | _ => false) || membersContainImage members
  | .array xs => anyContainsImage xs
  | _ => false

def anyContainsImage : List Json → Bool
  | [] => false
  | x :: xs => containsImage x || anyContainsImage xs

def membersContainImage : List (String × Json) → Bool
  | [] => false
  | (_, x) :: members => containsImage x || membersContainImage members

end

def UhpCreateRequest.hasVision (req : UhpCreateRequest) : Bool := containsImage req.input

def toolType (tool : Json) : Option Text := (tool.get? "type").bind Json.asStr

structure UhpSessionRecord where
  sessionId : String
  harnessId : String
  pinnedProfile : Option String
  pinnedBase : String
  envId : Option Text
  turnCount : Nat
  history : List (String × Text)

structure StoredUhpResponse where
  responseId : String
  session : UhpSessionRecord
  body : Json

structure UhpSessionStore where
  responses : List (String × StoredUhpResponse) := []
  busySessions : List String := []

def UhpSessionStore.getResponse (store : UhpSessionStore) (id : String) : Option StoredUhpResponse :=
  store.responses.lookup id

def UhpSessionStore.tryAcquireSession (store : UhpSessionStore) (id : String) : Except GatewayError Unit :=
  if store.busySessions.contains id then .error (.sessionBusy id) else .ok ()

/-! ## The outside -/

/-- What a Jev call gives: no answer in time, no connection, or a status and the
body that was read. -/
inductive JevReply where
  | timeout
  | transport
  | status (code : Nat) (body : Option Json)

/-- The Jev provider. `asF64` reads a JSON number that is finite. -/
structure JevNativeProvider where
  evaluate : Json → JevReply
  asF64 : Json → Option ℚ

structure UhpTurnDispatch where
  sessionId : String
  responseId : String
  harnessId : String
  profile : Option String
  base : String
  tier : Option String
  wire : WireProtocol
  leg : ChainLeg
  maxStep : Option Nat
  timeoutSeconds : Option Nat
  request : UhpCreateRequest

structure UhpTurnOutput where
  outputText : Text
  inputTokens : Nat
  outputTokens : Nat
  turns : Nat

/-- A runner; its answer to a dispatch may change from call to call. -/
abbrev UhpRunner := Nat → UhpTurnDispatch → Except GatewayError UhpTurnOutput

inductive TurnEvent where
  | jevCall (body : Json)
  | executeTurn (dispatch : UhpTurnDispatch)
  | enqueue (row : UsageEntry)
  | recordResponse (stored : StoredUhpResponse)

abbrev TurnM := Trace TurnEvent GatewayError

structure Gateway where
  harnesses : HarnessRouteTable := {}
  guard : GuardEngine := ⟨[]⟩
  jevNative : Option JevNativeProvider := none
  uhpRunner : Option UhpRunner := none
  defaultTenant : String := "default"
  taskTypeOf : String → String := fun _ => "simple"
  costUsd : String → String → Nat → Nat → Json := fun _ _ _ _ => .null

def Gateway.turnRow (g : Gateway) (ctx : RequestCtx) (routeAlias sessionId responseId provider model lane op : String)
    (inputTokens outputTokens : Nat) (tier outcome : Option String) : UsageEntry where
  tenant := ctx.tenant.getD g.defaultTenant
  attribution := {
    workspace := ctx.workspace
    user := ctx.user
    thread := some sessionId
    message := some responseId
    userTaskType := ctx.userTaskType
    aiTaskType := ctx.aiTaskTypeOf g.taskTypeOf routeAlias }
  route := routeAlias
  provider := provider
  model := model
  lane := lane
  inputTokens := inputTokens
  outputTokens := outputTokens
  requestId := ctx.resolvedRequestId.getD responseId
  status := "ok"
  op := op
  tier := tier
  outcome := outcome

/-! ## The Jev decision -/

def inUnit (x : ℚ) : Bool := 0 ≤ x && x ≤ 1

def parseHarnessAnswers (asF64 : Json → Option ℚ) (answers : Json) : Option HarnessAnswers := do
  let diff := answers.key "difficulty"
  let difficulty ← (asF64 (diff.key "score")).filter (0 ≤ ·)
  let difficultyConfidence ← (asF64 (diff.key "confidence")).filter inUnit
  let profile := answers.key "profile"
  let noul (question : String) : Option ℚ := (asF64 ((answers.key question).key "noul")).filter inUnit
  some {
    profile := (profile.key "choice").asStr.or (profile.key "answer").asStr
    profileConfidence := (asF64 (profile.key "confidence")).filter inUnit
    difficulty := difficulty
    difficultyConfidence := difficultyConfidence
    needsReasoning := noul "needs_reasoning"
    needsDeepHorizon := noul "needs_deep_horizon" }

def callHarnessJev (provider : JevNativeProvider) (body : Json) : Except DecisionOutcome HarnessDecision :=
  match provider.evaluate body with
  | .timeout => .error .timeout
  | .transport | .status _ none => .error .error
  | .status code (some value) =>
    if 400 ≤ code && code < 600 then .error .error
    else
      match parseHarnessAnswers provider.asF64 (value.key "answers") with
      | none => .error .error
      | some answers =>
        .ok ⟨answers, ((value.key "usage").key "input_tokens").asU64.getD 0,
          ((value.key "usage").key "output_tokens").asU64.getD 0⟩

structure Turn where
  req : UhpCreateRequest
  ctx : RequestCtx
  prior : Option StoredUhpResponse
  harnessId : String
  harness : ConfiguredHarness
  routeAlias : String
  sessionId : String
  responseId : String

def Turn.session (t : Turn) : Option UhpSessionRecord := t.prior.map (·.session)

def Turn.stateInput (t : Turn) : UhpStateInput where
  latestUserMessage := t.req.promptText
  recentHistory := (t.session.map (·.history)).getD []
  instructions := t.req.instructions
  hasImages := t.req.hasVision
  hasEnvironment := t.req.envId.isSome
  mcpServerCount := (t.req.tools.filter fun tool => toolType tool == some "mcp".toList).length
  isContinuation := t.session.isSome

/-- The profile of the session, while the route has it. -/
def Turn.pinnedProfile (t : Turn) (route : HarnessJevRoute) : Option Nat :=
  (t.session.bind (·.pinnedProfile)).bind fun name => route.profiles.findIdx? fun p => p.name == name

def Gateway.decisionRow (g : Gateway) (t : Turn) (route : HarnessJevRoute) (grid : EligibleGrid)
    (selection : Selection2d) (d : HarnessDecision) : UsageEntry :=
  let profile := (t.pinnedProfile route).or selection.profile
  let profileName := ((profile.bind fun i => route.profiles[i]?).map (·.name)).getD "default"
  let baseName := (((t.session.map (·.pinnedBase)).or
    ((profile.bind fun i => grid.profiles[i]?).bind fun p => p.bases.head?)).or (grid.bases.head?.map (·.1))).getD "default"
  let tierName := ((route.tiers[selection.tier]?).map (·.name)).getD ""
  g.turnRow t.ctx t.routeAlias t.sessionId t.responseId "typesafe" route.router.model "jev" "route_decision"
    d.inputTokens d.outputTokens (some (profileName ++ "/" ++ baseName ++ "/" ++ tierName))
    (some selection.outcome.metricLabel)

/-- Ask Jev about the grid; without a provider the defaults are selected. -/
def Gateway.decideHarness2d (g : Gateway) (t : Turn) (route : HarnessJevRoute) (grid : EligibleGrid)
    (askProfile askHorizon : Bool) : TurnM Selection2d :=
  let body := Json.object [
    ("model", str route.router.model),
    ("state", buildHarnessState t.stateInput t.harness),
    ("questions", buildHarnessQuestions grid.activeProfiles route.tiers askProfile askHorizon)]
  match g.jevNative with
  | none => pure (select2d (.error .unavailable) route askProfile)
  | some provider => do
    Trace.emit (.jevCall body)
    match callHarnessJev provider body with
    | .error outcome => pure (select2d (.error outcome) route askProfile)
    | .ok d =>
      let selection := select2d (.ok d.answers) route askProfile
      Trace.emit (.enqueue (g.decisionRow t route grid selection d))
      pure selection

/-! ## The plan -/

structure HarnessRoutePlan where
  mode : RoutingMode
  legs : List PlannedHarnessLeg
  profileNames : List String
  tierNames : List String
  decidedProfile : Option Nat
  decidedTier : Option Nat
  outcome : Option DecisionOutcome
  profileOutcome : Option DecisionOutcome
  clientEffort : Bool
  stepBumped : Bool

def Turn.requirements (t : Turn) : TaskRequirements where
  pinnedBase := (t.session.map (·.pinnedBase)).or (if t.harness.base != "auto" then some t.harness.base else none)
  clientModel := t.req.model.filter fun m => m != "" && m != "auto"
  needsVertexNative := t.req.tools.any fun tool => (toolType tool).any fun ty =>
    ["google_search", "url_context", "code_execution"].any fun n => n.toList == ty
  needsVision := t.req.hasVision
  needsSkills := false
  needsEnvironment := t.req.envId.isSome
  mcpTransports := (t.req.tools.filter fun tool => toolType tool == some "mcp".toList).filterMap fun tool =>
    (((tool.get? "transport").bind Json.asStr).map String.ofList).or ((tool.get? "server_url").map fun _ => "http")
  needsHardToolBlock := !t.harness.disabledTools.isEmpty

def overrideSelection (route : HarnessJevRoute) : Selection2d where
  profile := if route.profiles.isEmpty then none else some route.defaultProfileIndex
  tier := route.defaultTierIndex
  outcome := .staticOverride
  profileOutcome := if route.profiles.isEmpty then none else some .staticOverride
  bumpEffort := false
  bumpSteps := false

def Turn.legPolicy (t : Turn) (selection : Selection2d) : LegPolicy where
  effort := if t.req.reasoningEffort.isSome then .client else .tier selection.bumpEffort
  bumpSteps := selection.bumpSteps
  clientMaxStep := t.req.maxStep

def Turn.noCell (t : Turn) : GatewayError :=
  match t.requirements.clientModel with
  | some m => .modelUnavailable ("model '" ++ m ++ "' is not available on harness route '" ++ t.routeAlias ++
      "' for the required capabilities")
  | none => .harnessUnavailable ("no (base, model) cell on harness route '" ++ t.routeAlias ++
      "' satisfies request capabilities")

def Gateway.planJevHarness (g : Gateway) (t : Turn) (route : HarnessJevRoute) (mode : RoutingMode) :
    TurnM HarnessRoutePlan :=
  match eligibleGrid route g.harnesses.bases t.requirements with
  | none => Trace.fail t.noCell
  | some grid => do
    let askProfile := t.session.isNone && grid.activeProfiles.length ≥ 2
    let askHorizon := route.router.horizonThreshold.isSome
    let selection ←
      if mode = .staticOverride then pure (overrideSelection route)
      else g.decideHarness2d t route grid askProfile askHorizon
    let chosen := (t.pinnedProfile route).or selection.profile
    let legs := orderGrid grid route chosen selection.tier (t.legPolicy selection)
    if legs.isEmpty then
      Trace.fail (.harnessUnavailable ("no executable legs on harness route '" ++ t.routeAlias ++ "'"))
    else
      pure {
        mode := mode
        legs := legs
        profileNames := route.profiles.map (·.name)
        tierNames := route.tiers.map (·.name)
        decidedProfile := chosen
        decidedTier := some selection.tier
        outcome := some selection.outcome
        profileOutcome := selection.profileOutcome
        clientEffort := t.req.reasoningEffort.isSome
        stepBumped := selection.bumpSteps }

def TaskRequirements.staticOk (reqs : TaskRequirements) (sl : StaticHarnessLeg) : Bool :=
  reqs.pinnedBase.all (· == sl.base) && reqs.clientModel.all (· == sl.leg.model)

def Turn.noStaticLeg (t : Turn) : GatewayError :=
  if t.requirements.clientModel.isSome then
    .modelUnavailable ("no leg on harness route '" ++ t.routeAlias ++ "' matches requested model")
  else
    .harnessUnavailable ("no static legs on harness route '" ++ t.routeAlias ++ "' satisfy request capabilities")

def Turn.planStatic (t : Turn) (mode : RoutingMode) (staticLegs : List StaticHarnessLeg) :
    Except GatewayError HarnessRoutePlan :=
  let legs := (staticLegs.filter t.requirements.staticOk).map fun sl =>
    { profile := none
      base := sl.base
      tier := 0
      leg := { sl.leg with effort := t.req.reasoningEffort.or sl.leg.effort }
      wire := sl.wire
      maxStep := t.req.maxStep
      timeoutSeconds := none : PlannedHarnessLeg }
  if legs.isEmpty then .error t.noStaticLeg
  else
    .ok {
      mode := mode
      legs := legs
      profileNames := []
      tierNames := []
      decidedProfile := none
      decidedTier := none
      outcome := none
      profileOutcome := none
      clientEffort := t.req.reasoningEffort.isSome
      stepBumped := false }

def Gateway.planHarnessRoute (g : Gateway) (t : Turn) : TurnM HarnessRoutePlan :=
  match g.harnesses.staticLegs t.routeAlias with
  | none => Trace.fail (.unknownModel t.routeAlias)
  | some staticLegs =>
    let jevRoute := g.harnesses.jevRoute t.routeAlias
    match resolveMode jevRoute.isSome t.req.routingStrategy with
    | .error e => Trace.fail (.badRequest e)
    | .ok mode =>
      match mode, jevRoute with
      | .jev, some route | .staticOverride, some route => g.planJevHarness t route mode
      | _, _ => Trace.lift (t.planStatic mode staticLegs)

/-! ## The report -/

structure HarnessRoutingReport where
  mode : RoutingMode
  harnessBase : Option String
  profile : Option String
  profileDecided : Option String
  tier : Option String
  tierDecided : Option String
  effort : Option String
  maxStep : Option Nat
  degraded : Option String
deriving DecidableEq, Repr

def HarnessRoutePlan.reportFor (plan : HarnessRoutePlan) (served : Option (String × String × String)) :
    HarnessRoutingReport :=
  let matched := (served.bind fun (base, provider, model) =>
    plan.legs.find? fun p => p.base == base && p.leg.provider == provider && p.leg.model == model).or plan.legs.head?
  let profile := (matched.bind (·.profile)).bind fun i => plan.profileNames[i]?
  let decidedProfile := plan.decidedProfile.bind fun i => plan.profileNames[i]?
  let tier := matched.bind fun p => plan.tierNames[p.tier]?
  let decidedTier := plan.decidedTier.bind fun i => plan.tierNames[i]?
  { mode := plan.mode
    harnessBase := matched.map (·.base)
    profile := profile
    profileDecided := decidedProfile.filter fun d => profile.any (· != d)
    tier := tier
    tierDecided := decidedTier.filter fun d => tier.any (· != d)
    effort :=
      if plan.tierNames.isEmpty then none
      else if plan.clientEffort then some "client"
      else (matched.bind (·.leg.effort)).map Effort.asStr
    maxStep := matched.bind (·.maxStep)
    degraded := (plan.outcome.bind DecisionOutcome.degradedReason).or
      (match plan.profileOutcome with
        | some .lowConfidence => some "low_profile_confidence"
        | some other => other.degradedReason
        | none => none) }

/-! ## The turn -/

def optStr : Option Text → Json
  | some t => .string t
  | none => .null

def Turn.dispatch (t : Turn) (plan : HarnessRoutePlan) (leg : PlannedHarnessLeg) : UhpTurnDispatch where
  sessionId := t.sessionId
  responseId := t.responseId
  harnessId := t.harnessId
  profile := leg.profile.bind fun i => plan.profileNames[i]?
  base := leg.base
  tier := plan.tierNames[leg.tier]?
  wire := leg.wire
  leg := leg.leg
  maxStep := leg.maxStep
  timeoutSeconds := leg.timeoutSeconds
  request := t.req

def Turn.sessionRecord (t : Turn) (d : UhpTurnDispatch) (output : UhpTurnOutput) : UhpSessionRecord where
  sessionId := t.sessionId
  harnessId := t.harnessId
  pinnedProfile := d.profile
  pinnedBase := d.base
  envId := t.req.envId.or (t.session.bind (·.envId))
  turnCount := (t.session.map (·.turnCount + 1)).getD 1
  history := (t.session.map (·.history)).getD [] ++ [("user", t.req.promptText), ("assistant", output.outputText)]

def Turn.responseBody (t : Turn) (d : UhpTurnDispatch) (output : UhpTurnOutput) (envId : Option Text) (cost : Json) :
    Json :=
  .object [
    ("id", str t.responseId),
    ("object", str "response"),
    ("status", str "completed"),
    ("model", str (d.leg.provider ++ "/" ++ d.leg.model)),
    ("previous_response_id", optStr (t.req.previousResponseId.map String.toList)),
    ("output", .array [.object [
      ("type", str "message"),
      ("role", str "assistant"),
      ("content", .array [.object [("type", str "output_text"), ("text", .string output.outputText)]])]]),
    ("usage", .object [
      ("input_tokens", num output.inputTokens),
      ("output_tokens", num output.outputTokens),
      ("total_tokens", num (output.inputTokens + output.outputTokens)),
      ("turns", num output.turns),
      ("cost_usd", cost)]),
    ("metadata", .object [
      ("harness_id", str t.harnessId),
      ("session_id", str t.sessionId),
      ("env_id", optStr envId),
      ("harness_profile", optStr (d.profile.map String.toList)),
      ("harness_base", str d.base),
      ("model_tier", optStr (d.tier.map String.toList)),
      ("wire_protocol", str d.wire.asStr)])]

def Gateway.complete (g : Gateway) (t : Turn) (plan : HarnessRoutePlan) (leg : PlannedHarnessLeg)
    (output : UhpTurnOutput) : TurnM (Json × HarnessRoutingReport) := do
  let d := t.dispatch plan leg
  let report := plan.reportFor (some (leg.base, leg.leg.provider, leg.leg.model))
  let cost := g.costUsd leg.leg.provider leg.leg.model output.inputTokens output.outputTokens
  Trace.emit (.enqueue (g.turnRow t.ctx t.routeAlias t.sessionId t.responseId leg.leg.provider leg.leg.model "uhp"
    "harness_turn" output.inputTokens output.outputTokens
    (some (d.profile.getD "static" ++ "/" ++ leg.base ++ "/" ++ d.tier.getD "static"))
    (plan.outcome.map DecisionOutcome.metricLabel)))
  let record := t.sessionRecord d output
  let body := t.responseBody d output record.envId cost
  Trace.emit (.recordResponse ⟨t.responseId, record, body⟩)
  pure (body, report)

def Gateway.walkLegs (g : Gateway) (t : Turn) (plan : HarnessRoutePlan) (runner : UhpRunner) (attempt : Nat)
    (failures : List LegFailure) : List PlannedHarnessLeg → TurnM (Json × HarnessRoutingReport)
  | [] => Trace.fail (.allLegsFailed t.routeAlias failures)
  | leg :: legs => do
    Trace.emit (.executeTurn (t.dispatch plan leg))
    match runner attempt (t.dispatch plan leg) with
    | .ok output => g.complete t plan leg output
    | .error err =>
      g.walkLegs t plan runner (attempt + 1)
        (failures ++ [⟨leg.base ++ ":" ++ leg.leg.provider, leg.leg.model, err.message⟩]) legs

def priorOf (store : UhpSessionStore) (req : UhpCreateRequest) : Except GatewayError (Option StoredUhpResponse) :=
  match req.previousResponseId with
  | none => .ok none
  | some id =>
    match store.getResponse id with
    | some prior => .ok (some prior)
    | none => .error (.badRequest ("unknown previous_response_id '" ++ id ++ "'"))

def Gateway.harnessIdOf (g : Gateway) (req : UhpCreateRequest) (prior : Option StoredUhpResponse) :
    Except GatewayError String :=
  match req.harnessId, prior with
  | some requested, some prev =>
    if requested != prev.session.harnessId then .error (.harnessMismatch prev.session.harnessId requested)
    else .ok requested
  | some requested, none => .ok requested
  | none, some prev => .ok prev.session.harnessId
  | none, none => .ok ((g.harnesses.harnesses.head?.map (·.1)).getD "auto")

structure FreshIds where
  session : String
  response : String

/-- The turn of a request: its session, and its harness and route. A harness
that is not configured is its own route. -/
def Gateway.resolveTurn (g : Gateway) (store : UhpSessionStore) (ctx : RequestCtx) (ids : FreshIds)
    (req : UhpCreateRequest) : Except GatewayError Turn := do
  let prior ← priorOf store req
  let harnessId ← g.harnessIdOf req prior
  let harness := (g.harnesses.harness harnessId).getD { name := harnessId, base := "auto", route := some harnessId }
  .ok {
    req := req
    ctx := ctx
    prior := prior
    harnessId := harnessId
    harness := harness
    routeAlias := harness.route.getD harnessId
    sessionId := (prior.map (·.session.sessionId)).getD ids.session
    responseId := ids.response }

def Gateway.uhpResponse (g : Gateway) (store : UhpSessionStore) (ctx : RequestCtx) (ids : FreshIds)
    (req : UhpCreateRequest) : TurnM (Json × HarnessRoutingReport) := do
  let t ← Trace.lift (g.resolveTurn store ctx ids req)
  Trace.lift (store.tryAcquireSession t.sessionId)
  let plan ← g.planHarnessRoute t
  match g.uhpRunner with
  | none => Trace.fail (.harnessUnavailable "no UHP runner configured on gateway")
  | some runner => g.walkLegs t plan runner 0 [] plan.legs

end SynapseGateway
