import SynapseGateway.HarnessJev
import SynapseGateway.JevLane
import SynapseGateway.Lib.Grouped
import SynapseGateway.RouteTablePrune

/-!
# Planning a chat route

A jev route's legs are ordered from the tier that serves the decision, the
harder tiers before the easier ones, and stamped with an effort.
-/

namespace SynapseGateway

open Utf8 (Text)

/-! ## The request -/

structure RoutedRequest where
  model : String
  routingStrategy : Option String := none
  vertex : Option VertexExt := none
  jev : Option JevExt := none
  passthrough : List (String × Json) := []

def vertexTriggers (req : RoutedRequest) : Bool :=
  match req.vertex with
  | none => false
  | some v => v.cachedContent.isSome || v.responseSchema.isSome || v.thinkingConfig.isSome ||
      (v.mediaUris.getD []).any fun u => "gs://".toList.isPrefixOf u

def Effort.keyword (s : Text) : Option Effort :=
  [none, minimal, low, medium, high, xhigh, max].find? fun e => e.asStr.toList == s

/-- A keyword, as a string or as an object that maps it to null. -/
def Effort.fromValue : Json → Option Effort
  | .string s => keyword s
  | .object [(k, .null)] => keyword k.toList
  | _ => Option.none

def clientEffort (req : RoutedRequest) : Option Effort :=
  (req.passthrough.lookup "reasoning_effort").bind Effort.fromValue

/-- The client chose its effort on the lane that will serve it. -/
def clientSetsEffort (req : RoutedRequest) : Bool :=
  if vertexTriggers req then (req.vertex.bind (·.thinkingConfig)).isSome else (clientEffort req).isSome

def hasJevBlock (req : RoutedRequest) : Bool := req.jev.any fun j => !j.questions.isEmpty || j.extract.isSome

/-! ## The decision -/

structure JevAnswers where
  difficulty : ℚ
  confidence : ℚ
  needsReasoning : Option ℚ

structure Selection where
  tier : Nat
  outcome : DecisionOutcome
  bump : Bool
deriving DecidableEq, Repr

def select (result : Except DecisionOutcome JevAnswers) (route : JevRoute) : Selection :=
  let bump (a : JevAnswers) := a.needsReasoning.any (· ≥ route.router.reasoningThreshold)
  match result with
  | .ok a =>
    if a.confidence < route.router.minConfidence then ⟨route.defaultIndex, .lowConfidence, bump a⟩
    else ⟨scoreToTier a.difficulty route.tiers.length, .decided, bump a⟩
  | .error outcome => ⟨route.defaultIndex, outcome, false⟩

/-! ## The tiers that can serve -/

def usable (vertexOnly : Bool) (l : ChainLeg) : Bool := !vertexOnly || l.provider == "vertex"

def Tier.eligible (vertexOnly : Bool) (t : Tier) : Tier := { t with legs := t.legs.filter (usable vertexOnly) }

/-- A tier without a leg keeps its place. -/
def JevRoute.eligibleTiers (r : JevRoute) (vertexOnly : Bool) : List Tier := r.tiers.map (Tier.eligible vertexOnly)

def serving (tiers : List Tier) (i : Nat) : Bool := ((tiers[i]?).map fun t => !t.legs.isEmpty).getD false

def nearestServing (tiers : List Tier) (wanted : Nat) : Option Nat :=
  ((List.range' wanted (tiers.length - wanted)).find? (serving tiers)).or
    ((List.range (min wanted tiers.length)).reverse.find? (serving tiers))

/-! ## The plan -/

structure RoutePlan where
  mode : RoutingMode
  legs : List PlannedLeg
  tierNames : List String
  decided : Option Nat
  outcome : Option DecisionOutcome
  clientEffort : Bool
  guard : Option String

def RoutePlan.staticLegs (legs : List ChainLeg) (clientEffort : Bool) : RoutePlan where
  mode := .static
  legs := legs.map fun l => ⟨l, 0⟩
  tierNames := []
  decided := none
  outcome := none
  clientEffort := clientEffort && legs.any fun l => l.effort.isSome
  guard := none

def noEligibleLegs (req : RoutedRequest) : GatewayError :=
  .badRequest ("no legs of route '" ++ req.model ++
    "' can serve this request (native Vertex features need a vertex leg)")

def JevRoute.selection (route : JevRoute) (mode : RoutingMode) (result : Except DecisionOutcome JevAnswers) : Selection :=
  match mode with
  | .staticOverride => ⟨route.defaultIndex, .staticOverride, false⟩
  | .static | .jev => select result route

def effortPolicy (req : RoutedRequest) (selection : Selection) : EffortPolicy :=
  if clientSetsEffort req then .client else .tier selection.bump

/-- The plan of a jev route, `result` being what Jev answers if it is asked. -/
def planTiered (req : RoutedRequest) (route : JevRoute) (mode : RoutingMode) (result : Except DecisionOutcome JevAnswers) :
    Except GatewayError RoutePlan :=
  if hasJevBlock req then .error (.badRequest "the jev extension is not supported on jev-routed routes")
  else
    let tiers := route.eligibleTiers (vertexTriggers req)
    let selection := route.selection mode result
    match nearestServing tiers 0, nearestServing tiers selection.tier with
    | some _, some start =>
      .ok {
        mode := mode
        legs := orderLegs tiers start (effortPolicy req selection)
        tierNames := route.tiers.map (·.name)
        decided := some selection.tier
        outcome := some selection.outcome
        clientEffort := effortPolicy req selection == .client
        guard := none }
    | _, _ => .error (noEligibleLegs req)

/-- What planning returns; `masked` says whether the input guard rewrote the request. -/
def planRoute (table : RouteTable) (req : RoutedRequest) (masked : Except GatewayError Bool)
    (result : Except DecisionOutcome JevAnswers) : Except GatewayError RoutePlan :=
  match table.legs req.model with
  | none => .error (.unknownModel req.model)
  | some legs =>
    (((resolveMode (table.jevRoute req.model).isSome req.routingStrategy).mapError .badRequest).bind fun mode =>
      masked.bind fun masked =>
        (match mode, table.jevRoute req.model with
          | .jev, some route | .staticOverride, some route => planTiered req route mode result
          | _, _ => .ok (.staticLegs legs (clientSetsEffort req))).map fun plan : RoutePlan =>
          { plan with guard := if masked then some "masked" else none })

end SynapseGateway
