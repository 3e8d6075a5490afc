import Mathlib.Algebra.Order.Floor.Ring
import Mathlib.Data.Rat.Floor
import SynapseGateway.Harness
import SynapseGateway.Json
import SynapseGateway.Lib.Binary64
import SynapseGateway.Sse

/-!
# Planning over the harness grid

The cells of a grid a request can use, the questions Jev is asked about it, the
selection its answers make, and the order of the cells.
-/

namespace SynapseGateway

open String (utf8Len)
open Utf8 (Text)

inductive RoutingMode where
  | static | jev | staticOverride
deriving DecidableEq, Repr

def resolveMode (isJevRoute : Bool) (requested : Option String) : Except String RoutingMode :=
  match isJevRoute, requested with
  | true, none | true, some "jev" => .ok .jev
  | true, some "static" => .ok .staticOverride
  | false, none | false, some "static" => .ok .static
  | false, some "jev" => .error "routing_strategy \"jev\" requires a route with tiers"
  | _, some other => .error ("unknown routing_strategy '" ++ other ++ "' (expected \"static\" or \"jev\")")

inductive DecisionOutcome where
  | decided | lowConfidence | timeout | error | unavailable | staticOverride
deriving DecidableEq, Repr

def DecisionOutcome.metricLabel : DecisionOutcome → String
  | .decided => "decided"
  | .lowConfidence => "low_confidence"
  | .timeout => "timeout"
  | .error | .unavailable => "error"
  | .staticOverride => "static_override"

def DecisionOutcome.degradedReason : DecisionOutcome → Option String
  | .decided | .staticOverride => none
  | .lowConfidence => some "low_confidence"
  | .timeout => some "timeout"
  | .error => some "error"
  | .unavailable => some "jev_unavailable"

/-! ## The state and the questions -/

def STATE_BUDGET : Nat := 24000
def LATEST_CAP : Nat := 16000
def SYSTEM_CAP : Nat := 2000
def HISTORY_ENTRY_CAP : Nat := 2000

def truncate (s : Text) (cap : Nat) : Text := s.take cap

/-- A text within `cap` characters, or its two ends joined by an ellipsis line. -/
def headTail (s : Text) (cap : Nat) : Text :=
  if s.length ≤ cap then s else s.take (cap / 2) ++ "\n…\n".toList ++ s.drop (s.length - cap / 2)

/-- What of a turn goes into the state. No caller passes file names, and none
sets the count of skills. -/
structure UhpStateInput where
  latestUserMessage : Text
  recentHistory : List (String × Text)
  instructions : Option Text
  hasImages : Bool
  hasEnvironment : Bool
  mcpServerCount : Nat
  skillCount : Nat := 0
  isContinuation : Bool

def num (n : Nat) : Json := .number (.posInt n)

def combinedSystem (systemPrompt : Text) (instructions : Option Text) : Option Text :=
  match (trim systemPrompt).isEmpty, (instructions.map trim).filter (!·.isEmpty) with
  | true, none => none
  | false, none => some (truncate systemPrompt SYSTEM_CAP)
  | true, some inst => some (truncate inst SYSTEM_CAP)
  | false, some inst => some (truncate (trim systemPrompt ++ ['\n'] ++ inst) SYSTEM_CAP)

def historyWithin (budget used : Nat) : List (String × Text) → List Json
  | [] => []
  | (role, content) :: entries =>
    let trimmed := truncate content HISTORY_ENTRY_CAP
    let cost := utf8Len trimmed + utf8Len role.toList + 24
    if used + cost ≤ budget then
      .object [("role", .string role.toList), ("content", .string trimmed)] ::
        historyWithin budget (used + cost) entries
    else []

def buildHarnessState (req : UhpStateInput) (harness : ConfiguredHarness) : Json :=
  let latest := headTail req.latestUserMessage LATEST_CAP
  let system := combinedSystem harness.systemPrompt.toList req.instructions
  let overhead := utf8Len latest + (system.map utf8Len).getD 0 + 512
  let history := (historyWithin (STATE_BUDGET - overhead) 0 req.recentHistory.reverse).reverse
  let state := Json.object [
    ("latest_user_message", .string latest),
    ("recent_history", .array history),
    ("has_images", .bool req.hasImages),
    ("has_input_files", .bool false),
    ("input_file_extensions", .array []),
    ("has_environment", .bool req.hasEnvironment),
    ("mcp_server_count", num req.mcpServerCount),
    ("skill_count", num req.skillCount),
    ("is_continuation", .bool req.isContinuation)]
  match system with
  | some sys => state.set "system_prompt" (.string sys)
  | none => state

def question (kind instructions : String) (criteria : Option Json) : Json :=
  .object ([("type", str kind), ("instructions", str instructions)] ++ (criteria.map ("criteria", ·)).toList)

def buildHarnessQuestions (profiles : List HarnessProfile) (tiers : List HarnessTier) (askProfile askHorizon : Bool) :
    Json :=
  let profile := question "choice"
    ("Which work archetype best matches what is needed to complete `latest_user_message`, " ++
      "given `system_prompt` and the attached workspace context?")
    (some (.object (profiles.map fun p => (p.name, str p.description))))
  let difficulty := question "score"
    "How demanding is it to complete `latest_user_message` end-to-end, given `recent_history` and `system_prompt`?"
    (some (.array (tiers.map fun t => str t.description)))
  let reasoning := question "noul"
    ("Does completing `latest_user_message` require careful step-by-step reasoning such as maths, logic, " ++
      "architectural planning, or subtle debugging?") none
  let horizon := question "noul"
    ("Will completing `latest_user_message` require many iterative tool-call rounds (such as exploring many files, " ++
      "running multiple test-fix cycles, or gathering many sources)?") none
  .object ((if askProfile && profiles.length ≥ 2 then [("profile", profile)] else []) ++
    [("difficulty", difficulty), ("needs_reasoning", reasoning)] ++
    if askHorizon then [("needs_deep_horizon", horizon)] else [])

/-! ## The eligible cells -/

structure TaskRequirements where
  pinnedBase : Option String := none
  clientModel : Option String := none
  needsVertexNative : Bool := false
  needsVision : Bool := false
  needsSkills : Bool := false
  needsEnvironment : Bool := false
  mcpTransports : List String := []
  needsHardToolBlock : Bool := false

/-- What is left of a grid. Profiles and tiers keep their indices; the pruned
ones have no bases and no legs. -/
structure EligibleGrid where
  bases : List (String × BaseSpec)
  activeProfiles : List HarnessProfile
  profiles : List HarnessProfile
  tiers : List HarnessTier

def isTextOnlyModel (model : String) : Bool :=
  ["deepseek-chat", "deepseek-reasoner", "deepseek-r1", "qwen3-coder", "jev-"].any fun p =>
    p.toList.isPrefixOf model.toLower.toList

def TaskRequirements.baseOk (reqs : TaskRequirements) (id : String) (spec : BaseSpec) : Bool :=
  reqs.pinnedBase.all (· == id) && (!reqs.needsSkills || spec.skills) && (!reqs.needsEnvironment || spec.environments) &&
    reqs.mcpTransports.all spec.mcpTransports.contains && (!reqs.needsHardToolBlock || spec.toolEnforcement == .hard)

def TaskRequirements.legOk (reqs : TaskRequirements) (spec : BaseSpec) (leg : ChainLeg) : Bool :=
  (!reqs.needsVertexNative || leg.provider == "vertex") && (!reqs.needsVision || !isTextOnlyModel leg.model) &&
    reqs.clientModel.all (· == leg.model) && (preferredWire spec.wire leg.provider leg.model).isSome

def HarnessTier.allows (t : HarnessTier) (base : String) : Bool := t.bases.all (·.contains base)

abbrev BaseCatalog := List (String × BaseSpec)

def eligibleBases (catalog : BaseCatalog) (reqs : TaskRequirements) : BaseCatalog :=
  catalog.filter fun (id, spec) => reqs.baseOk id spec

def legCompatibleWithBase (bases : BaseCatalog) (reqs : TaskRequirements) (base : String) (leg : ChainLeg) : Bool :=
  (bases.lookup base).any fun spec => reqs.legOk spec leg

def eligibleProfiles (route : HarnessJevRoute) (bases : BaseCatalog) (reqs : TaskRequirements) : List HarnessProfile :=
  route.profiles.map fun p =>
    { p with bases := p.bases.filter fun b => (bases.lookup b).isSome &&
        route.tiers.any fun t => t.allows b && t.legs.any (legCompatibleWithBase bases reqs b) }

def candidateBases (route : HarnessJevRoute) (bases : BaseCatalog) (reqs : TaskRequirements) : List String :=
  if route.profiles.isEmpty then bases.map (·.1) else (eligibleProfiles route bases reqs).flatMap (·.bases)

def eligibleTiers (route : HarnessJevRoute) (bases : BaseCatalog) (reqs : TaskRequirements) : List HarnessTier :=
  route.tiers.map fun t =>
    { t with legs := t.legs.filter fun l =>
        (candidateBases route bases reqs).any fun b => t.allows b && legCompatibleWithBase bases reqs b l }

/-- The cells of `route` that meet `reqs`; `none` if there are none. -/
def eligibleGrid (route : HarnessJevRoute) (catalog : BaseCatalog) (reqs : TaskRequirements) : Option EligibleGrid :=
  let bases := eligibleBases catalog reqs
  let profiles := eligibleProfiles route bases reqs
  let tiers := eligibleTiers route bases reqs
  if bases.isEmpty || (candidateBases route bases reqs).isEmpty then none
  else if tiers.any (!·.legs.isEmpty) then some ⟨bases, profiles.filter (!·.bases.isEmpty), profiles, tiers⟩
  else none

/-! ## The decision -/

structure HarnessAnswers where
  profile : Option Text
  profileConfidence : Option ℚ
  difficulty : ℚ
  difficultyConfidence : ℚ
  needsReasoning : Option ℚ
  needsDeepHorizon : Option ℚ

structure HarnessDecision where
  answers : HarnessAnswers
  inputTokens : Nat
  outputTokens : Nat

structure Selection2d where
  profile : Option Nat
  tier : Nat
  outcome : DecisionOutcome
  profileOutcome : Option DecisionOutcome
  bumpEffort : Bool
  bumpSteps : Bool
deriving DecidableEq, Repr

/-- The sum is rounded as `f64` addition rounds it. -/
def scoreToTier (score : ℚ) (tiers : Nat) : Nat := min ⌊Binary64.round (score + 1 / 2)⌋.toNat (tiers - 1)

def HarnessJevRoute.profileNamed (route : HarnessJevRoute) (name : Text) : Option Nat :=
  route.profiles.findIdx? fun p => p.name.toList == name

def select2d (result : Except DecisionOutcome HarnessAnswers) (route : HarnessJevRoute) (askProfile : Bool) :
    Selection2d :=
  let hasProfiles := askProfile && !route.profiles.isEmpty
  match result with
  | .error outcome =>
    { profile := if hasProfiles then some route.defaultProfileIndex else none
      tier := route.defaultTierIndex
      outcome := outcome
      profileOutcome := if hasProfiles then some outcome else none
      bumpEffort := false
      bumpSteps := false }
  | .ok a =>
    let (tier, outcome) :=
      if a.difficultyConfidence ≥ route.router.minConfidence then
        (scoreToTier a.difficulty route.tiers.length, DecisionOutcome.decided)
      else (route.defaultTierIndex, .lowConfidence)
    let (profile, profileOutcome) :=
      if hasProfiles then
        match a.profile.bind route.profileNamed, a.profileConfidence.any (· ≥ route.router.minProfileConfidence) with
        | some i, true => (some i, some DecisionOutcome.decided)
        | _, _ => (some route.defaultProfileIndex, some .lowConfidence)
      else (none, none)
    { profile := profile
      tier := tier
      outcome := outcome
      profileOutcome := profileOutcome
      bumpEffort := a.needsReasoning.any (· ≥ route.router.reasoningThreshold)
      bumpSteps := route.router.horizonThreshold.any fun th => a.needsDeepHorizon.any (· ≥ th) }

/-! ## The order of the cells -/

structure PlannedHarnessLeg where
  profile : Option Nat
  base : String
  tier : Nat
  leg : ChainLeg
  wire : WireProtocol
  maxStep : Option Nat
  timeoutSeconds : Option Nat
deriving DecidableEq, Repr

def EffortPolicy.effort (policy : EffortPolicy) (tier : HarnessTier) : Option Effort :=
  match policy with
  | .client => none
  | .tier true => some tier.effort.bump
  | .tier false => some tier.effort

/-- The bases in order, each with the profile it is tried for: those of the
chosen profile, of the default one, then of the others. -/
def profileBases (grid : EligibleGrid) (route : HarnessJevRoute) (chosen : Option Nat) : List (Option Nat × String) :=
  if grid.profiles.isEmpty then grid.bases.map fun (b, _) => (none, b)
  else
    let defaultProf := route.defaultProfileIndex
    let primary := chosen.getD defaultProf
    let others := (List.range grid.profiles.length).filter fun i => i != primary && i != defaultProf
    ([primary] ++ (if defaultProf != primary then [defaultProf] else []) ++ others).flatMap fun i =>
      ((grid.profiles[i]?.map (·.bases)).getD []).map fun b => (some i, b)

def maxStepOf (grid : EligibleGrid) (tier : HarnessTier) (i : Nat) (bumpSteps : Bool) (client : Option Nat) :
    Option Nat :=
  client.or
    (if bumpSteps then ((grid.tiers[min (i + 1) (grid.tiers.length - 1)]?).bind (·.maxStep)).or tier.maxStep
      else tier.maxStep)

structure LegPolicy where
  effort : EffortPolicy
  bumpSteps : Bool
  clientMaxStep : Option Nat

def cellLeg (grid : EligibleGrid) (policy : LegPolicy) (profile : Option Nat) (base : String) (i : Nat)
    (tier : HarnessTier) (leg : ChainLeg) (wire : WireProtocol) : PlannedHarnessLeg where
  profile := profile
  base := base
  tier := i
  leg := { leg with effort := policy.effort.effort tier }
  wire := wire
  maxStep := maxStepOf grid tier i policy.bumpSteps policy.clientMaxStep
  timeoutSeconds := tier.timeoutSeconds

def baseCells (grid : EligibleGrid) (startTier : Nat) (policy : LegPolicy) (profile : Option Nat) (base : String)
    (spec : BaseSpec) : List PlannedHarnessLeg :=
  (escalationOrder grid.tiers.length startTier).flatMap fun i =>
    match grid.tiers[i]? with
    | none => []
    | some tier =>
      if tier.allows base then
        tier.legs.filterMap fun l =>
          (preferredWire spec.wire l.provider l.model).map (cellLeg grid policy profile base i tier l)
      else []

def PlannedHarnessLeg.sameCell (a b : PlannedHarnessLeg) : Bool :=
  a.base == b.base && a.tier == b.tier && a.leg.provider == b.leg.provider && a.leg.model == b.leg.model

def firstOfCell : List PlannedHarnessLeg → List PlannedHarnessLeg → List PlannedHarnessLeg
  | _, [] => []
  | seen, l :: legs =>
    if seen.any (·.sameCell l) then firstOfCell (seen ++ [l]) legs else l :: firstOfCell (seen ++ [l]) legs

/-- The cells of the grid, bases outermost; a base of two profiles is tried for both. -/
def gridCells (grid : EligibleGrid) (route : HarnessJevRoute) (chosen : Option Nat) (startTier : Nat)
    (policy : LegPolicy) : List PlannedHarnessLeg :=
  (profileBases grid route chosen).flatMap fun (profile, base) =>
    match grid.bases.lookup base with
    | none => []
    | some spec => baseCells grid startTier policy profile base spec

def orderGrid (grid : EligibleGrid) (route : HarnessJevRoute) (chosen : Option Nat) (startTier : Nat)
    (policy : LegPolicy) : List PlannedHarnessLeg :=
  firstOfCell [] (gridCells grid route chosen startTier policy)

end SynapseGateway
