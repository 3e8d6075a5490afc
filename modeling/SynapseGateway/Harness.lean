import Mathlib.Data.Rat.Defs
import Mathlib.Algebra.Order.Ring.Unbundled.Rat
import SynapseGateway.Route

/-!
# The harness table

Runtime capabilities of the harness bases, the harness catalog and the harness
routes: static legs, or a grid of profiles and tiers a Jev decision picks from.
-/

namespace SynapseGateway

inductive WireProtocol where
  | anthropicMessages | vertexAnthropic | openaiResponses | geminiNative | openaiChat | bedrock | typesafe
deriving DecidableEq, Repr

def WireProtocol.asStr : WireProtocol → String
  | .anthropicMessages => "anthropic_messages"
  | .vertexAnthropic => "vertex_anthropic"
  | .openaiResponses => "openai_responses"
  | .geminiNative => "gemini_native"
  | .openaiChat => "openai_chat"
  | .bedrock => "bedrock"
  | .typesafe => "typesafe"

inductive ToolEnforcement where
  | hard | instruction
deriving DecidableEq, Repr

structure BaseSpec where
  wire : List WireProtocol
  skills : Bool := true
  environments : Bool := true
  mcpTransports : List String := []
  toolEnforcement : ToolEnforcement := .instruction
deriving DecidableEq, Repr

structure ConfiguredHarness where
  name : String
  base : String
  route : Option String := none
  systemPrompt : String := ""
  disabledTools : List String := []
deriving DecidableEq, Repr

structure HarnessJevRouterConfig where
  model : String := "jev-latest"
  defaultProfile : Option String := none
  defaultTier : String
  minConfidence : ℚ := 1 / 2
  minProfileConfidence : ℚ := 1 / 2
  reasoningThreshold : ℚ := 7 / 10
  horizonThreshold : Option ℚ := none
deriving DecidableEq

structure HarnessProfile where
  name : String
  description : String
  bases : List String
deriving DecidableEq, Repr

structure HarnessTier where
  name : String
  description : String
  effort : Effort
  maxStep : Option Nat := none
  timeoutSeconds : Option Nat := none
  bases : Option (List String) := none
  legs : List ChainLeg
deriving DecidableEq, Repr

structure StaticHarnessLeg where
  base : String
  leg : ChainLeg
  wire : WireProtocol
deriving DecidableEq, Repr

structure HarnessJevRoute where
  router : HarnessJevRouterConfig
  profiles : List HarnessProfile
  tiers : List HarnessTier
deriving DecidableEq

def HarnessJevRoute.defaultTierIndex (route : HarnessJevRoute) : Nat :=
  (route.tiers.findIdx? fun t => t.name == route.router.defaultTier).getD 0

def HarnessJevRoute.defaultProfileIndex (route : HarnessJevRoute) : Nat :=
  (route.router.defaultProfile.bind fun d => route.profiles.findIdx? fun p => p.name == d).getD 0

def providerWires (provider model : String) : List WireProtocol :=
  if provider = "anthropic" then [.anthropicMessages]
  else if provider = "vertex" then
    if "claude-".toList.isPrefixOf model.toList then [.vertexAnthropic] else [.geminiNative, .openaiChat]
  else if provider = "openai" then [.openaiResponses, .openaiChat]
  else if provider = "bedrock" then [.bedrock]
  else if provider = "typesafe" then [.typesafe]
  else [.openaiChat]

def preferredWire (baseWires : List WireProtocol) (provider model : String) : Option WireProtocol :=
  (providerWires provider model).find? baseWires.contains

/-- Bases and harnesses are in key order. -/
structure HarnessRouteTable where
  bases : List (String × BaseSpec) := []
  harnesses : List (String × ConfiguredHarness) := []
  staticRoutes : List (String × List StaticHarnessLeg) := []
  jevRoutes : List (String × HarnessJevRoute) := []
  policies : List (String × String) := []
deriving DecidableEq

def HarnessRouteTable.harness (t : HarnessRouteTable) (id : String) : Option ConfiguredHarness := t.harnesses.lookup id

def HarnessRouteTable.jevRoute (t : HarnessRouteTable) (routeAlias : String) : Option HarnessJevRoute :=
  t.jevRoutes.lookup routeAlias

def HarnessRouteTable.staticLegs (t : HarnessRouteTable) (routeAlias : String) : Option (List StaticHarnessLeg) :=
  t.staticRoutes.lookup routeAlias

def HarnessRouteTable.policy (t : HarnessRouteTable) (routeAlias : String) : Option String := t.policies.lookup routeAlias

end SynapseGateway
