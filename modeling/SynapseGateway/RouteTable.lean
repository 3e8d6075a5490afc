import Mathlib.Data.Finset.Basic
import Mathlib.Data.Rat.Defs
import Mathlib.Algebra.Order.Ring.Unbundled.Rat
import SynapseGateway.Route
import SynapseGateway.Sse

/-!
# The route table

Model aliases with their legs: static legs, or the tiers of a jev route in
escalation order. A table is loaded from the entries of a routes file, and
pruned of the providers that cannot be built.
-/

namespace SynapseGateway

def MAX_TIERS : Nat := 10

structure JevRouterConfig where
  model : String := "jev-latest"
  defaultTier : String
  timeoutMs : Nat := 400
  minConfidence : ℚ := 1 / 2
  reasoningThreshold : ℚ := 7 / 10
deriving DecidableEq

structure Tier where
  name : String
  description : String
  effort : Effort
  legs : List ChainLeg
deriving DecidableEq, Repr

structure JevRoute where
  router : JevRouterConfig
  tiers : List Tier
deriving DecidableEq

structure PlannedLeg where
  leg : ChainLeg
  tier : Nat
deriving DecidableEq, Repr

def Tier.effortUnder (t : Tier) : EffortPolicy → Option Effort
  | .client => none
  | .tier true => some t.effort.bump
  | .tier false => some t.effort

def orderLegs (tiers : List Tier) (start : Nat) (policy : EffortPolicy) : List PlannedLeg :=
  (escalationOrder tiers.length start).flatMap fun i =>
    match tiers[i]? with
    | none => []
    | some t => t.legs.map fun l => ⟨{ l with effort := t.effortUnder policy }, i⟩

def JevRoute.defaultIndex (r : JevRoute) : Nat := (r.tiers.findIdx? fun t => t.name == r.router.defaultTier).getD 0

def JevRoute.staticLegs (r : JevRoute) : List ChainLeg :=
  (orderLegs r.tiers r.defaultIndex (.tier false)).map (·.leg)

def Tier.without (t : Tier) (drop : Finset String) : Tier := { t with legs := t.legs.filter (·.provider ∉ drop) }

/-- The tiers that keep a leg, each with its old index. -/
def JevRoute.survivors (r : JevRoute) (drop : Finset String) : List (Nat × Tier) :=
  (r.tiers.zipIdx.map fun (t, i) => (i, t.without drop)).filter (!·.2.legs.isEmpty)

/-- The route without the legs of `drop`; `none` if fewer than two tiers keep a leg. -/
def JevRoute.pruned (r : JevRoute) (drop : Finset String) : Option JevRoute :=
  let survivors := r.survivors drop
  match ((survivors.find? (·.1 ≥ r.defaultIndex)).or survivors.getLast?).map (·.2.name) with
  | none => none
  | some defaultTier =>
    if survivors.length ≥ 2 then some ⟨{ r.router with defaultTier := defaultTier }, survivors.map (·.2)⟩ else none

/-! ## The file -/

structure RouteEntry where
  legs : Option (List ChainLeg) := none
  policy : Option String := none
  strategy : Option String := none
  jevRouter : Option JevRouterConfig := none
  tiers : List Tier := []

/-- The entries of a parsed routes file, each under its alias. -/
structure RoutesFile where
  routes : List (String × RouteEntry)
  nodup : (routes.map (·.1)).Nodup

def duplicateName (tiers : List Tier) : Option String :=
  (tiers.zipIdx.find? fun (t, i) => (tiers.take i).any (·.name == t.name)).map (·.1.name)

def isAsciiGraphic (c : Char) : Bool := '!'.val ≤ c.val && c.val ≤ '~'.val

def isBlank (s : String) : Bool := (trim s.toList).isEmpty

/-- What is wrong with the tiers and the router of a jev route. -/
def jevProblems (router : JevRouterConfig) (tiers : List Tier) : List String :=
  [ if 2 ≤ tiers.length ∧ tiers.length ≤ MAX_TIERS then none
      else some ("needs 2 to " ++ toString MAX_TIERS ++ " tiers, found " ++ toString tiers.length),
    (tiers.find? fun t => isBlank t.name).map fun _ => "tier names must be non-empty",
    (tiers.find? fun t => !t.name.toList.all fun c => isAsciiGraphic c || c == ' ').map fun t =>
      "tier names must be printable ASCII: '" ++ t.name ++ "'",
    (duplicateName tiers).map fun n => "duplicate tier name '" ++ n ++ "'",
    (tiers.find? fun t => isBlank t.description).map fun t => "tier '" ++ t.name ++ "' needs a description",
    (tiers.find? fun t => t.legs.isEmpty).map fun t => "tier '" ++ t.name ++ "' has no legs",
    (tiers.find? fun t => t.legs.any (·.provider == "typesafe")).map fun t =>
      "tier '" ++ t.name ++ "' cannot use provider 'typesafe'",
    if tiers.any (·.name == router.defaultTier) then none
      else some ("default_tier '" ++ router.defaultTier ++ "' is not a tier"),
    if 0 ≤ router.minConfidence ∧ router.minConfidence ≤ 1 then none else some "min_confidence must be within [0, 1]",
    if 0 ≤ router.reasoningThreshold ∧ router.reasoningThreshold ≤ 1 then none
      else some "reasoning_threshold must be within [0, 1]",
    if router.timeoutMs = 0 then some "timeout_ms must be > 0" else none ].filterMap id

def validateJevRoute (name : String) (router : Option JevRouterConfig) (tiers : List Tier) : Except String JevRoute :=
  match router with
  | none => .error ("route '" ++ name ++ "': strategy = \"jev\" requires a jev_router table")
  | some router =>
    match jevProblems router tiers with
    | [] => .ok ⟨router, tiers⟩
    | problems => .error ("route '" ++ name ++ "': " ++ "; ".intercalate problems)

/-- The flat legs of an entry and, for a jev route, its validated tiers. -/
def routeKind (name : String) (entry : RouteEntry) : Except String (List ChainLeg × Option JevRoute) :=
  match entry.strategy.getD "static", entry.tiers.isEmpty, entry.legs with
  | "static", false, _ => .error ("route '" ++ name ++ "': tiers require strategy = \"jev\"")
  | "static", true, some legs => .ok (legs, none)
  | "static", true, none => .error ("route '" ++ name ++ "': missing field `legs`")
  | "jev", tierless, legs =>
    if (legs.getD []).isEmpty then
      if tierless then .error ("route '" ++ name ++ "': strategy = \"jev\" requires tiers")
      else (validateJevRoute name entry.jevRouter entry.tiers).map fun r => (r.staticLegs, some r)
    else .error ("route '" ++ name ++ "': a jev route declares tiers, not legs")
  | other, _, _ =>
    .error ("route '" ++ name ++ "': unknown strategy '" ++ other ++ "' (expected \"static\" or \"jev\")")

/-! ## The table -/

/-- The legs of every alias; a jev route's in static order. -/
@[ext]
structure RouteTable where
  routes : List (String × List ChainLeg)
  policies : List (String × String)
  jev : List (String × JevRoute)
  jevDeclared : List String
deriving DecidableEq

def RouteTable.jevRoute (t : RouteTable) (model : String) : Option JevRoute := t.jev.lookup model

def RouteTable.legs (t : RouteTable) (model : String) : Option (List ChainLeg) := t.routes.lookup model

def RouteTable.policyOf (t : RouteTable) (model : String) : Option String := t.policies.lookup model

def RouteTable.fromFile (file : RoutesFile) : Except String RouteTable := do
  let kinds ← file.routes.mapM fun (name, entry) => (routeKind name entry).map fun kind => (name, kind)
  let jev := kinds.filterMap fun kind => kind.2.2.map fun j => (kind.1, j)
  .ok {
    routes := kinds.map fun kind => (kind.1, kind.2.1)
    policies := file.routes.filterMap fun (name, e) => e.policy.map fun p => (name, p)
    jev := jev
    jevDeclared := jev.map (·.1) }

def keptLegs (jev : List (String × JevRoute)) (drop : Finset String) (name : String) (legs : List ChainLeg) :
    List ChainLeg :=
  match jev.lookup name with
  | none => legs.filter (·.provider ∉ drop)
  | some r => r.staticLegs

/-- The table without the legs of `drop`. A jev route prunes inside its tiers; it
becomes a static route when it has nothing left to choose between, or no Jev to ask. -/
def RouteTable.withoutProviders (t : RouteTable) (drop : Finset String) : RouteTable :=
  let jev := t.jev.filterMap fun (name, r) =>
    (if "typesafe" ∈ drop then none else r.pruned drop).map fun kept => (name, kept)
  let routes := (t.routes.map fun e => (e.1, keptLegs jev drop e.1 e.2)).filter (!·.2.isEmpty)
  { routes := routes
    policies := t.policies.filter fun (name, _) => (routes.lookup name).isSome
    jev := jev
    jevDeclared := t.jevDeclared }

end SynapseGateway
