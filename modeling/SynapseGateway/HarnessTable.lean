import SynapseGateway.HarnessJev
import SynapseGateway.RouteTable
import SynapseGateway.Lib.Fallible

/-!
# Loading and pruning the harness table

A harnesses file declares the bases, the harnesses and the harness routes. A route
is a list of legs, or a grid of profiles and tiers; the legs of both may name
aliases of the route table.
-/

namespace SynapseGateway

open Fallible (refuseIf okOr)

/-! ## The file -/

structure BaseEntry extends BaseSpec where
  label : String

structure HarnessJevRouterEntry extends HarnessJevRouterConfig where
  timeoutMs : Nat := 400

inductive ModelTarget where
  | routeAlias (route : String)
  | direct (leg : ChainLeg)

structure ProfileEntry where
  description : String
  bases : List String

structure TierEntry where
  name : String
  description : String
  effort : Effort
  maxStep : Option Nat := none
  timeoutSeconds : Option Nat := none
  bases : Option (List String) := none
  legs : List ModelTarget := []

structure StaticLegEntry where
  base : String
  target : ModelTarget

structure HarnessRouteEntry where
  policy : Option String := none
  strategy : Option String := none
  jevRouter : Option HarnessJevRouterEntry := none
  profiles : List (String × ProfileEntry) := []
  tiers : Option (List TierEntry) := none
  legs : Option (List StaticLegEntry) := none

/-- A parsed harnesses file. Each of its tables has one entry for a key; bases, harnesses
and profiles are in key order, the routes in any. -/
structure HarnessesFile where
  bases : List (String × BaseEntry) := []
  harnesses : List (String × ConfiguredHarness) := []
  harnessRoutes : List (String × HarnessRouteEntry) := []
  basesNodup : (bases.map (·.1)).Nodup
  routesNodup : (harnessRoutes.map (·.1)).Nodup
  profilesNodup : ∀ entry ∈ harnessRoutes, (entry.2.profiles.map (·.1)).Nodup

/-! ## Legs -/

def wireFor (bases : BaseCatalog) (base provider model : String) : Option WireProtocol :=
  (bases.lookup base).bind fun spec => preferredWire spec.wire provider model

def inRoute (routeAlias problem : String) : String := "harness route '" ++ routeAlias ++ "': " ++ problem

def expandTarget (routeAlias : String) (routes : RouteTable) (allowTypesafe : Bool) :
    ModelTarget → Except String (List ChainLeg)
  | .direct leg => do
    refuseIf (allowTypesafe = false ∧ leg.provider = "typesafe")
      (inRoute routeAlias "leg cannot use provider 'typesafe' unless base wire is 'typesafe'")
    .ok [leg]
  | .routeAlias route => do
    let resolved ← okOr (routes.legs route)
      ("harness route '" ++ routeAlias ++ "' references unknown route '" ++ route ++ "' in routes.toml")
    let filtered := resolved.filter fun l => allowTypesafe || l.provider != "typesafe"
    refuseIf (filtered = []) (inRoute routeAlias ("route alias '" ++ route ++ "' resolves to no usable legs"))
    .ok filtered

def expandTargets (routeAlias : String) (targets : List ModelTarget) (routes : RouteTable) (allowTypesafe : Bool) :
    Except String (List ChainLeg) :=
  (targets.mapM (expandTarget routeAlias routes allowTypesafe)).map List.flatten

def expandStaticLeg (routeAlias : String) (bases : BaseCatalog) (routes : RouteTable) (entry : StaticLegEntry) :
    Except String (List StaticHarnessLeg) := do
  let spec ← okOr (bases.lookup entry.base) (inRoute routeAlias ("unknown base '" ++ entry.base ++ "'"))
  let legs ← expandTargets routeAlias [entry.target] routes (spec.wire.contains .typesafe)
  legs.mapM fun leg => do
    let wire ← okOr (preferredWire spec.wire leg.provider leg.model)
      (inRoute routeAlias ("base '" ++ entry.base ++ "' wire is incompatible with (" ++ leg.provider ++ ", " ++
        leg.model ++ ")"))
    .ok ⟨entry.base, leg, wire⟩

def expandStaticLegs (routeAlias : String) (entries : List StaticLegEntry) (bases : BaseCatalog)
    (routes : RouteTable) : Except String (List StaticHarnessLeg) :=
  (entries.mapM (expandStaticLeg routeAlias bases routes)).map List.flatten

/-! ## Jev routes -/

def validatePrintableName (routeAlias kind name : String) : Except String Unit := do
  refuseIf (isBlank name) (inRoute routeAlias ("a " ++ kind ++ " has an empty name"))
  refuseIf (name.toList.all isAsciiGraphic = false)
    (inRoute routeAlias (kind ++ " name '" ++ name ++ "' must be printable ASCII without spaces"))

def checkRouter (routeAlias : String) (router : HarnessJevRouterEntry) : Except String Unit := do
  refuseIf (¬ (0 ≤ router.minConfidence ∧ router.minConfidence ≤ 1))
    (inRoute routeAlias "min_confidence must be within [0, 1]")
  refuseIf (¬ (0 ≤ router.minProfileConfidence ∧ router.minProfileConfidence ≤ 1))
    (inRoute routeAlias "min_profile_confidence must be within [0, 1]")
  refuseIf (¬ (0 ≤ router.reasoningThreshold ∧ router.reasoningThreshold ≤ 1))
    (inRoute routeAlias "reasoning_threshold must be within [0, 1]")
  refuseIf (router.horizonThreshold.any fun h => !(0 ≤ h && h ≤ 1))
    (inRoute routeAlias "horizon_threshold must be within [0, 1]")
  refuseIf (router.timeoutMs = 0) (inRoute routeAlias "timeout_ms must be > 0")

def checkBases (routeAlias user : String) (bases : BaseCatalog) (used : List String) : Except String Unit :=
  used.forM fun b => refuseIf ((bases.lookup b).isNone)
    (inRoute routeAlias (user ++ " references unknown base '" ++ b ++ "'"))

def buildProfile (routeAlias : String) (bases : BaseCatalog) (entry : String × ProfileEntry) :
    Except String HarnessProfile := do
  let profile := "profile '" ++ entry.1 ++ "'"
  validatePrintableName routeAlias "profile" entry.1
  refuseIf (isBlank entry.2.description) (inRoute routeAlias (profile ++ " needs a description"))
  refuseIf (entry.2.bases = []) (inRoute routeAlias (profile ++ " has no bases"))
  checkBases routeAlias profile bases entry.2.bases
  .ok ⟨entry.1, entry.2.description, entry.2.bases⟩

def checkProfiles (routeAlias : String) (router : HarnessJevRouterEntry) (profiles : List HarnessProfile) :
    Except String Unit :=
  if profiles = [] then .ok ()
  else do
    refuseIf (¬ (2 ≤ profiles.length ∧ profiles.length ≤ MAX_TIERS))
      (inRoute routeAlias ("strategy = \"jev\" needs 2 to " ++ toString MAX_TIERS ++
        " profiles when profiles are declared, got " ++ toString profiles.length))
    let default ← okOr router.defaultProfile
      (inRoute routeAlias "default_profile is required when profiles are declared")
    refuseIf (default ∉ profiles.map (·.name))
      (inRoute routeAlias ("default_profile '" ++ default ++ "' is not a profile"))

def duplicateOf (names : List String) : Option String :=
  (names.zipIdx.find? fun (name, i) => (names.take i).contains name).map (·.1)

def buildTier (routeAlias : String) (bases : BaseCatalog) (routes : RouteTable) (allowTypesafe : Bool) (t : TierEntry) :
    Except String HarnessTier := do
  let tier := "tier '" ++ t.name ++ "'"
  validatePrintableName routeAlias "tier" t.name
  refuseIf (isBlank t.description) (inRoute routeAlias (tier ++ " needs a description"))
  refuseIf (t.maxStep = some 0) (inRoute routeAlias (tier ++ " max_step must be > 0"))
  refuseIf (t.timeoutSeconds = some 0) (inRoute routeAlias (tier ++ " timeout_seconds must be > 0"))
  refuseIf (t.bases = some []) (inRoute routeAlias (tier ++ " bases override cannot be empty"))
  checkBases routeAlias tier bases (t.bases.getD [])
  refuseIf (t.legs.isEmpty = true) (inRoute routeAlias (tier ++ " has no legs"))
  let legs ← expandTargets routeAlias t.legs routes allowTypesafe
  .ok ⟨t.name, t.description, t.effort, t.maxStep, t.timeoutSeconds, t.bases, legs⟩

def checkProfileCells (routeAlias : String) (bases : BaseCatalog) (tiers : List HarnessTier) (p : HarnessProfile) :
    Except String Unit :=
  refuseIf (!p.bases.any fun b => tiers.any fun t => t.allows b &&
      t.legs.any fun l => (wireFor bases b l.provider l.model).isSome)
    (inRoute routeAlias ("profile '" ++ p.name ++ "' has no wire-compatible (base, leg) cells across any tier"))

def buildJevRoute (routeAlias : String) (entry : HarnessRouteEntry) (bases : BaseCatalog) (routes : RouteTable) :
    Except String HarnessJevRoute := do
  refuseIf (entry.legs.isSome) (inRoute routeAlias "strategy = \"jev\" declares tiers, not legs")
  let router ← okOr entry.jevRouter (inRoute routeAlias "strategy = \"jev\" requires a jev_router table")
  checkRouter routeAlias router
  let profiles ← entry.profiles.mapM (buildProfile routeAlias bases)
  checkProfiles routeAlias router profiles
  let rawTiers ← okOr entry.tiers (inRoute routeAlias "strategy = \"jev\" requires tiers")
  refuseIf (¬ (2 ≤ rawTiers.length ∧ rawTiers.length ≤ MAX_TIERS))
    (inRoute routeAlias ("strategy = \"jev\" needs 2 to " ++ toString MAX_TIERS ++ " tiers, got " ++
      toString rawTiers.length))
  let dup := duplicateOf (rawTiers.map (·.name))
  refuseIf (dup.isSome) (inRoute routeAlias ("duplicate tier name '" ++ dup.getD "" ++ "'"))
  let tiers ← rawTiers.mapM
    (buildTier routeAlias bases routes (bases.any fun (_, spec) => spec.wire.contains .typesafe))
  refuseIf (router.defaultTier ∉ tiers.map (·.name))
    (inRoute routeAlias ("default_tier '" ++ router.defaultTier ++ "' is not a tier"))
  profiles.forM (checkProfileCells routeAlias bases tiers)
  .ok ⟨router.toHarnessJevRouterConfig, profiles, tiers⟩

/-! ## Flattening -/

def StaticHarnessLeg.sameLeg (a b : StaticHarnessLeg) : Bool :=
  a.base == b.base && a.leg.provider == b.leg.provider && a.leg.model == b.leg.model

/-- The bases of the default profile, then of the others. -/
def flatBases (route : HarnessJevRoute) (bases : BaseCatalog) : List String :=
  if route.profiles.isEmpty then bases.map (·.1)
  else
    let default := route.defaultProfileIndex
    (default :: (List.range route.profiles.length).filter (· != default)).flatMap fun i =>
      (route.profiles[i]?.map (·.bases)).getD []

def flatCells (route : HarnessJevRoute) (bases : BaseCatalog) : List StaticHarnessLeg :=
  (flatBases route bases).flatMap fun base =>
    (escalationOrder route.tiers.length route.defaultTierIndex).flatMap fun i =>
      match route.tiers[i]? with
      | none => []
      | some tier =>
        if tier.allows base then
          tier.legs.filterMap fun l => (wireFor bases base l.provider l.model).map fun wire =>
            ⟨base, { l with effort := some tier.effort }, wire⟩
        else []

/-- The legs of a grid in static order, each once on its base. -/
def flattenJevToStatic (route : HarnessJevRoute) (bases : BaseCatalog) : List StaticHarnessLeg :=
  let raw := flatCells route bases
  (raw.zipIdx.filter fun (item, i) => !(raw.take i).any (·.sameLeg item)).map (·.1)

/-! ## The table -/

def checkBase (entry : String × BaseEntry) : Except String Unit := do
  refuseIf (isBlank entry.1 || isBlank entry.2.label)
    ("base '" ++ entry.1 ++ "' requires a non-empty id and label")
  refuseIf (entry.2.wire = []) ("base '" ++ entry.1 ++ "' must declare at least one wire protocol")

def buildRoute (bases : BaseCatalog) (routes : RouteTable) (routeAlias : String) (entry : HarnessRouteEntry) :
    Except String (List StaticHarnessLeg × Option HarnessJevRoute) :=
  match entry.strategy.getD "static" with
  | "static" => do
    refuseIf (entry.tiers.isSome || !entry.profiles.isEmpty)
      (inRoute routeAlias "profiles and tiers require strategy = \"jev\"")
    refuseIf (entry.jevRouter.isSome) (inRoute routeAlias "jev_router requires strategy = \"jev\"")
    (expandStaticLegs routeAlias (entry.legs.getD []) bases routes).map fun legs => (legs, none)
  | "jev" => (buildJevRoute routeAlias entry bases routes).map fun built => (flattenJevToStatic built bases, some built)
  | other => .error (inRoute routeAlias ("unknown strategy '" ++ other ++ "'"))

def checkHarness (bases : BaseCatalog) (aliases : List String) (entry : String × ConfiguredHarness) :
    Except String Unit :=
  if entry.2.base = "auto" then do
    let route ← okOr entry.2.route ("harness '" ++ entry.1 ++ "' with base = \"auto\" requires a route")
    refuseIf (route ∉ aliases) ("harness '" ++ entry.1 ++ "' references unknown harness_route '" ++ route ++ "'")
  else refuseIf ((bases.lookup entry.2.base).isNone)
    ("harness '" ++ entry.1 ++ "' references unknown base '" ++ entry.2.base ++ "'")

def HarnessRouteEntry.policyName (entry : HarnessRouteEntry) : Option String :=
  (entry.policy.map fun p => String.ofList (trim p.toList)).filter (· != "")

def HarnessesFile.catalog (file : HarnessesFile) : BaseCatalog := file.bases.map fun e => (e.1, e.2.toBaseSpec)

def HarnessRouteTable.fromFile (file : HarnessesFile) (routes : RouteTable) : Except String HarnessRouteTable := do
  file.bases.forM checkBase
  let built ← file.harnessRoutes.mapM fun e => (buildRoute file.catalog routes e.1 e.2).map fun kind => (e.1, kind)
  file.harnesses.forM (checkHarness file.catalog (built.map (·.1)))
  .ok {
    bases := file.catalog
    harnesses := file.harnesses
    staticRoutes := built.map fun r => (r.1, r.2.1)
    jevRoutes := built.filterMap fun r => r.2.2.map fun jev => (r.1, jev)
    policies := file.harnessRoutes.filterMap fun e => e.2.policyName.map fun p => (e.1, p) }

/-! ## Pruning -/

def survivingProfiles (route : HarnessJevRoute) (bases : BaseCatalog) : List HarnessProfile :=
  (route.profiles.map fun p => { p with bases := p.bases.filter fun b => (bases.lookup b).isSome }).filter
    (!·.bases.isEmpty)

/-- The profile axis that is left: none of it when a single profile survives, `none` when
no profile does. -/
def prunedProfiles (route : HarnessJevRoute) (bases : BaseCatalog) : Option (List HarnessProfile × Option String) :=
  match survivingProfiles route bases with
  | [] => if route.profiles.isEmpty then some ([], none) else none
  | [_] => some ([], none)
  | p :: q :: ps =>
    some (p :: q :: ps,
      (route.router.defaultProfile.filter fun d => (p :: q :: ps).any (·.name == d)).or (some p.name))

def activeBases (profiles : List HarnessProfile) (bases : BaseCatalog) : List String :=
  if profiles.isEmpty then bases.map (·.1) else profiles.flatMap (·.bases)

def HarnessTier.pruned (t : HarnessTier) (bases : BaseCatalog) (active : List String) (drop : Finset String) :
    HarnessTier :=
  let tierBases := t.bases.map (·.filter fun b => (bases.lookup b).isSome)
  { t with
    bases := tierBases
    legs := t.legs.filter fun l => l.provider ∉ drop && active.any fun b =>
      tierBases.all (·.contains b) && (wireFor bases b l.provider l.model).isSome }

def keptHarnessTiers (route : HarnessJevRoute) (bases : BaseCatalog) (active : List String) (drop : Finset String) :
    List (Nat × HarnessTier) :=
  (route.tiers.zipIdx.map fun (t, i) => (i, t.pruned bases active drop)).filter fun (_, t) =>
    t.bases != some [] && !t.legs.isEmpty

/-- The route on the bases that are left and without the legs of `drop`; `none` where
fewer than two tiers keep a leg. -/
def pruneJevRoute (route : HarnessJevRoute) (bases : BaseCatalog) (drop : Finset String) : Option HarnessJevRoute :=
  if bases.isEmpty then none
  else
    match prunedProfiles route bases with
    | none => none
    | some (profiles, defaultProfile) =>
      let kept := keptHarnessTiers route bases (activeBases profiles bases) drop
      if kept.length < 2 then none
      else
        let defaultTier := ((kept.find? (·.1 ≥ route.defaultTierIndex)).or kept.getLast?).map (·.2.name)
        some {
          router := {
            route.router with
            defaultProfile := defaultProfile
            defaultTier := defaultTier.getD route.router.defaultTier }
          profiles := profiles
          tiers := kept.map (·.2) }

def pruneJevRoutes (jevRoutes : List (String × HarnessJevRoute)) (bases : BaseCatalog) (drop : Finset String) :
    List (String × HarnessJevRoute) :=
  jevRoutes.filterMap fun (routeAlias, route) => (pruneJevRoute route bases drop).map fun kept => (routeAlias, kept)

/-- The static legs of an alias: those of its grid, where it keeps one. -/
def keptStaticLegs (jevRoutes : List (String × HarnessJevRoute)) (bases : BaseCatalog) (keep : StaticHarnessLeg → Bool)
    (entry : String × List StaticHarnessLeg) : String × List StaticHarnessLeg :=
  (entry.1,
    match jevRoutes.lookup entry.1 with
    | some jev => flattenJevToStatic jev bases
    | none => entry.2.filter keep)

def HarnessRouteTable.withoutProviders (t : HarnessRouteTable) (drop : Finset String) : HarnessRouteTable :=
  let jevRoutes := if "typesafe" ∈ drop then [] else pruneJevRoutes t.jevRoutes t.bases drop
  { t with
    jevRoutes := jevRoutes
    staticRoutes := t.staticRoutes.map (keptStaticLegs jevRoutes t.bases fun l => l.leg.provider ∉ drop) }

def HarnessRouteTable.withoutBases (t : HarnessRouteTable) (dropBases : Finset String) : HarnessRouteTable :=
  let bases := t.bases.filter fun e => e.1 ∉ dropBases
  let jevRoutes := pruneJevRoutes t.jevRoutes bases ∅
  { t with
    bases := bases
    jevRoutes := jevRoutes
    staticRoutes := t.staticRoutes.map (keptStaticLegs jevRoutes bases fun l => (bases.lookup l.base).isSome) }

end SynapseGateway
