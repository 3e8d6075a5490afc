import SynapseGateway.HarnessGrid
import SynapseGateway.HarnessTableSound
import SynapseGateway.RoutingReport

/-!
# The report of a harness turn

The leg of a harness plan is found again by its base, provider and model. A plan
without tiers reports no effort.
-/

namespace SynapseGateway

open Firsts (IsFirst)

/-! ## Tier names -/

theorem duplicateOf_none {names : List String} (h : duplicateOf names = none) : names.Nodup := by
  unfold duplicateOf at h
  rw [Option.map_eq_none_iff, List.find?_eq_none] at h
  rw [← List.map_id names]
  apply Firsts.nodup_of_no_repeat
  intro i a ha b hb heq
  refine h (a, i) (List.mk_mem_zipIdx_iff_getElem?.mpr ha) ?_
  have heq : b = a := heq
  rw [List.contains_iff_mem]
  exact heq ▸ hb

theorem buildTier_name {routeAlias : String} {bases : BaseCatalog} {routes : RouteTable} {allowTypesafe : Bool}
    {entry : TierEntry} {t : HarnessTier} (h : buildTier routeAlias bases routes allowTypesafe entry = .ok t) :
    t.name = entry.name := by
  obtain ⟨_, -, h⟩ := Fallible.of_bind_ok h
  obtain ⟨_, -, h⟩ := Fallible.of_bind_ok h
  obtain ⟨_, -, h⟩ := Fallible.of_bind_ok h
  obtain ⟨_, -, h⟩ := Fallible.of_bind_ok h
  obtain ⟨_, -, h⟩ := Fallible.of_bind_ok h
  obtain ⟨_, -, h⟩ := Fallible.of_bind_ok h
  obtain ⟨_, -, h⟩ := Fallible.of_bind_ok h
  obtain ⟨_, -, h⟩ := Fallible.of_bind_ok h
  cases h
  rfl

def HarnessJevRoute.tierNames (route : HarnessJevRoute) : List String := route.tiers.map (·.name)

theorem buildJevRoute_tierNames {routeAlias : String} {entry : HarnessRouteEntry} {bases : BaseCatalog}
    {routes : RouteTable} {route : HarnessJevRoute} (h : buildJevRoute routeAlias entry bases routes = .ok route) :
    route.tierNames.Nodup := by
  obtain ⟨_, -, h⟩ := Fallible.of_bind_ok h
  obtain ⟨router, -, h⟩ := Fallible.of_bind_ok h
  obtain ⟨_, -, h⟩ := Fallible.of_bind_ok h
  obtain ⟨profiles, -, h⟩ := Fallible.of_bind_ok h
  obtain ⟨_, -, h⟩ := Fallible.of_bind_ok h
  obtain ⟨rawTiers, -, h⟩ := Fallible.of_bind_ok h
  obtain ⟨_, -, h⟩ := Fallible.of_bind_ok h
  obtain ⟨_, hdup, h⟩ := Fallible.of_bind_ok h
  obtain ⟨tiers, htiers, h⟩ := Fallible.of_bind_ok h
  obtain ⟨_, -, h⟩ := Fallible.of_bind_ok h
  obtain ⟨_, -, h⟩ := Fallible.of_bind_ok h
  cases h
  have hnames : tiers.map (·.name) = rawTiers.map (·.name) :=
    Fallible.map_of_mapM_ok htiers fun _ _ he => buildTier_name he
  show (tiers.map (·.name)).Nodup
  rw [hnames]
  exact duplicateOf_none (Option.not_isSome_iff_eq_none.mp (Fallible.of_refuseIf_ok hdup))

theorem fromFile_tierNames {file : HarnessesFile} {routes : RouteTable} {t : HarnessRouteTable}
    (h : HarnessRouteTable.fromFile file routes = .ok t) {routeAlias : String} {route : HarnessJevRoute}
    (hr : t.jevRoute routeAlias = some route) : route.tierNames.Nodup := by
  obtain ⟨_, -, h⟩ := Fallible.of_bind_ok h
  obtain ⟨built, hbuilt, h⟩ := Fallible.of_bind_ok h
  obtain ⟨_, -, h⟩ := Fallible.of_bind_ok h
  cases h
  obtain ⟨⟨a, legs, jev⟩, hmem, hjev⟩ := List.mem_filterMap.mp (Assoc.mem_of_lookup hr)
  obtain ⟨j, rfl, heq⟩ := Option.map_eq_some_iff.mp hjev
  cases heq
  obtain ⟨e, -, he⟩ := Fallible.mem_of_mapM_ok hbuilt hmem
  obtain ⟨kind, hkind, heq⟩ := Fallible.of_map_ok he
  cases heq
  unfold buildRoute at hkind
  split at hkind
  · obtain ⟨_, -, hkind⟩ := Fallible.of_bind_ok hkind
    obtain ⟨_, -, hkind⟩ := Fallible.of_bind_ok hkind
    obtain ⟨_, -, heq⟩ := Fallible.of_map_ok hkind
    cases heq
  · obtain ⟨j, hj, heq⟩ := Fallible.of_map_ok hkind
    cases heq
    exact buildJevRoute_tierNames hj
  · cases hkind

theorem pruneJevRoute_tierNames {route k : HarnessJevRoute} {bases : BaseCatalog} {drop : Finset String}
    (h : pruneJevRoute route bases drop = some k) : k.tierNames.Sublist route.tierNames := by
  obtain ⟨-, -, htiers, -⟩ := pruneJevRoute_some h
  unfold HarnessJevRoute.tierNames
  rw [htiers, List.map_map, keptHarnessTiers]
  apply (List.filter_sublist.map _).trans
  rw [List.map_map]
  -- pruning a tier keeps its name
  show (route.tiers.zipIdx.map fun e => e.1.name).Sublist (route.tiers.map (·.name))
  have hnames : (route.tiers.zipIdx.map Prod.fst).map (·.name) = route.tiers.map (·.name) := by
    rw [List.zipIdx_map_fst]
  rw [← hnames, List.map_map]
  exact .refl _

theorem HarnessRouteTable.Built.tierNames {t : HarnessRouteTable} (h : t.Built) {routeAlias : String}
    {route : HarnessJevRoute} (hr : t.jevRoute routeAlias = some route) : route.tierNames.Nodup := by
  induction h generalizing route with
  | absent => cases hr
  | loaded h => exact fromFile_tierNames h hr
  | withoutProviders hb drop ih =>
    obtain ⟨r, hr, hprune⟩ := HarnessRouteTable.jevRoute_withoutProviders hb.valid.nodup hr
    exact (ih hr).sublist (pruneJevRoute_tierNames hprune)
  | withoutBases hb dropBases ih =>
    rw [HarnessRouteTable.jevRoute_withoutBases hb.valid.nodup, Option.bind_eq_some_iff] at hr
    obtain ⟨r, hr, hprune⟩ := hr
    exact (ih hr).sublist (pruneJevRoute_tierNames hprune)

/-! ## What the report says -/

def PlannedHarnessLeg.servedKey (l : PlannedHarnessLeg) : String × String × String :=
  (l.base, l.leg.provider, l.leg.model)

/-- What the client is told when `l` served is true of `l`. -/
def HarnessRoutePlan.ReportsTruly (plan : HarnessRoutePlan) (t : Turn) (l : PlannedHarnessLeg) : Prop :=
  let report := plan.reportFor (some l.servedKey)
  TrueOf plan.tierNames plan.decidedTier l.tier l.leg.effort (t.req.reasoningEffort.isSome = true) report.tier
    report.tierDecided report.effort

section
variable {g : Gateway} {t : Turn} {plan : HarnessRoutePlan} {l : PlannedHarnessLeg}

theorem harnessReportFor_first (hl : l ∈ plan.legs) : ∃ q ∈ plan.legs,
    (∀ c, IsFirst PlannedHarnessLeg.servedKey l.servedKey plan.legs c ↔ c = q) ∧
      (plan.reportFor (some l.servedKey)).tier = plan.tierNames[q.tier]? ∧
      (plan.reportFor (some l.servedKey)).tierDecided =
        decidedName plan.tierNames plan.decidedTier plan.tierNames[q.tier]? ∧
      (plan.reportFor (some l.servedKey)).effort =
        if plan.tierNames.isEmpty then none
        else if plan.clientEffort then some "client" else q.leg.effort.map Effort.asStr := by
  have hkey : ∀ q : PlannedHarnessLeg,
      (q.base == l.base && q.leg.provider == l.leg.provider && q.leg.model == l.leg.model) = true ↔
        q.servedKey = l.servedKey := by
    intro q
    simp [PlannedHarnessLeg.servedKey, and_assoc]
  obtain ⟨q, hq, hfirst⟩ := Firsts.find?_isFirst hl hkey
  refine ⟨q, List.mem_of_find?_eq_some hq, hfirst, ?_⟩
  unfold HarnessRoutePlan.reportFor PlannedHarnessLeg.servedKey
  simp only [Option.bind_some, hq]
  exact ⟨rfl, rfl, rfl⟩

theorem orderGrid_effort {grid : EligibleGrid} {route : HarnessJevRoute} {chosen : Option Nat} {start : Nat}
    {policy : LegPolicy} (hl : l ∈ orderGrid grid route chosen start policy) :
    ∃ tier, grid.tiers[l.tier]? = some tier ∧ l.leg.effort = policy.effort.effort tier := by
  obtain ⟨profile, base, spec, i, tier, leg, wire, -, hcell, -, rfl⟩ := mem_orderGrid hl
  exact ⟨tier, hcell.tier_at, rfl⟩

theorem reportsTruly_jev {route : HarnessJevRoute} {mode : RoutingMode} (hnames : route.tierNames.Nodup)
    (h : (g.planJevHarness t route mode).result = .ok plan) (hl : l ∈ plan.legs) :
    plan.ReportsTruly t l ↔
      ∀ q, IsFirst PlannedHarnessLeg.servedKey l.servedKey plan.legs q → q.tier = l.tier := by
  obtain ⟨grid, selection, hgrid, hlegs, -, -, htierNames, hclient, -⟩ := planJevHarness_ok h
  obtain ⟨q, hq, hfirst, htier, hdecided, heffort⟩ := harnessReportFor_first hl
  have hstamp : ∀ r ∈ plan.legs, ∃ tier, grid.tiers[r.tier]? = some tier ∧
      r.leg.effort = (t.legPolicy selection).effort.effort tier := by
    rw [hlegs]
    exact fun r hr => orderGrid_effort hr
  have hlt : ∀ r ∈ plan.legs, r.tier < plan.tierNames.length := by
    intro r hr
    obtain ⟨tier, hr, -⟩ := hstamp r hr
    have := (List.getElem?_eq_some_iff.mp hr).1
    rw [(eligibleGrid_ok hgrid).2.2, eligibleTiers, List.length_map] at this
    rw [htierNames, List.length_map]
    exact this
  have hne : ¬ plan.tierNames.isEmpty = true := by
    rw [List.isEmpty_iff]
    intro hnil
    have := hlt l hl
    rw [hnil] at this
    cases this
  have hsame : q.tier = l.tier → q.leg.effort = l.leg.effort := by
    intro heq
    obtain ⟨tier, htier, hq⟩ := hstamp q hq
    obtain ⟨tier', htier', hl⟩ := hstamp l hl
    rw [heq, htier'] at htier
    cases htier
    exact hq.trans hl.symm
  unfold HarnessRoutePlan.ReportsTruly
  simp only
  rw [htier, hdecided, heffort, if_neg hne,
    trueOf_iff (htierNames ▸ hnames) (hlt l hl) (hlt q hq) (by rw [hclient])]
  constructor
  · intro h q' hq'
    rw [hfirst] at hq'
    exact hq' ▸ h.1
  · intro h
    have heq := h q ((hfirst q).mpr rfl)
    exact ⟨heq, .inr (hsame heq)⟩

/-- A static plan reports no effort, whatever its legs are stamped with. -/
theorem reportsTruly_static_harness {mode : RoutingMode} {legs : List StaticHarnessLeg}
    (h : t.planStatic mode legs = .ok plan) (hl : l ∈ plan.legs) : plan.ReportsTruly t l ↔ l.leg.effort = none := by
  obtain ⟨q, -, -, htier, hdecided, heffort⟩ := harnessReportFor_first hl
  obtain ⟨hnames, hundecided, sl, hstamp⟩ : plan.tierNames = [] ∧ plan.decidedTier = none ∧
      ∃ sl : StaticHarnessLeg, l.leg.effort = t.req.reasoningEffort.or sl.leg.effort := by
    unfold Turn.planStatic at h
    simp only at h
    split at h
    · cases h
    · cases h
      obtain ⟨sl, -, rfl⟩ := List.mem_map.mp hl
      exact ⟨rfl, rfl, sl, rfl⟩
  rw [hnames] at heffort htier hdecided
  rw [hundecided] at hdecided
  unfold HarnessRoutePlan.ReportsTruly
  simp only
  rw [htier, hdecided, heffort, hnames, hundecided]
  constructor
  · intro h
    have hclient : ¬ t.req.reasoningEffort.isSome = true := fun hc => by cases h.client.mpr hc
    exact Option.map_eq_none_iff.mp (h.stamped hclient).symm
  · intro h
    rw [hstamp, Option.or_eq_none_iff] at h
    refine { names := rfl, decides := ?_, client := ?_, stamped := ?_ }
    · intro name
      simp [decidedName]
    · simp [h.1]
    · intro _
      rw [hstamp, h.1, h.2]
      rfl

/-- A turn that completes returns the report of the leg that ran it. -/
theorem walkLegs_report {runner : UhpRunner} {attempt : Nat} {failures : List LegFailure} {legs : List PlannedHarnessLeg}
    {body : Json} {report : HarnessRoutingReport}
    (h : (g.walkLegs t plan runner attempt failures legs).result = .ok (body, report)) :
    ∃ l ∈ legs, report = plan.reportFor (some l.servedKey) := by
  induction legs generalizing attempt failures with
  | nil => cases h
  | cons l legs ih =>
    rw [Gateway.walkLegs, Trace.emit_bind] at h
    simp only at h
    cases hrun : runner attempt (t.dispatch plan l) with
    | ok output =>
      rw [hrun] at h
      cases h
      exact ⟨l, List.mem_cons_self, rfl⟩
    | error err =>
      rw [hrun] at h
      obtain ⟨l', hl', hreport⟩ := ih h
      exact ⟨l', List.mem_cons_of_mem _ hl', hreport⟩

theorem harnessReportsTruly_iff (hg : g.harnesses.Built) (h : (g.planHarnessRoute t).result = .ok plan)
    (hl : l ∈ plan.legs) : plan.ReportsTruly t l ↔ (plan.mode = .static → l.leg.effort = none) ∧
      (plan.mode ≠ .static →
        ∀ q, IsFirst PlannedHarnessLeg.servedKey l.servedKey plan.legs q → q.tier = l.tier) := by
  cases hr : g.harnesses.jevRoute t.routeAlias with
  | some route =>
    obtain ⟨mode, hmode, hjev⟩ := planHarnessRoute_jev hr h
    obtain ⟨-, -, -, -, -, -, -, -, hplanMode⟩ := planJevHarness_ok hjev
    rw [reportsTruly_jev (hg.tierNames hr) hjev hl, hplanMode]
    exact ⟨fun h => ⟨fun hs => absurd hs hmode, fun _ => h⟩, fun h => h.2 hmode⟩
  | none =>
    obtain ⟨mode, legs, -, hmode, hstatic⟩ := planHarnessRoute_static_ok hr h
    have hplanMode : plan.mode = .static := by
      have hm := modeOf_none hr hmode
      unfold Turn.planStatic at hstatic
      simp only at hstatic
      split at hstatic
      · cases hstatic
      · cases hstatic
        exact hm
    rw [reportsTruly_static_harness hstatic hl, hplanMode]
    exact ⟨fun h => ⟨fun _ => h, fun hs => absurd rfl hs⟩, fun h => h.1 rfl⟩

end

theorem routing_reports_true {file : RoutesFile} (hfile : file.Unstamped) {table : RouteTable}
    (htable : RouteTable.FromFile file table) (g : Gateway) (hg : g.harnesses.Built) :
    (∀ req masked result plan, planRoute table req masked result = .ok plan → ∀ p ∈ plan.legs,
      (plan.ReportsTruly req p ↔ ∀ q, IsFirst PlannedLeg.modelKey p.modelKey plan.legs q →
        q.tier = p.tier ∧ (clientSetsEffort req = true ∨ q.leg.effort = p.leg.effort))) ∧
    ∀ t plan, (g.planHarnessRoute t).result = .ok plan → ∀ l ∈ plan.legs,
      (plan.ReportsTruly t l ↔ (plan.mode = .static → l.leg.effort = none) ∧ (plan.mode ≠ .static →
        ∀ q, IsFirst PlannedHarnessLeg.servedKey l.servedKey plan.legs q → q.tier = l.tier)) :=
  ⟨fun _ _ _ _ hplan _ hp => reportsTruly_iff hfile htable hplan hp,
    fun _ _ hplan _ hl => harnessReportsTruly_iff hg hplan hl⟩

/-- One model, with two efforts. -/
def oneModelTiers : List Tier := [
  ⟨"easy", "a short lookup", .low, [{ provider := "vertex", model := "gemini-3-flash" }]⟩,
  ⟨"hard", "a long task", .high, [{ provider := "vertex", model := "gemini-3-flash" }]⟩]

def oneModelRoutes : RoutesFile where
  routes := [("auto", { strategy := some "jev", jevRouter := some { defaultTier := "easy" }, tiers := oneModelTiers })]
  nodup := by decide

def oneModelTable : RouteTable where
  routes := [("auto", [
    { provider := "vertex", model := "gemini-3-flash", effort := some .low },
    { provider := "vertex", model := "gemini-3-flash", effort := some .high }])]
  policies := []
  jev := [("auto", ⟨{ defaultTier := "easy" }, oneModelTiers⟩)]
  jevDeclared := ["auto"]

theorem oneModelRoutes_load : RouteTable.fromFile oneModelRoutes = .ok oneModelTable := by decide +kernel

/-- The easy tier's leg fails, the hard one's serves, and the client is told of the easy one. -/
theorem hard_tier_reported_easy : RouteTable.fromFile oneModelRoutes = .ok oneModelTable ∧
    ∃ plan, planRoute oneModelTable { model := "auto" } (.ok false) (.error .timeout) = .ok plan ∧
      ∃ p ∈ plan.legs, p.tier = 1 ∧ p.leg.effort = some .high ∧
        (plan.reportFor (some p.leg.modelKey)).tier = some "easy" ∧
        (plan.reportFor (some p.leg.modelKey)).effort = some "low" ∧ ¬ plan.ReportsTruly { model := "auto" } p := by
  refine ⟨by decide +kernel, _, rfl, _, List.mem_cons_of_mem _ (List.mem_singleton_self _), rfl, rfl, rfl, rfl, ?_⟩
  exact fun h => absurd h.names (by decide)

theorem routing_reports_true_easy :
    ∃ plan, planRoute oneModelTable { model := "auto" } (.ok false) (.error .timeout) = .ok plan ∧
      ∃ p ∈ plan.legs, p.tier = 0 ∧ plan.ReportsTruly { model := "auto" } p := by
  refine ⟨_, rfl, _, List.mem_cons_self, rfl, ?_⟩
  have hfile : oneModelRoutes.Unstamped := by
    intro name entry legs hmem hlegs
    cases List.mem_singleton.mp hmem
    cases hlegs
  refine ((routing_reports_true hfile ⟨_, oneModelRoutes_load, .refl⟩ {} .absent).1 { model := "auto" } (.ok false)
    (.error .timeout) _ rfl _ List.mem_cons_self).mpr ?_
  rintro q ⟨before, after, hlegs, -, hbefore⟩
  have hlegs : PlannedLeg.mk { provider := "vertex", model := "gemini-3-flash", effort := some .low } 0 :: _ =
      before ++ q :: after := hlegs
  cases before with
  | nil =>
    obtain ⟨rfl, -⟩ := List.cons.inj hlegs
    exact ⟨rfl, .inr rfl⟩
  | cons b before =>
    obtain ⟨rfl, -⟩ := List.cons.inj hlegs
    exact absurd rfl (hbefore _ List.mem_cons_self)

end SynapseGateway
