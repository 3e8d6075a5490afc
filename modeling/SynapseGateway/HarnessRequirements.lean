import SynapseGateway.HarnessSound
import SynapseGateway.Lib.Assoc

/-!
# What the planned legs can do

A turn's requirements against the legs of its plan. The order of the grid keeps
to the eligible cells; a static route is filtered by base and model only.
-/

namespace SynapseGateway

/-- The leg, run on a base with this spec, can do what the task needs. -/
structure TaskRequirements.Met (reqs : TaskRequirements) (base : String) (spec : BaseSpec) (leg : ChainLeg) : Prop where
  pinned : ∀ b, reqs.pinnedBase = some b → base = b
  model : ∀ m, reqs.clientModel = some m → leg.model = m
  vertexNative : reqs.needsVertexNative = true → leg.provider = "vertex"
  vision : reqs.needsVision = true → isTextOnlyModel leg.model = false
  skills : reqs.needsSkills = true → spec.skills = true
  environment : reqs.needsEnvironment = true → spec.environments = true
  transports : ∀ tr ∈ reqs.mcpTransports, tr ∈ spec.mcpTransports
  hardToolBlock : reqs.needsHardToolBlock = true → spec.toolEnforcement = .hard

/-- A base of the catalog and a leg that together meet the requirements. -/
def TaskRequirements.MetIn (reqs : TaskRequirements) (bases : BaseCatalog) (base : String) (leg : ChainLeg) : Prop :=
  ∃ spec, (base, spec) ∈ bases ∧ reqs.Met base spec leg

theorem TaskRequirements.met_of_ok {reqs : TaskRequirements} {base : String} {spec spec' : BaseSpec} {leg : ChainLeg}
    (hbase : reqs.baseOk base spec = true) (hleg : reqs.legOk spec' leg = true) : reqs.Met base spec leg := by
  unfold TaskRequirements.baseOk at hbase
  unfold TaskRequirements.legOk at hleg
  simp only [Bool.and_eq_true, Bool.or_eq_true, Bool.not_eq_true', Option.all_eq_true, List.all_eq_true,
    List.contains_iff_mem, beq_iff_eq] at hbase hleg
  obtain ⟨⟨⟨⟨hpinned, hskills⟩, henv⟩, htransports⟩, hhard⟩ := hbase
  obtain ⟨⟨⟨hnative, hvision⟩, hmodel⟩, -⟩ := hleg
  exact {
    pinned := fun b hb => (hpinned b hb).symm
    model := fun m hm => (hmodel m hm).symm
    vertexNative := fun h => hnative.resolve_left (by simp [h])
    vision := fun h => hvision.resolve_left (by simp [h])
    skills := fun h => hskills.resolve_left (by simp [h])
    environment := fun h => henv.resolve_left (by simp [h])
    transports := htransports
    hardToolBlock := fun h => hhard.resolve_left (by simp [h]) }

/-! ## The legs of the grid -/

theorem firstOfCell_subset (seen legs : List PlannedHarnessLeg) : ∀ l ∈ firstOfCell seen legs, l ∈ legs := by
  induction legs generalizing seen with
  | nil => exact fun l hl => hl
  | cons a legs ih =>
    intro l hl
    rw [firstOfCell] at hl
    split at hl
    · exact List.mem_cons_of_mem a (ih _ l hl)
    · rcases List.mem_cons.mp hl with rfl | hl
      · exact List.mem_cons_self ..
      · exact List.mem_cons_of_mem a (ih _ l hl)

theorem profileBases_tried {grid : EligibleGrid} {route : HarnessJevRoute} {chosen profile : Option Nat} {base : String}
    (h : (profile, base) ∈ profileBases grid route chosen) :
    (grid.profiles = [] ∧ profile = none ∧ base ∈ grid.bases.map (·.1)) ∨
      ∃ (j : Nat) (p : HarnessProfile), profile = some j ∧ grid.profiles[j]? = some p ∧ base ∈ p.bases := by
  unfold profileBases at h
  split at h
  · rename_i hnil
    obtain ⟨⟨b, spec⟩, hb, heq⟩ := List.mem_map.mp h
    cases heq
    exact .inl ⟨List.isEmpty_iff.mp hnil, rfl, List.mem_map_of_mem hb⟩
  · obtain ⟨j, -, hj⟩ := List.mem_flatMap.mp h
    obtain ⟨b, hb, heq⟩ := List.mem_map.mp hj
    cases heq
    cases hp : grid.profiles[j]? with
    | none =>
      rw [hp] at hb
      cases hb
    | some p =>
      rw [hp] at hb
      exact .inr ⟨j, p, rfl, hp, hb⟩

theorem mem_orderGrid {grid : EligibleGrid} {route : HarnessJevRoute} {chosen : Option Nat} {start : Nat}
    {policy : LegPolicy} {l : PlannedHarnessLeg} (h : l ∈ orderGrid grid route chosen start policy) :
    ∃ profile base spec i tier leg wire, (profile, base) ∈ profileBases grid route chosen ∧
      grid.Cell base spec i tier leg ∧ preferredWire spec.wire leg.provider leg.model = some wire ∧
      l = cellLeg grid policy profile base i tier leg wire := by
  have hraw := firstOfCell_subset _ _ l h
  rw [gridCells_eq] at hraw
  obtain ⟨⟨profile, base⟩, hbase, hraw⟩ := List.mem_flatMap.mp hraw
  obtain ⟨spec, hspec, hraw⟩ := mem_cellsFor.mp hraw
  obtain ⟨i, tier, leg, wire, -, htier, hallows, hleg, hw, rfl⟩ := mem_baseCells.mp hraw
  refine ⟨profile, base, spec, i, tier, leg, wire, hbase, ⟨hspec, ?_, htier, hallows, hleg, by simp [hw]⟩, hw, rfl⟩
  rcases profileBases_tried hbase with ⟨hnil, -, hb⟩ | ⟨j, p, -, hp, hb⟩
  · exact .inl ⟨hnil, hb⟩
  · exact .inr ⟨j, p, hp, hb⟩

/-- What is eligible: the catalog's entry for the base passes, and the leg passes on some base. -/
theorem eligibleGrid_ok {route : HarnessJevRoute} {catalog : BaseCatalog} {reqs : TaskRequirements} {grid : EligibleGrid}
    (h : eligibleGrid route catalog reqs = some grid) :
    grid.bases = eligibleBases catalog reqs ∧ grid.profiles = eligibleProfiles route grid.bases reqs ∧
      grid.tiers = eligibleTiers route grid.bases reqs := by
  unfold eligibleGrid at h
  simp only at h
  split at h
  · cases h
  · split at h
    · cases h
      exact ⟨rfl, rfl, rfl⟩
    · cases h

theorem eligibleTiers_leg {route : HarnessJevRoute} {bases : BaseCatalog} {reqs : TaskRequirements} {i : Nat}
    {tier : HarnessTier} {leg : ChainLeg} (ht : (eligibleTiers route bases reqs)[i]? = some tier) (hl : leg ∈ tier.legs) :
    ∃ t spec, route.tiers[i]? = some t ∧ leg ∈ t.legs ∧ t.bases = tier.bases ∧ reqs.legOk spec leg = true := by
  rw [eligibleTiers, List.getElem?_map, Option.map_eq_some_iff] at ht
  obtain ⟨t, ht, rfl⟩ := ht
  obtain ⟨hmem, hany⟩ := List.mem_filter.mp hl
  obtain ⟨b, -, hb⟩ := List.any_eq_true.mp hany
  rw [Bool.and_eq_true] at hb
  obtain ⟨spec, -, hok⟩ := (Option.any_eq_true _ _).mp hb.2
  exact ⟨t, spec, ht, hmem, rfl, hok⟩

theorem orderGrid_meets {route : HarnessJevRoute} {catalog : BaseCatalog} {reqs : TaskRequirements} {grid : EligibleGrid}
    (h : eligibleGrid route catalog reqs = some grid) {chosen : Option Nat} {start : Nat} {policy : LegPolicy}
    {l : PlannedHarnessLeg} (hl : l ∈ orderGrid grid route chosen start policy) : reqs.MetIn catalog l.base l.leg := by
  obtain ⟨hbases, -, htiers⟩ := eligibleGrid_ok h
  obtain ⟨profile, base, spec, i, tier, leg, wire, -, hcell, -, rfl⟩ := mem_orderGrid hl
  have hmem := Assoc.mem_of_lookup hcell.base_spec
  rw [hbases] at hmem
  obtain ⟨hmem, hbase⟩ := List.mem_filter.mp hmem
  have htier := hcell.tier_at
  rw [htiers] at htier
  obtain ⟨t, spec', -, -, -, hok⟩ := eligibleTiers_leg htier hcell.leg_mem
  exact ⟨spec, hmem, { TaskRequirements.met_of_ok hbase hok with }⟩

/-! ## The plan -/

section
variable {g : Gateway} {t : Turn}

/-- A jev plan is the order of the eligible grid, from the pinned profile or the selected one. -/
theorem planJevHarness_ok {route : HarnessJevRoute} {mode : RoutingMode} {plan : HarnessRoutePlan}
    (h : (g.planJevHarness t route mode).result = .ok plan) :
    ∃ grid selection, eligibleGrid route g.harnesses.bases t.requirements = some grid ∧
      plan.legs = orderGrid grid route ((t.pinnedProfile route).or selection.profile) selection.tier
        (t.legPolicy selection) ∧
      plan.legs ≠ [] ∧ plan.profileNames = route.profiles.map (·.name) ∧
      plan.tierNames = route.tiers.map (·.name) ∧ plan.clientEffort = t.req.reasoningEffort.isSome ∧
      plan.mode = mode := by
  unfold Gateway.planJevHarness at h
  cases hgrid : eligibleGrid route g.harnesses.bases t.requirements with
  | none =>
    rw [hgrid] at h
    cases h
  | some grid =>
    rw [hgrid] at h
    simp only at h
    by_cases hmode : mode = .staticOverride
    · rw [if_pos hmode, Trace.pure_bind] at h
      split at h
      · cases h
      · rename_i hne
        cases h
        exact ⟨grid, overrideSelection route, rfl, rfl, by simpa using hne, rfl, rfl, rfl, rfl⟩
    · rw [if_neg hmode] at h
      obtain ⟨selection, hs⟩ := decideHarness2d_ok g t route grid
        (t.session.isNone && decide (grid.activeProfiles.length ≥ 2)) route.router.horizonThreshold.isSome
      rw [Trace.bind_of_ok hs] at h
      simp only at h
      split at h
      · cases h
      · rename_i hne
        cases h
        exact ⟨grid, selection, rfl, rfl, by simpa using hne, rfl, rfl, rfl, rfl⟩

theorem planHarnessRoute_jev {route : HarnessJevRoute} {plan : HarnessRoutePlan}
    (hr : g.harnesses.jevRoute t.routeAlias = some route) (h : (g.planHarnessRoute t).result = .ok plan) :
    ∃ mode, mode ≠ .static ∧ (g.planJevHarness t route mode).result = .ok plan := by
  unfold Gateway.planHarnessRoute at h
  split at h
  · cases h
  · simp only at h
    split at h
    · cases h
    · rename_i mode hmode
      have hm := modeOf_some hr hmode
      rw [hr] at h
      rcases hm with rfl | rfl <;> exact ⟨_, by decide, h⟩

theorem planHarnessRoute_static (hr : g.harnesses.jevRoute t.routeAlias = none) {legs : List StaticHarnessLeg}
    {mode : RoutingMode} (hlegs : g.harnesses.staticLegs t.routeAlias = some legs) (hmode : g.modeOf t = .ok mode) :
    (g.planHarnessRoute t).result = t.planStatic mode legs := by
  unfold Gateway.planHarnessRoute
  unfold Gateway.modeOf at hmode
  rw [hlegs]
  simp only [hmode]
  rw [hr]
  cases mode <;> rfl

theorem planStatic_ok {mode : RoutingMode} {legs : List StaticHarnessLeg} {plan : HarnessRoutePlan}
    (h : t.planStatic mode legs = .ok plan) : plan.legs ≠ [] ∧ plan.profileNames = [] ∧
      ∀ l ∈ plan.legs, l.profile = none ∧ ∃ sl ∈ legs, t.requirements.staticOk sl = true ∧ l.base = sl.base ∧
        l.leg.provider = sl.leg.provider ∧ l.leg.model = sl.leg.model := by
  unfold Turn.planStatic at h
  simp only at h
  split at h
  · cases h
  · rename_i hne
    cases h
    refine ⟨by simpa using hne, rfl, ?_⟩
    intro l hl
    obtain ⟨sl, hsl, rfl⟩ := List.mem_map.mp hl
    obtain ⟨hmem, hok⟩ := List.mem_filter.mp hsl
    exact ⟨rfl, sl, hmem, hok, rfl, rfl, rfl⟩

theorem planStatic_mem (mode : RoutingMode) {legs : List StaticHarnessLeg} {sl : StaticHarnessLeg} (hsl : sl ∈ legs)
    (hok : t.requirements.staticOk sl = true) : ∃ plan, t.planStatic mode legs = .ok plan ∧ ∃ l ∈ plan.legs,
      l.base = sl.base ∧ l.leg.provider = sl.leg.provider ∧ l.leg.model = sl.leg.model := by
  have hmem : sl ∈ legs.filter t.requirements.staticOk := List.mem_filter.mpr ⟨hsl, hok⟩
  unfold Turn.planStatic
  simp only [List.isEmpty_eq_false_iff.mpr (List.ne_nil_of_mem (List.mem_map_of_mem hmem)), Bool.false_eq_true, if_false]
  exact ⟨_, rfl, _, List.mem_map_of_mem hmem, rfl, rfl, rfl⟩

theorem planHarnessRoute_static_ok {plan : HarnessRoutePlan} (hr : g.harnesses.jevRoute t.routeAlias = none)
    (h : (g.planHarnessRoute t).result = .ok plan) :
    ∃ mode legs, g.harnesses.staticLegs t.routeAlias = some legs ∧ g.modeOf t = .ok mode ∧
      t.planStatic mode legs = .ok plan := by
  cases hlegs : g.harnesses.staticLegs t.routeAlias with
  | none =>
    unfold Gateway.planHarnessRoute at h
    rw [hlegs] at h
    cases h
  | some legs =>
    cases hmode : g.modeOf t with
    | error e =>
      unfold Gateway.planHarnessRoute at h
      unfold Gateway.modeOf at hmode
      rw [hlegs] at h
      simp only [hmode] at h
      cases h
    | ok mode => exact ⟨mode, legs, rfl, rfl, (planHarnessRoute_static hr hlegs hmode).symm.trans h⟩

def Gateway.RouteLeg (g : Gateway) (t : Turn) (base : String) (leg : ChainLeg) : Prop :=
  match g.harnesses.jevRoute t.routeAlias with
  | some route => ∃ tier ∈ route.tiers, leg ∈ tier.legs ∧ tier.allows base = true ∧
      (route.profiles = [] ∨ ∃ p ∈ route.profiles, base ∈ p.bases)
  | none => ∃ legs, g.harnesses.staticLegs t.routeAlias = some legs ∧ ∃ sl ∈ legs, sl.base = base ∧ sl.leg = leg

/-- Every planned leg meets the whole requirements of the turn, and planning fails when
no leg of the route does. -/
def Gateway.PlanMeets (g : Gateway) (t : Turn) : Prop :=
  (∀ plan, (g.planHarnessRoute t).result = .ok plan →
    ∀ l ∈ plan.legs, t.requirements.MetIn g.harnesses.bases l.base l.leg) ∧
  ((∀ base leg, g.RouteLeg t base leg → ¬ t.requirements.MetIn g.harnesses.bases base leg) →
    ∃ e, (g.planHarnessRoute t).result = .error e)

/-- The static legs of the route on the pinned base and of the named model meet the
rest of the requirements too. -/
def Gateway.StaticLegsMeet (g : Gateway) (t : Turn) : Prop :=
  ∀ legs mode, g.harnesses.staticLegs t.routeAlias = some legs → g.modeOf t = .ok mode →
    ∀ sl ∈ legs, t.requirements.staticOk sl = true → t.requirements.MetIn g.harnesses.bases sl.base sl.leg

theorem TaskRequirements.MetIn.congr {bases : BaseCatalog} {reqs : TaskRequirements} {base : String} {leg leg' : ChainLeg}
    (h : reqs.MetIn bases base leg) (hp : leg'.provider = leg.provider) (hm : leg'.model = leg.model) :
    reqs.MetIn bases base leg' := by
  obtain ⟨spec, hmem, hmet⟩ := h
  refine ⟨spec, hmem, { hmet with model := ?_, vertexNative := ?_, vision := ?_ }⟩
  · rw [hm]
    exact hmet.model
  · rw [hp]
    exact hmet.vertexNative
  · rw [hm]
    exact hmet.vision

theorem orderGrid_routeLeg {route : HarnessJevRoute} {catalog : BaseCatalog} {reqs : TaskRequirements}
    {grid : EligibleGrid} (h : eligibleGrid route catalog reqs = some grid) {chosen : Option Nat} {start : Nat}
    {policy : LegPolicy} {l : PlannedHarnessLeg} (hl : l ∈ orderGrid grid route chosen start policy) :
    ∃ tier ∈ route.tiers, ∃ leg ∈ tier.legs, l.leg.provider = leg.provider ∧ l.leg.model = leg.model ∧
      tier.allows l.base = true ∧ (route.profiles = [] ∨ ∃ p ∈ route.profiles, l.base ∈ p.bases) := by
  obtain ⟨-, hprofiles, htiers⟩ := eligibleGrid_ok h
  obtain ⟨profile, base, spec, i, tier, leg, wire, -, hcell, -, rfl⟩ := mem_orderGrid hl
  have htier := hcell.tier_at
  rw [htiers] at htier
  obtain ⟨t, -, ht, hleg, hb, -⟩ := eligibleTiers_leg htier hcell.leg_mem
  refine ⟨t, List.mem_of_getElem? ht, leg, hleg, rfl, rfl, ?_, ?_⟩
  · unfold HarnessTier.allows
    rw [hb]
    exact hcell.allowed
  · rcases hcell.tried with ⟨hnil, -⟩ | ⟨j, p, hp, hbase⟩
    · rw [hprofiles] at hnil
      exact .inl (List.map_eq_nil_iff.mp hnil)
    · rw [hprofiles, eligibleProfiles, List.getElem?_map, Option.map_eq_some_iff] at hp
      obtain ⟨p', hp', rfl⟩ := hp
      exact .inr ⟨p', List.mem_of_getElem? hp', (List.mem_filter.mp hbase).1⟩

theorem planMeets_of_legs
    (h : ∀ plan, (g.planHarnessRoute t).result = .ok plan → plan.legs ≠ [] ∧ ∀ l ∈ plan.legs,
      t.requirements.MetIn g.harnesses.bases l.base l.leg ∧
        ∃ leg, g.RouteLeg t l.base leg ∧ leg.provider = l.leg.provider ∧ leg.model = l.leg.model) : g.PlanMeets t := by
  refine ⟨fun plan hplan l hl => ((h plan hplan).2 l hl).1, ?_⟩
  intro hnone
  cases hr : (g.planHarnessRoute t).result with
  | error e => exact ⟨e, rfl⟩
  | ok plan =>
    obtain ⟨hne, hlegs⟩ := h plan hr
    obtain ⟨l, hl⟩ := List.exists_mem_of_ne_nil _ hne
    obtain ⟨hmeets, leg, hleg, hp, hm⟩ := hlegs l hl
    exact absurd (hmeets.congr hp hm) (hnone _ _ hleg)

theorem planMeets_jev {route : HarnessJevRoute} (hr : g.harnesses.jevRoute t.routeAlias = some route) :
    g.PlanMeets t := by
  apply planMeets_of_legs
  intro plan hplan
  obtain ⟨mode, -, hjev⟩ := planHarnessRoute_jev hr hplan
  obtain ⟨grid, selection, hgrid, hlegs, hne, -⟩ := planJevHarness_ok hjev
  refine ⟨hne, ?_⟩
  intro l hl
  rw [hlegs] at hl
  refine ⟨orderGrid_meets hgrid hl, ?_⟩
  obtain ⟨tier, htier, leg, hleg, hp, hm, hallows, htried⟩ := orderGrid_routeLeg hgrid hl
  refine ⟨leg, ?_, hp.symm, hm.symm⟩
  unfold Gateway.RouteLeg
  rw [hr]
  exact ⟨tier, htier, hleg, hallows, htried⟩

theorem planMeets_static (hr : g.harnesses.jevRoute t.routeAlias = none) : g.PlanMeets t ↔ g.StaticLegsMeet t := by
  constructor
  · intro h legs mode hlegs hmode sl hsl hok
    obtain ⟨plan, hplan, l, hl, hb, hp, hm⟩ := planStatic_mem mode hsl hok
    have hmeets := h.1 plan ((planHarnessRoute_static hr hlegs hmode).trans hplan) l hl
    rw [hb] at hmeets
    exact hmeets.congr hp.symm hm.symm
  · intro h
    apply planMeets_of_legs
    intro plan hplan
    obtain ⟨mode, legs, hlegs, hmode, hstatic⟩ := planHarnessRoute_static_ok hr hplan
    obtain ⟨hne, -, hall⟩ := planStatic_ok hstatic
    refine ⟨hne, ?_⟩
    intro l hl
    obtain ⟨-, sl, hsl, hok, hb, hp, hm⟩ := hall l hl
    rw [hb]
    refine ⟨(h legs mode hlegs hmode sl hsl hok).congr hp hm, sl.leg, ?_, hp.symm, hm.symm⟩
    unfold Gateway.RouteLeg
    rw [hr]
    exact ⟨legs, hlegs, sl, hsl, rfl, rfl⟩

end

/-- Planning keeps to the requirements on every jev route, and on a static route exactly
when the legs it lets through happen to meet them. -/
theorem planMeets_iff (g : Gateway) (t : Turn) :
    g.PlanMeets t ↔ (g.harnesses.jevRoute t.routeAlias = none → g.StaticLegsMeet t) := by
  cases hr : g.harnesses.jevRoute t.routeAlias with
  | some route => exact iff_of_true (planMeets_jev hr) (fun h => by cases h)
  | none => exact (planMeets_static hr).trans ⟨fun h _ => h, fun h => h rfl⟩

/-- A turn with an environment is dispatched to a base that supports none. -/
theorem environment_dropped_on_static_route :
    ∃ t, Gateway.resolveTurn {
        harnesses := {
          bases := [("codex", { wire := [.openaiResponses], environments := false })]
          staticRoutes := [("code", [⟨"codex", { provider := "openai", model := "gpt-5.4" }, .openaiResponses⟩])] } }
        {} {} ⟨"sess_1", "resp_1"⟩
        { input := .string "fix the tests".toList
          metadata := [("harness_id", .string "code".toList), ("env_id", .string "env_1".toList)] } = .ok t ∧
      ¬ Gateway.PlanMeets {
        harnesses := {
          bases := [("codex", { wire := [.openaiResponses], environments := false })]
          staticRoutes := [("code", [⟨"codex", { provider := "openai", model := "gpt-5.4" }, .openaiResponses⟩])] } } t := by
  refine ⟨_, rfl, ?_⟩
  intro h
  obtain ⟨spec, hspec, hmet⟩ := h.1 _ rfl _ (List.mem_singleton_self _)
  have henv := hmet.environment rfl
  rw [List.mem_singleton] at hspec
  rw [(Prod.mk.inj hspec).2] at henv
  cases henv

end SynapseGateway
