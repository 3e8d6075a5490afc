import SynapseGateway.HarnessPlanner

/-!
# What planning a turn does

A grid that has a cell is ordered into a plan that has a leg, whatever Jev
answers, so a turn fails in planning only for what it asks of its route.
-/

namespace SynapseGateway

/-! ## The grid -/

/-- A cell of a grid that its order reaches. -/
structure EligibleGrid.Cell (grid : EligibleGrid) (base : String) (spec : BaseSpec) (i : Nat) (tier : HarnessTier)
    (leg : ChainLeg) : Prop where
  base_spec : grid.bases.lookup base = some spec
  tried : (grid.profiles = [] ∧ base ∈ grid.bases.map (·.1)) ∨
    ∃ (j : Nat) (p : HarnessProfile), grid.profiles[j]? = some p ∧ base ∈ p.bases
  tier_at : grid.tiers[i]? = some tier
  allowed : tier.allows base = true
  leg_mem : leg ∈ tier.legs
  wired : (preferredWire spec.wire leg.provider leg.model).isSome = true

theorem eligibleGrid_cell {route : HarnessJevRoute} {catalog : BaseCatalog} {reqs : TaskRequirements}
    {grid : EligibleGrid} (h : eligibleGrid route catalog reqs = some grid) :
    ∃ base spec i tier leg, grid.Cell base spec i tier leg := by
  unfold eligibleGrid at h
  simp only at h
  split at h
  · cases h
  split at h
  · rename_i htiers
    cases h
    obtain ⟨tier, htier, hlegs⟩ := List.any_eq_true.mp htiers
    obtain ⟨i, hi⟩ := List.mem_iff_getElem?.mp htier
    obtain ⟨leg, hleg⟩ := List.exists_mem_of_ne_nil tier.legs (by simpa using hlegs)
    obtain ⟨t, ht, rfl⟩ := List.mem_map.mp htier
    obtain ⟨base, hbase, hcell⟩ := List.any_eq_true.mp (List.mem_filter.mp hleg).2
    rw [Bool.and_eq_true] at hcell
    obtain ⟨spec, hspec, hok⟩ := (Option.any_eq_true _ _).mp hcell.2
    refine ⟨base, spec, i, _, leg, hspec, ?_, hi, hcell.1, hleg, ?_⟩
    · unfold candidateBases at hbase
      split at hbase
      · rename_i hnil
        rw [List.isEmpty_iff] at hnil
        exact .inl ⟨by simp [eligibleProfiles, hnil], hbase⟩
      · obtain ⟨p, hp, hb⟩ := List.mem_flatMap.mp hbase
        obtain ⟨j, hj⟩ := List.mem_iff_getElem?.mp hp
        exact .inr ⟨j, p, hj, hb⟩
    · unfold TaskRequirements.legOk at hok
      simp only [Bool.and_eq_true] at hok
      exact hok.2
  · cases h

theorem mem_profileBases {grid : EligibleGrid} (route : HarnessJevRoute) (chosen : Option Nat) {base : String}
    (h : (grid.profiles = [] ∧ base ∈ grid.bases.map (·.1)) ∨
      ∃ (j : Nat) (p : HarnessProfile), grid.profiles[j]? = some p ∧ base ∈ p.bases) :
    ∃ profile, (profile, base) ∈ profileBases grid route chosen := by
  unfold profileBases
  rcases h with ⟨hnil, hbase⟩ | ⟨j, p, hp, hbase⟩
  · rw [hnil]
    obtain ⟨⟨b, spec⟩, hmem, rfl⟩ := List.mem_map.mp hbase
    exact ⟨none, List.mem_map.mpr ⟨_, hmem, rfl⟩⟩
  · have hj : j < grid.profiles.length := (List.getElem?_eq_some_iff.mp hp).1
    have hne : grid.profiles.isEmpty = false := by
      cases hg : grid.profiles with
      | nil => rw [hg] at hj; cases hj
      | cons => rfl
    rw [hne]
    refine ⟨some j, List.mem_flatMap.mpr ⟨j, ?_, List.mem_map.mpr ⟨base, by rw [hp]; exact hbase, rfl⟩⟩⟩
    -- the chosen profile, the default one or one of the others
    by_cases hprimary : j = chosen.getD route.defaultProfileIndex
    · rw [hprimary]
      simp
    by_cases hdefault : j = route.defaultProfileIndex
    · subst hdefault
      simp [hprimary]
    · simp [hprimary, hdefault, hj]

section
variable {grid : EligibleGrid} {start : Nat} {policy : LegPolicy}

/-- The cells of one base, with the profile it is tried for. -/
theorem mem_baseCells {profile : Option Nat} {base : String} {spec : BaseSpec} {l : PlannedHarnessLeg} :
    l ∈ baseCells grid start policy profile base spec ↔
      ∃ i tier leg wire, i ∈ escalationOrder grid.tiers.length start ∧ grid.tiers[i]? = some tier ∧
        tier.allows base = true ∧ leg ∈ tier.legs ∧ preferredWire spec.wire leg.provider leg.model = some wire ∧
        l = cellLeg grid policy profile base i tier leg wire := by
  unfold baseCells
  rw [List.mem_flatMap]
  constructor
  · intro h
    obtain ⟨i, hi, hl⟩ := h
    split at hl
    · cases hl
    · rename_i tier htier
      split at hl
      · rename_i hallows
        obtain ⟨leg, hleg, heq⟩ := List.mem_filterMap.mp hl
        obtain ⟨wire, hwire, rfl⟩ := Option.map_eq_some_iff.mp heq
        exact ⟨i, tier, leg, wire, hi, htier, hallows, hleg, hwire, rfl⟩
      · cases hl
  · intro h
    obtain ⟨i, tier, leg, wire, hi, htier, hallows, hleg, hwire, rfl⟩ := h
    refine ⟨i, hi, ?_⟩
    rw [htier]
    simp only [hallows, if_true]
    exact List.mem_filterMap.mpr ⟨leg, hleg, by rw [hwire]; rfl⟩

/-- The cells of a base, where the grid has it. -/
def cellsFor (grid : EligibleGrid) (start : Nat) (policy : LegPolicy) (tried : Option Nat × String) :
    List PlannedHarnessLeg :=
  (grid.bases.lookup tried.2).elim [] fun spec => baseCells grid start policy tried.1 tried.2 spec

theorem gridCells_eq (grid : EligibleGrid) (route : HarnessJevRoute) (chosen : Option Nat) (start : Nat)
    (policy : LegPolicy) : gridCells grid route chosen start policy =
      (profileBases grid route chosen).flatMap (cellsFor grid start policy) := by
  unfold gridCells
  congr 1
  funext ⟨profile, base⟩
  unfold cellsFor
  simp only
  cases grid.bases.lookup base with
  | none => rfl
  | some spec => rfl

theorem mem_cellsFor {tried : Option Nat × String} {l : PlannedHarnessLeg} :
    l ∈ cellsFor grid start policy tried ↔ ∃ spec, grid.bases.lookup tried.2 = some spec ∧
      l ∈ baseCells grid start policy tried.1 tried.2 spec := by
  unfold cellsFor
  cases grid.bases.lookup tried.2 with
  | none => simp
  | some spec => simp

/-- A cell of the grid is in its order, on the wire its base has for it. -/
theorem EligibleGrid.Cell.mem_gridCells {base : String} {spec : BaseSpec} {i : Nat} {tier : HarnessTier} {leg : ChainLeg}
    (h : grid.Cell base spec i tier leg) (route : HarnessJevRoute) (chosen : Option Nat) (start : Nat)
    (policy : LegPolicy) : ∃ profile wire,
      cellLeg grid policy profile base i tier leg wire ∈ gridCells grid route chosen start policy := by
  obtain ⟨profile, hbase⟩ := mem_profileBases route chosen h.tried
  obtain ⟨wire, hwire⟩ := Option.isSome_iff_exists.mp h.wired
  have hi : i ∈ escalationOrder grid.tiers.length start :=
    mem_escalationOrder.mpr (List.getElem?_eq_some_iff.mp h.tier_at).1
  refine ⟨profile, wire, ?_⟩
  rw [gridCells_eq]
  refine List.mem_flatMap.mpr ⟨_, hbase, mem_cellsFor.mpr ⟨spec, h.base_spec, mem_baseCells.mpr ?_⟩⟩
  exact ⟨i, tier, leg, wire, hi, h.tier_at, h.allowed, h.leg_mem, hwire, rfl⟩

end

theorem firstOfCell_ne_nil {legs : List PlannedHarnessLeg} (h : legs ≠ []) : firstOfCell [] legs ≠ [] := by
  cases legs with
  | nil => exact absurd rfl h
  | cons l legs => exact List.cons_ne_nil _ _

theorem orderGrid_ne_nil {route : HarnessJevRoute} {catalog : BaseCatalog} {reqs : TaskRequirements}
    {grid : EligibleGrid} (h : eligibleGrid route catalog reqs = some grid) (chosen : Option Nat) (start : Nat)
    (policy : LegPolicy) : orderGrid grid route chosen start policy ≠ [] := by
  obtain ⟨base, spec, i, tier, leg, hcell⟩ := eligibleGrid_cell h
  obtain ⟨profile, wire, hraw⟩ := hcell.mem_gridCells route chosen start policy
  exact firstOfCell_ne_nil (List.ne_nil_of_mem hraw)

/-! ## The plan -/

def TurnEvent.Outside : TurnEvent → Prop
  | .jevCall _ | .executeTurn _ | .recordResponse _ => True
  | .enqueue _ => False

section
variable {g : Gateway} {t : Turn}

def Gateway.modeOf (g : Gateway) (t : Turn) : Except String RoutingMode :=
  resolveMode (g.harnesses.jevRoute t.routeAlias).isSome t.req.routingStrategy

/-- The route knows the strategy the turn asks for and has a leg that meets its
requirements. -/
def Gateway.HasLeg (g : Gateway) (t : Turn) : Prop :=
  ∃ legs mode, g.harnesses.staticLegs t.routeAlias = some legs ∧ g.modeOf t = .ok mode ∧
    match g.harnesses.jevRoute t.routeAlias with
    | some route => (eligibleGrid route g.harnesses.bases t.requirements).isSome = true
    | none => ∃ sl ∈ legs, t.requirements.staticOk sl = true

def Gateway.AsksJev (g : Gateway) (t : Turn) : Prop := g.jevNative.isSome = true ∧ g.modeOf t = .ok .jev

theorem modeOf_some {route : HarnessJevRoute} {mode : RoutingMode} (hr : g.harnesses.jevRoute t.routeAlias = some route)
    (h : g.modeOf t = .ok mode) : mode = .jev ∨ mode = .staticOverride := by
  unfold Gateway.modeOf at h
  rw [hr, Option.isSome_some] at h
  unfold resolveMode at h
  split at h <;> cases h
  · exact .inl rfl
  · exact .inl rfl
  · exact .inr rfl
  · cases ‹true = false›
  · cases ‹true = false›

theorem modeOf_none {mode : RoutingMode} (hr : g.harnesses.jevRoute t.routeAlias = none) (h : g.modeOf t = .ok mode) :
    mode = .static := by
  unfold Gateway.modeOf at h
  rw [hr, Option.isSome_none] at h
  unfold resolveMode at h
  split at h <;> cases h
  · cases ‹false = true›
  · cases ‹false = true›
  · cases ‹false = true›
  · rfl
  · rfl

section
variable (g : Gateway) (t : Turn) (route : HarnessJevRoute) (grid : EligibleGrid) (askProfile askHorizon : Bool)

theorem decideHarness2d_ok : ∃ s, (g.decideHarness2d t route grid askProfile askHorizon).result = .ok s := by
  unfold Gateway.decideHarness2d
  cases g.jevNative with
  | none => exact ⟨_, rfl⟩
  | some provider =>
    simp only [Trace.emit_bind]
    cases callHarnessJev provider _ with
    | error outcome => exact ⟨_, rfl⟩
    | ok d => exact ⟨_, rfl⟩

theorem decideHarness2d_none (hj : g.jevNative = none) :
    (g.decideHarness2d t route grid askProfile askHorizon).events = [] := by
  unfold Gateway.decideHarness2d
  rw [hj]
  rfl

theorem decideHarness2d_some (hj : g.jevNative.isSome = true) :
    ∃ body, TurnEvent.jevCall body ∈ (g.decideHarness2d t route grid askProfile askHorizon).events := by
  unfold Gateway.decideHarness2d
  cases hp : g.jevNative with
  | none =>
    rw [hp] at hj
    cases hj
  | some provider => exact ⟨_, List.mem_cons_self ..⟩

end

/-- What planning does for a turn that has a leg: a plan, and a Jev call when the
plan is Jev's. -/
structure Planned (g : Gateway) (t : Turn) (r : TurnM HarnessRoutePlan) : Prop where
  ok : ∃ plan, r.result = .ok plan ∧ plan.legs ≠ []
  asks : g.AsksJev t → ∃ body, TurnEvent.jevCall body ∈ r.events
  quiet : ¬ g.AsksJev t → ∀ ev ∈ r.events, ¬ ev.Outside

theorem planJevHarness_planned {route : HarnessJevRoute} {mode : RoutingMode} {grid : EligibleGrid}
    (hmode : g.modeOf t = .ok mode) (hm : mode = .jev ∨ mode = .staticOverride)
    (hgrid : eligibleGrid route g.harnesses.bases t.requirements = some grid) :
    Planned g t (g.planJevHarness t route mode) := by
  have hlegs : ∀ chosen start policy, (orderGrid grid route chosen start policy).isEmpty = false := by
    intro chosen start policy
    rw [List.isEmpty_eq_false_iff]
    exact orderGrid_ne_nil hgrid chosen start policy
  unfold Gateway.planJevHarness
  rw [hgrid]
  simp only
  rcases hm with rfl | rfl
  · obtain ⟨s, hs⟩ := decideHarness2d_ok g t route grid
      (t.session.isNone && decide (grid.activeProfiles.length ≥ 2)) route.router.horizonThreshold.isSome
    simp only [reduceCtorEq, if_false]
    rw [Trace.bind_of_ok hs]
    simp only [hlegs, Bool.false_eq_true, if_false]
    refine ⟨⟨_, rfl, orderGrid_ne_nil hgrid _ _ _⟩, ?_, ?_⟩
    · intro hask
      obtain ⟨body, hbody⟩ := decideHarness2d_some g t route grid _ _ hask.1
      exact ⟨body, List.mem_append_left _ hbody⟩
    · intro hask ev hev
      have hj : g.jevNative = none := by
        rw [← Option.not_isSome_iff_eq_none]
        exact fun h => hask ⟨h, hmode⟩
      rw [decideHarness2d_none g t route grid _ _ hj] at hev
      cases hev
  · simp only [if_true, Trace.pure_bind, hlegs, Bool.false_eq_true, if_false]
    refine ⟨⟨_, rfl, orderGrid_ne_nil hgrid _ _ _⟩, ?_, ?_⟩
    · intro hask
      rw [hask.2] at hmode
      cases hmode
    · intro hask ev hev
      cases hev

theorem planStatic_planned {mode : RoutingMode} {legs : List StaticHarnessLeg} (hmode : g.modeOf t = .ok mode)
    (hstatic : mode = .static) (hleg : ∃ sl ∈ legs, t.requirements.staticOk sl = true) :
    Planned g t (Trace.lift (t.planStatic mode legs)) := by
  obtain ⟨sl, hsl, hok⟩ := hleg
  have hmem : sl ∈ legs.filter t.requirements.staticOk := List.mem_filter.mpr ⟨hsl, hok⟩
  have hne : ∀ f : StaticHarnessLeg → PlannedHarnessLeg, (legs.filter t.requirements.staticOk).map f ≠ [] :=
    fun f => List.ne_nil_of_mem (List.mem_map_of_mem hmem)
  unfold Turn.planStatic
  simp only [List.isEmpty_eq_false_iff.mpr (hne _), Bool.false_eq_true, if_false]
  refine ⟨⟨_, rfl, hne _⟩, ?_, ?_⟩
  · intro hask
    rw [hask.2, hstatic] at hmode
    cases hmode
  · intro hask ev hev
    cases hev

theorem planHarnessRoute_planned (h : g.HasLeg t) : Planned g t (g.planHarnessRoute t) := by
  obtain ⟨legs, mode, hlegs, hmode, hleg⟩ := h
  unfold Gateway.planHarnessRoute
  have hmode' := hmode
  unfold Gateway.modeOf at hmode'
  rw [hlegs]
  simp only [hmode']
  cases hr : g.harnesses.jevRoute t.routeAlias with
  | some route =>
    rw [hr] at hleg
    obtain ⟨grid, hgrid⟩ := Option.isSome_iff_exists.mp hleg
    have hm := modeOf_some hr hmode
    have hplanned := planJevHarness_planned hmode hm hgrid
    rcases hm with rfl | rfl <;> exact hplanned
  | none =>
    rw [hr] at hleg
    have hstatic := modeOf_none hr hmode
    have hplanned := planStatic_planned hmode hstatic hleg
    rw [hstatic] at hplanned ⊢
    exact hplanned

theorem planHarnessRoute_refuses (h : ¬ g.HasLeg t) : (g.planHarnessRoute t).Refuses TurnEvent.Outside := by
  unfold Gateway.planHarnessRoute
  cases hlegs : g.harnesses.staticLegs t.routeAlias with
  | none => exact Trace.refuses_fail _ _
  | some legs =>
    simp only
    cases hmode : g.modeOf t with
    | error e =>
      unfold Gateway.modeOf at hmode
      simp only [hmode]
      exact Trace.refuses_fail _ _
    | ok mode =>
      have hmode' := hmode
      unfold Gateway.modeOf at hmode'
      simp only [hmode']
      cases hr : g.harnesses.jevRoute t.routeAlias with
      | some route =>
        have hnone : eligibleGrid route g.harnesses.bases t.requirements = none := by
          rw [← Option.not_isSome_iff_eq_none]
          exact fun hs => h ⟨legs, mode, hlegs, hmode, by rw [hr]; exact hs⟩
        have hrefuses : (g.planJevHarness t route mode).Refuses TurnEvent.Outside := by
          unfold Gateway.planJevHarness
          rw [hnone]
          exact Trace.refuses_fail _ _
        rcases modeOf_some hr hmode with rfl | rfl <;> exact hrefuses
      | none =>
        have hempty : legs.filter t.requirements.staticOk = [] := by
          rw [List.filter_eq_nil_iff]
          exact fun sl hsl hok => h ⟨legs, mode, hlegs, hmode, by rw [hr]; exact ⟨sl, hsl, hok⟩⟩
        rw [modeOf_none hr hmode]
        unfold Turn.planStatic
        rw [hempty]
        exact Trace.refuses_fail _ _

end

end SynapseGateway
