import SynapseGateway.HarnessTableSound

/-!
# The pin of a session

A turn of a session plans on the base the session ran on. The cells of that base are
tried for the profile of the session first, and every other profile repeats them, so
the profile stays too.
-/

namespace SynapseGateway

/-! ## The order of a grid -/

theorem firstOfCell_append (seen xs ys : List PlannedHarnessLeg) :
    firstOfCell seen (xs ++ ys) = firstOfCell seen xs ++ firstOfCell (seen ++ xs) ys := by
  induction xs generalizing seen with
  | nil => simp [firstOfCell]
  | cons x xs ih =>
    rw [List.cons_append, firstOfCell, firstOfCell, ih, List.append_assoc, List.singleton_append]
    by_cases h : seen.any (·.sameCell x) = true
    · rw [if_pos h, if_pos h]
    · rw [if_neg h, if_neg h, List.cons_append]

theorem firstOfCell_new {seen legs : List PlannedHarnessLeg} {l : PlannedHarnessLeg} (h : l ∈ firstOfCell seen legs) :
    ∀ s ∈ seen, s.sameCell l = false := by
  induction legs generalizing seen with
  | nil => cases h
  | cons a legs ih =>
    rw [firstOfCell] at h
    split at h
    · exact fun s hs => ih h s (List.mem_append_left _ hs)
    · rename_i hnew
      rcases List.mem_cons.mp h with rfl | h
      · intro s hs
        rw [← Bool.not_eq_true]
        exact fun hsame => hnew (List.any_eq_true.mpr ⟨s, hs, hsame⟩)
      · exact fun s hs => ih h s (List.mem_append_left _ hs)

section
variable {grid : EligibleGrid} {route : HarnessJevRoute} {start : Nat} {policy : LegPolicy}

theorem baseCells_twin {profile : Option Nat} {base : String} {spec : BaseSpec} {l : PlannedHarnessLeg}
    (h : l ∈ baseCells grid start policy profile base spec) (profile' : Option Nat) :
    ∃ l' ∈ baseCells grid start policy profile' base spec, l'.sameCell l = true := by
  obtain ⟨i, tier, leg, wire, hi, htier, hallows, hleg, hwire, rfl⟩ := mem_baseCells.mp h
  refine ⟨_, mem_baseCells.mpr ⟨i, tier, leg, wire, hi, htier, hallows, hleg, hwire, rfl⟩, ?_⟩
  simp [PlannedHarnessLeg.sameCell, cellLeg]

/-- Where the grid has one base, all its cells are for the first profile that has it. -/
theorem orderGrid_first {base : String} (hone : ∀ b ∈ grid.bases.map (·.1), b = base) {j : Nat} {p : HarnessProfile}
    (hj : grid.profiles[j]? = some p) (hbase : base ∈ p.bases) {l : PlannedHarnessLeg}
    (hl : l ∈ orderGrid grid route (some j) start policy) : l.profile = some j := by
  have hne : grid.profiles.isEmpty = false := List.isEmpty_eq_false_iff.mpr (List.ne_nil_of_mem (List.mem_of_getElem? hj))
  obtain ⟨rest, hbases⟩ : ∃ rest, profileBases grid route (some j) = (p.bases.map fun b => (some j, b)) ++ rest := by
    unfold profileBases
    rw [hne]
    simp only [Bool.false_eq_true, if_false, Option.getD_some, List.cons_append, List.nil_append, List.flatMap_cons, hj,
      Option.map_some]
    exact ⟨_, rfl⟩
  unfold orderGrid at hl
  rw [gridCells_eq, hbases, List.flatMap_append, firstOfCell_append, List.mem_append] at hl
  rcases hl with hl | hl
  · obtain ⟨tried, hmem, hcell⟩ := List.mem_flatMap.mp (firstOfCell_subset _ _ l hl)
    obtain ⟨b, -, rfl⟩ := List.mem_map.mp hmem
    obtain ⟨spec, -, hcell⟩ := mem_cellsFor.mp hcell
    obtain ⟨i, tier, leg, wire, -, -, -, -, -, rfl⟩ := mem_baseCells.mp hcell
    rfl
  · -- a later profile only repeats the cells of the base
    obtain ⟨⟨profile, b⟩, -, hcell⟩ := List.mem_flatMap.mp (firstOfCell_subset _ _ l hl)
    obtain ⟨spec, hspec, hcell⟩ := mem_cellsFor.mp hcell
    obtain rfl : b = base := hone b (Assoc.lookup_isSome.mp (Option.isSome_iff_exists.mpr ⟨spec, hspec⟩))
    obtain ⟨l', hl', hsame⟩ := baseCells_twin hcell (some j)
    have hseen : l' ∈ (p.bases.map fun b => (some j, b)).flatMap (cellsFor grid start policy) :=
      List.mem_flatMap.mpr ⟨(some j, b), List.mem_map_of_mem hbase, mem_cellsFor.mpr ⟨spec, hspec, hl'⟩⟩
    rw [firstOfCell_new hl l' hseen] at hsame
    cases hsame

end

/-! ## The profile of a leg -/

section
variable {route : HarnessJevRoute} {catalog : BaseCatalog} {reqs : TaskRequirements} {grid : EligibleGrid}

theorem orderGrid_profile (h : eligibleGrid route catalog reqs = some grid) {chosen : Option Nat} {start : Nat}
    {policy : LegPolicy} {l : PlannedHarnessLeg} (hl : l ∈ orderGrid grid route chosen start policy) :
    (route.profiles = [] ∧ l.profile = none) ∨ ∃ (j : Nat) (p q : HarnessProfile), l.profile = some j ∧
      route.profiles[j]? = some p ∧ grid.profiles[j]? = some q ∧ l.base ∈ p.bases ∧ l.base ∈ q.bases := by
  obtain ⟨-, hprofiles, -⟩ := eligibleGrid_ok h
  obtain ⟨profile, base, spec, i, tier, leg, wire, htried, -, -, rfl⟩ := mem_orderGrid hl
  rcases profileBases_tried htried with ⟨hnil, rfl, -⟩ | ⟨j, q, rfl, hq, hb⟩
  · rw [hprofiles] at hnil
    exact .inl ⟨List.map_eq_nil_iff.mp hnil, rfl⟩
  · have hq' := hq
    rw [hprofiles, eligibleProfiles, List.getElem?_map, Option.map_eq_some_iff] at hq'
    obtain ⟨p, hp, rfl⟩ := hq'
    exact .inr ⟨j, p, _, rfl, hp, hq, (List.mem_filter.mp hb).1, hb⟩

/-- Whether a base is left in a profile does not depend on the profile. -/
theorem mem_eligibleProfiles {bases : BaseCatalog} {j : Nat} {p q : HarnessProfile} {base : String}
    (hq : q ∈ eligibleProfiles route bases reqs) (hbase : base ∈ q.bases) (hp : route.profiles[j]? = some p)
    (hb : base ∈ p.bases) : ∃ p', (eligibleProfiles route bases reqs)[j]? = some p' ∧ base ∈ p'.bases := by
  obtain ⟨q', -, rfl⟩ := List.mem_map.mp hq
  unfold eligibleProfiles
  refine ⟨_, by rw [List.getElem?_map, hp, Option.map_some], ?_⟩
  exact List.mem_filter.mpr ⟨hb, (List.mem_filter.mp hbase).2⟩

theorem findIdx_name {profiles : List HarnessProfile} (hn : (profiles.map (·.name)).Nodup) {j : Nat} {p : HarnessProfile}
    (hj : profiles[j]? = some p) : (profiles.findIdx? fun q => q.name == p.name) = some j := by
  obtain ⟨hlt, hget⟩ := List.getElem?_eq_some_iff.mp hj
  rw [List.findIdx?_eq_some_iff_getElem]
  refine ⟨hlt, by rw [hget]; exact beq_self_eq_true _, ?_⟩
  intro i hi hsame
  have hi' : i < profiles.length := hi.trans hlt
  have hname : (profiles.map (·.name))[i]? = (profiles.map (·.name))[j]? := by
    rw [List.getElem?_map, List.getElem?_map, hj, List.getElem?_eq_getElem hi']
    exact congrArg some (beq_iff_eq.mp hsame)
  exact hi.ne ((List.getElem?_inj (by simpa using hi') hn).mp hname)

end

/-! ## The pin -/

/-- The session is on a profile of the route that has its base; on none, where the
route has none. -/
def Gateway.Pins (g : Gateway) (routeAlias : String) (session : UhpSessionRecord) : Prop :=
  match g.harnesses.jevRoute routeAlias with
  | some route => (route.profiles = [] ∧ session.pinnedProfile = none) ∨
      ∃ p ∈ route.profiles, session.pinnedProfile = some p.name ∧ session.pinnedBase ∈ p.bases
  | none => session.pinnedProfile = none

section
variable {g : Gateway} {t : Turn} {plan : HarnessRoutePlan} {leg : PlannedHarnessLeg}

theorem Turn.dispatch_profile (t : Turn) {route : HarnessJevRoute} (hnames : plan.profileNames = route.profiles.map (·.name))
    {j : Nat} {p : HarnessProfile} (hleg : leg.profile = some j) (hp : route.profiles[j]? = some p) :
    (t.dispatch plan leg).profile = some p.name := by
  show (leg.profile.bind fun i => plan.profileNames[i]?) = some p.name
  rw [hleg, hnames, Option.bind_some, List.getElem?_map, hp]
  rfl

theorem Turn.dispatch_profile_none (t : Turn) (plan : HarnessRoutePlan) (hleg : leg.profile = none) :
    (t.dispatch plan leg).profile = none := by
  show (leg.profile.bind fun i => plan.profileNames[i]?) = none
  rw [hleg]
  rfl

theorem sessionRecord_pins (hplan : (g.planHarnessRoute t).result = .ok plan) (hleg : leg ∈ plan.legs)
    (output : UhpTurnOutput) : g.Pins t.routeAlias (t.sessionRecord (t.dispatch plan leg) output) := by
  unfold Gateway.Pins
  cases hr : g.harnesses.jevRoute t.routeAlias with
  | some route =>
    obtain ⟨mode, -, hjev⟩ := planHarnessRoute_jev hr hplan
    obtain ⟨grid, selection, hgrid, hlegs, -, hnames, -⟩ := planJevHarness_ok hjev
    rw [hlegs] at hleg
    rcases orderGrid_profile hgrid hleg with ⟨hnil, hnone⟩ | ⟨j, p, q, hj, hp, -, hb, -⟩
    · exact .inl ⟨hnil, t.dispatch_profile_none plan hnone⟩
    · exact .inr ⟨p, List.mem_of_getElem? hp, t.dispatch_profile hnames hj hp, hb⟩
  | none =>
    obtain ⟨mode, legs, -, -, hstatic⟩ := planHarnessRoute_static_ok hr hplan
    obtain ⟨-, -, hall⟩ := planStatic_ok hstatic
    exact t.dispatch_profile_none plan (hall leg hleg).1

variable {session : UhpSessionRecord}

theorem Turn.requirements_pinnedBase (hs : t.session = some session) :
    t.requirements.pinnedBase = some session.pinnedBase := by
  show (t.session.map (·.pinnedBase)).or _ = _
  rw [hs]
  rfl

theorem plan_keeps_base (hs : t.session = some session) (hplan : (g.planHarnessRoute t).result = .ok plan)
    (hleg : leg ∈ plan.legs) : leg.base = session.pinnedBase := by
  have hpinned := t.requirements_pinnedBase hs
  cases hr : g.harnesses.jevRoute t.routeAlias with
  | some route =>
    obtain ⟨mode, -, hjev⟩ := planHarnessRoute_jev hr hplan
    obtain ⟨grid, selection, hgrid, hlegs, -, -⟩ := planJevHarness_ok hjev
    rw [hlegs] at hleg
    obtain ⟨spec, -, hmet⟩ := orderGrid_meets hgrid hleg
    exact hmet.pinned _ hpinned
  | none =>
    obtain ⟨mode, legs, -, -, hstatic⟩ := planHarnessRoute_static_ok hr hplan
    obtain ⟨-, -, hall⟩ := planStatic_ok hstatic
    obtain ⟨-, sl, -, hok, hbase, -, -⟩ := hall leg hleg
    unfold TaskRequirements.staticOk at hok
    rw [hpinned, Option.all_some, Bool.and_eq_true, beq_iff_eq] at hok
    rw [hbase, hok.1]

theorem plan_keeps_profile (hvalid : g.harnesses.Valid) (hs : t.session = some session)
    (hpins : g.Pins t.routeAlias session) (hplan : (g.planHarnessRoute t).result = .ok plan) (hleg : leg ∈ plan.legs) :
    (t.dispatch plan leg).profile = session.pinnedProfile := by
  have hbase := plan_keeps_base hs hplan hleg
  unfold Gateway.Pins at hpins
  cases hr : g.harnesses.jevRoute t.routeAlias with
  | none =>
    rw [hr] at hpins
    obtain ⟨mode, legs, -, -, hstatic⟩ := planHarnessRoute_static_ok hr hplan
    obtain ⟨-, -, hall⟩ := planStatic_ok hstatic
    exact (t.dispatch_profile_none plan (hall leg hleg).1).trans hpins.symm
  | some route =>
    rw [hr] at hpins
    obtain ⟨mode, -, hjev⟩ := planHarnessRoute_jev hr hplan
    obtain ⟨grid, selection, hgrid, hlegs, -, hnames, -⟩ := planJevHarness_ok hjev
    obtain ⟨hbases, hprofiles, -⟩ := eligibleGrid_ok hgrid
    rw [hlegs] at hleg
    rcases orderGrid_profile hgrid hleg with ⟨hnil, hnone⟩ | ⟨i, -, q, -, -, hq, -, hbq⟩
    · rcases hpins with ⟨-, hpinned⟩ | ⟨p, hp, -⟩
      · exact (t.dispatch_profile_none plan hnone).trans hpinned.symm
      · rw [hnil] at hp
        cases hp
    · rcases hpins with ⟨hnil, -⟩ | ⟨p, hp, hpinned, hbp⟩
      · rw [hprofiles, eligibleProfiles, hnil] at hq
        cases hq
      -- the pinned profile has the base, so it is the first that does
      obtain ⟨j, hj⟩ := List.mem_iff_getElem?.mp hp
      have hindex : t.pinnedProfile route = some j := by
        unfold Turn.pinnedProfile
        rw [hs, Option.bind_some, hpinned, Option.bind_some]
        exact findIdx_name (hvalid.jev _ _ hr).names hj
      rw [hindex, Option.some_or] at hleg
      rw [hbase] at hbq
      obtain ⟨p', hp', hb'⟩ := mem_eligibleProfiles (hprofiles ▸ List.mem_of_getElem? hq) hbq hj hbp
      have hone : ∀ b ∈ grid.bases.map (·.1), b = session.pinnedBase := by
        intro b hb
        rw [hbases] at hb
        obtain ⟨e, he, rfl⟩ := List.mem_map.mp hb
        have hok := (List.mem_filter.mp he).2
        unfold TaskRequirements.baseOk at hok
        simp only [t.requirements_pinnedBase hs, Bool.and_eq_true, Option.all_some, beq_iff_eq] at hok
        exact hok.1.1.1.1.symm
      have hprofile := orderGrid_first hone (hprofiles ▸ hp') hb' hleg
      exact (t.dispatch_profile hnames hprofile hj).trans hpinned.symm

end

end SynapseGateway
