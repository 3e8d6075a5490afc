import SynapseGateway.HarnessRequirements
import SynapseGateway.HarnessTable

/-!
# The cells of a harness route

What a request with no requirements can be dispatched to: the cells the grid of an
alias orders, or its static legs.
-/

namespace SynapseGateway

structure HarnessCell where
  base : String
  provider : String
  model : String
  wire : WireProtocol
deriving DecidableEq, Repr

def PlannedHarnessLeg.cell (l : PlannedHarnessLeg) : HarnessCell := ⟨l.base, l.leg.provider, l.leg.model, l.wire⟩

def StaticHarnessLeg.cell (l : StaticHarnessLeg) : HarnessCell := ⟨l.base, l.leg.provider, l.leg.model, l.wire⟩

/-- A request on the alias, with no requirements, can be dispatched to the cell. -/
def HarnessRouteTable.Dispatches (t : HarnessRouteTable) (routeAlias : String) (c : HarnessCell) : Prop :=
  match t.jevRoute routeAlias with
  | some route => ∃ grid chosen start policy, eligibleGrid route t.bases {} = some grid ∧
      ∃ l ∈ orderGrid grid route chosen start policy, l.cell = c
  | none => ∃ legs, t.staticLegs routeAlias = some legs ∧ ∃ l ∈ legs, l.cell = c

/-! ## The cells of a grid -/

/-- A leg of a tier that allows the base, on the wire the base runs it on. -/
structure HarnessJevRoute.Offers (route : HarnessJevRoute) (bases : BaseCatalog) (c : HarnessCell) : Prop where
  wire : wireFor bases c.base c.provider c.model = some c.wire
  leg : ∃ tier ∈ route.tiers, tier.allows c.base = true ∧ ∃ l ∈ tier.legs, l.provider = c.provider ∧ l.model = c.model

def HarnessJevRoute.Names (route : HarnessJevRoute) (base : String) : Prop := ∃ p ∈ route.profiles, base ∈ p.bases

instance (route : HarnessJevRoute) (bases : BaseCatalog) (c : HarnessCell) : Decidable (route.Offers bases c) :=
  decidable_of_iff (wireFor bases c.base c.provider c.model = some c.wire ∧ ∃ tier ∈ route.tiers,
      tier.allows c.base = true ∧ ∃ l ∈ tier.legs, l.provider = c.provider ∧ l.model = c.model)
    ⟨fun h => ⟨h.1, h.2⟩, fun h => ⟨h.1, h.2⟩⟩

instance (route : HarnessJevRoute) (base : String) : Decidable (route.Names base) :=
  inferInstanceAs (Decidable (∃ p ∈ route.profiles, base ∈ p.bases))

structure HarnessJevRoute.Runs (route : HarnessJevRoute) (bases : BaseCatalog) (c : HarnessCell) : Prop where
  offered : route.Offers bases c
  tried : route.profiles = [] ∨ route.Names c.base

section
variable {route : HarnessJevRoute} {bases : BaseCatalog} {c : HarnessCell}

theorem eligibleBases_any (bases : BaseCatalog) : eligibleBases bases {} = bases := by
  apply List.filter_eq_self.mpr
  intro e _
  simp [TaskRequirements.baseOk]

theorem legCompatibleWithBase_any (bases : BaseCatalog) (base : String) (l : ChainLeg) :
    legCompatibleWithBase bases {} base l = (wireFor bases base l.provider l.model).isSome := by
  unfold legCompatibleWithBase wireFor
  cases bases.lookup base with
  | none => rfl
  | some spec => simp [TaskRequirements.legOk]

theorem lookup_of_wireFor {base provider model : String} {wire : WireProtocol}
    (h : wireFor bases base provider model = some wire) : (bases.lookup base).isSome = true := by
  unfold wireFor at h
  cases hb : bases.lookup base with
  | none =>
    rw [hb] at h
    cases h
  | some spec => rfl

theorem sameCell_trans {a b d : PlannedHarnessLeg} (hab : a.sameCell b = true) (hbd : b.sameCell d = true) :
    a.sameCell d = true := by
  unfold PlannedHarnessLeg.sameCell at *
  simp only [Bool.and_eq_true, beq_iff_eq] at *
  obtain ⟨⟨⟨h1, h2⟩, h3⟩, h4⟩ := hab
  rw [h1, h2, h3, h4]
  exact hbd

theorem firstOfCell_represents (seen : List PlannedHarnessLeg) {legs : List PlannedHarnessLeg} {l : PlannedHarnessLeg}
    (h : l ∈ legs) : ∃ l' ∈ seen ++ firstOfCell seen legs, l'.sameCell l = true := by
  induction legs generalizing seen with
  | nil => cases h
  | cons a legs ih =>
    have hrefl : ∀ x : PlannedHarnessLeg, x.sameCell x = true := by
      intro x
      simp [PlannedHarnessLeg.sameCell]
    rw [firstOfCell]
    by_cases hseen : seen.any (·.sameCell a) = true
    · rw [if_pos hseen]
      obtain ⟨s, hs, hsa⟩ := List.any_eq_true.mp hseen
      rcases List.mem_cons.mp h with rfl | h
      · exact ⟨s, List.mem_append_left _ hs, hsa⟩
      obtain ⟨l', hl', hsame⟩ := ih (seen ++ [a]) h
      rw [List.append_assoc, List.mem_append, List.mem_append, List.mem_singleton] at hl'
      rcases hl' with hl' | rfl | hl'
      · exact ⟨l', List.mem_append_left _ hl', hsame⟩
      · exact ⟨s, List.mem_append_left _ hs, sameCell_trans hsa hsame⟩
      · exact ⟨l', List.mem_append_right _ hl', hsame⟩
    · rw [if_neg hseen]
      rcases List.mem_cons.mp h with rfl | h
      · exact ⟨l, by simp, hrefl l⟩
      obtain ⟨l', hl', hsame⟩ := ih (seen ++ [a]) h
      rw [List.append_assoc] at hl'
      exact ⟨l', hl', hsame⟩

theorem runs_of_orderGrid {grid : EligibleGrid} (h : eligibleGrid route bases {} = some grid) {chosen : Option Nat}
    {start : Nat} {policy : LegPolicy} {l : PlannedHarnessLeg} (hl : l ∈ orderGrid grid route chosen start policy) :
    route.Runs bases l.cell := by
  obtain ⟨tier, htier, leg, hleg, hp, hm, hallows, htried⟩ := orderGrid_routeLeg h hl
  obtain ⟨hbases, -, -⟩ := eligibleGrid_ok h
  obtain ⟨profile, base, spec, i, t, leg', wire, -, hcell, hwire, rfl⟩ := mem_orderGrid hl
  have hspec := hcell.base_spec
  rw [hbases, eligibleBases_any] at hspec
  refine ⟨⟨?_, tier, htier, hallows, leg, hleg, hp.symm, hm.symm⟩, htried⟩
  show wireFor bases base leg'.provider leg'.model = some wire
  unfold wireFor
  rw [hspec]
  exact hwire

theorem HarnessJevRoute.Offers.compatible (h : route.Offers bases c) : ∃ tier ∈ route.tiers, tier.allows c.base = true ∧
    ∃ l ∈ tier.legs, l.provider = c.provider ∧ l.model = c.model ∧ legCompatibleWithBase bases {} c.base l = true := by
  obtain ⟨tier, htier, hallows, l, hl, hp, hm⟩ := h.leg
  refine ⟨tier, htier, hallows, l, hl, hp, hm, ?_⟩
  rw [legCompatibleWithBase_any, hp, hm, h.wire]
  rfl

theorem HarnessJevRoute.Offers.profile (h : route.Offers bases c) (hnamed : route.Names c.base) :
    ∃ p ∈ eligibleProfiles route bases {}, c.base ∈ p.bases := by
  obtain ⟨p, hp, hb⟩ := hnamed
  obtain ⟨tier, htier, hallows, l, hl, -, -, hcompat⟩ := h.compatible
  refine ⟨_, List.mem_map_of_mem hp, List.mem_filter.mpr ⟨hb, ?_⟩⟩
  rw [lookup_of_wireFor h.wire, Bool.true_and]
  refine List.any_eq_true.mpr ⟨tier, htier, ?_⟩
  rw [hallows, Bool.true_and]
  exact List.any_eq_true.mpr ⟨l, hl, hcompat⟩

theorem HarnessJevRoute.Runs.candidate (h : route.Runs bases c) : c.base ∈ candidateBases route bases {} := by
  unfold candidateBases
  split
  · exact Assoc.lookup_isSome.mp (lookup_of_wireFor h.offered.wire)
  · rename_i hprofiles
    obtain ⟨p, hp, hb⟩ := h.offered.profile (h.tried.resolve_left (by simpa using hprofiles))
    exact List.mem_flatMap.mpr ⟨p, hp, hb⟩

theorem HarnessJevRoute.Runs.tier (h : route.Runs bases c) : ∃ (i : Nat) (tier : HarnessTier),
    (eligibleTiers route bases {})[i]? = some tier ∧ tier.allows c.base = true ∧
      ∃ l ∈ tier.legs, l.provider = c.provider ∧ l.model = c.model := by
  obtain ⟨tier, htier, hallows, l, hl, hp, hm, hcompat⟩ := h.offered.compatible
  obtain ⟨i, hi⟩ := List.mem_iff_getElem?.mp htier
  unfold eligibleTiers
  refine ⟨i, _, by rw [List.getElem?_map, hi, Option.map_some], ?_⟩
  refine ⟨hallows, l, List.mem_filter.mpr ⟨hl, ?_⟩, hp, hm⟩
  refine List.any_eq_true.mpr ⟨c.base, h.candidate, ?_⟩
  rw [hallows, hcompat]
  rfl

theorem HarnessJevRoute.Runs.eligible (h : route.Runs bases c) :
    ∃ grid spec i tier leg, eligibleGrid route bases {} = some grid ∧ grid.Cell c.base spec i tier leg ∧
      leg.provider = c.provider ∧ leg.model = c.model := by
  have hbase := lookup_of_wireFor h.offered.wire
  obtain ⟨spec, hspec⟩ := Option.isSome_iff_exists.mp hbase
  obtain ⟨i, tier, hi, hallows, l, hl, hp, hm⟩ := h.tier
  have hgrid : eligibleGrid route bases {} = some ⟨bases, (eligibleProfiles route bases {}).filter (!·.bases.isEmpty),
      eligibleProfiles route bases {}, eligibleTiers route bases {}⟩ := by
    unfold eligibleGrid
    simp only [eligibleBases_any]
    rw [if_neg, if_pos]
    · refine List.any_eq_true.mpr ⟨tier, List.mem_of_getElem? hi, ?_⟩
      rw [List.isEmpty_eq_false_iff.mpr (List.ne_nil_of_mem hl)]
      rfl
    · simp only [Bool.or_eq_true, List.isEmpty_iff, not_or]
      exact ⟨List.ne_nil_of_mem (Assoc.mem_of_lookup hspec), List.ne_nil_of_mem h.candidate⟩
  refine ⟨_, spec, i, tier, l, hgrid, ⟨hspec, ?_, hi, hallows, hl, ?_⟩, hp, hm⟩
  · rcases h.tried with hnil | hnamed
    · exact .inl ⟨by simp [eligibleProfiles, hnil], Assoc.lookup_isSome.mp hbase⟩
    · obtain ⟨p, hp, hb⟩ := h.offered.profile hnamed
      obtain ⟨j, hj⟩ := List.mem_iff_getElem?.mp hp
      exact .inr ⟨j, p, hj, hb⟩
  · have hwire : preferredWire spec.wire c.provider c.model = some c.wire := by
      have := h.offered.wire
      unfold wireFor at this
      rw [hspec] at this
      exact this
    rw [hp, hm, hwire]
    rfl

theorem HarnessJevRoute.Runs.ordered (h : route.Runs bases c) : ∃ grid chosen start policy,
    eligibleGrid route bases {} = some grid ∧ ∃ l ∈ orderGrid grid route chosen start policy, l.cell = c := by
  obtain ⟨grid, spec, i, tier, leg, hgrid, hcell, hp, hm⟩ := h.eligible
  refine ⟨grid, none, 0, ⟨.client, false, none⟩, hgrid, ?_⟩
  obtain ⟨profile, wire, hraw⟩ := hcell.mem_gridCells route none 0 ⟨.client, false, none⟩
  obtain ⟨l, hl, hsame⟩ := firstOfCell_represents [] hraw
  have hmem : l ∈ orderGrid grid route none 0 ⟨.client, false, none⟩ := hl
  refine ⟨l, hmem, ?_⟩
  unfold PlannedHarnessLeg.sameCell at hsame
  simp only [Bool.and_eq_true, beq_iff_eq] at hsame
  obtain ⟨⟨⟨hb, -⟩, hp'⟩, hm'⟩ := hsame
  -- the wire is a function of the rest of the cell
  have hwire := (runs_of_orderGrid hgrid hmem).offered.wire
  have heq : l.cell = ⟨c.base, c.provider, c.model, l.wire⟩ := by
    unfold PlannedHarnessLeg.cell
    rw [hb, hp', hm']
    show HarnessCell.mk c.base leg.provider leg.model l.wire = _
    rw [hp, hm]
  rw [heq] at hwire ⊢
  have : some l.wire = some c.wire := hwire.symm.trans h.offered.wire
  rw [Option.some.inj this]

end

theorem dispatches_jev {t : HarnessRouteTable} {routeAlias : String} {route : HarnessJevRoute}
    (hr : t.jevRoute routeAlias = some route) (c : HarnessCell) :
    t.Dispatches routeAlias c ↔ route.Runs t.bases c := by
  unfold HarnessRouteTable.Dispatches
  rw [hr]
  constructor
  · intro h
    obtain ⟨grid, chosen, start, policy, hgrid, l, hl, rfl⟩ := h
    exact runs_of_orderGrid hgrid hl
  · exact fun h => h.ordered

/-! ## Static order -/

theorem flatBases_tried {route : HarnessJevRoute} {bases : BaseCatalog} {base : String}
    (h : base ∈ flatBases route bases) : route.profiles = [] ∨ route.Names base := by
  unfold flatBases at h
  split at h
  · rename_i hnil
    exact .inl (List.isEmpty_iff.mp hnil)
  · obtain ⟨i, -, hi⟩ := List.mem_flatMap.mp h
    cases hp : route.profiles[i]? with
    | none =>
      rw [hp] at hi
      cases hi
    | some p =>
      rw [hp] at hi
      exact .inr ⟨p, List.mem_of_getElem? hp, hi⟩

theorem runs_of_flatten {route : HarnessJevRoute} {bases : BaseCatalog} {sl : StaticHarnessLeg}
    (h : sl ∈ flattenJevToStatic route bases) : route.Runs bases sl.cell := by
  obtain ⟨⟨sl', n⟩, hmem, rfl⟩ := List.mem_map.mp h
  have hraw : sl' ∈ flatCells route bases := List.fst_mem_of_mem_zipIdx (List.mem_filter.mp hmem).1
  obtain ⟨base, hbase, hraw⟩ := List.mem_flatMap.mp hraw
  obtain ⟨i, -, hraw⟩ := List.mem_flatMap.mp hraw
  split at hraw
  · cases hraw
  · rename_i tier htier
    split at hraw
    · rename_i hallows
      obtain ⟨l, hl, hleg⟩ := List.mem_filterMap.mp hraw
      obtain ⟨wire, hwire, rfl⟩ := Option.map_eq_some_iff.mp hleg
      exact ⟨⟨hwire, tier, List.mem_of_getElem? htier, hallows, l, hl, rfl, rfl⟩, flatBases_tried hbase⟩
    · cases hraw

end SynapseGateway
