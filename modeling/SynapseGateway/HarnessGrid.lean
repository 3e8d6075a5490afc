import SynapseGateway.HarnessCells
import SynapseGateway.Lib.Firsts
import SynapseGateway.RoutePlannerSound

/-!
# The order of the harness grid

The grid is pruned on three axes and joined again. `order_grid_cells`: what
comes out are the eligible cells, base by base, tier by tier, each once.
-/

namespace SynapseGateway

open Firsts (firstOn firstOn_map firstOn_comp firstOn_filter firstOn_filterMap firstOn_flatMap firstOn_of_nodup)

/-! ## The eligible cells -/

/-- The base is one of a profile, or any without profiles; its tier and the
catalog's spec let it run the leg. -/
structure EligibleCell (route : HarnessJevRoute) (catalog : BaseCatalog) (reqs : TaskRequirements) (base : String)
    (i : Nat) (leg : ChainLeg) : Prop where
  named : route.profiles = [] ∨ route.Names base
  tier : ∃ t, route.tiers[i]? = some t ∧ leg ∈ t.legs ∧ t.allows base = true
  meets : ∃ spec, (base, spec) ∈ catalog ∧ reqs.Met base spec leg ∧
    (preferredWire spec.wire leg.provider leg.model).isSome = true

open Classical in
/-- The legs of tier `i` that can run on `base`, as configured. -/
noncomputable def eligibleLegs (route : HarnessJevRoute) (catalog : BaseCatalog) (reqs : TaskRequirements)
    (base : String) (i : Nat) : List ChainLeg :=
  ((route.tiers[i]?).map fun t => t.legs.filter fun l => decide (EligibleCell route catalog reqs base i l)).getD []

/-- The bases to try: of the chosen profile, of the default one, of the others. -/
def baseOrder (route : HarnessJevRoute) (catalog : BaseCatalog) (chosen : Option Nat) : List String :=
  if route.profiles.isEmpty then catalog.map (·.1)
  else
    let default := route.defaultProfileIndex
    let primary := chosen.getD default
    ([primary] ++ (if default != primary then [default] else []) ++
      (List.range route.profiles.length).filter fun i => i != primary && i != default).flatMap fun i =>
      ((route.profiles[i]?).map (·.bases)).getD []

/-! ## A cell, and the first leg of each -/

abbrev CellKey := String × Nat × String × String

def PlannedHarnessLeg.cellKey (l : PlannedHarnessLeg) : CellKey := (l.base, l.tier, l.leg.provider, l.leg.model)

/-- Where a planned leg comes from. -/
def PlannedHarnessLeg.spot (l : PlannedHarnessLeg) : String × Nat × ChainLeg := (l.base, l.tier, l.leg.unstamped)

theorem spot_eq {p : PlannedHarnessLeg} {base : String} {i : Nat} {l : ChainLeg} (h : p.spot = (base, i, l.unstamped)) :
    p.base = base ∧ p.tier = i ∧ p.leg.unstamped = l.unstamped ∧ p.leg.modelKey = l.modelKey := by
  simp only [PlannedHarnessLeg.spot, ChainLeg.unstamped, Prod.mk.injEq, ChainLeg.mk.injEq] at h
  obtain ⟨hb, hi, hprovider, hmodel, hregion, -⟩ := h
  refine ⟨hb, hi, ?_, ?_⟩
  · simp [ChainLeg.unstamped, hprovider, hmodel, hregion]
  · simp [ChainLeg.modelKey, hprovider, hmodel]

theorem sameCell_iff {a b : PlannedHarnessLeg} : a.sameCell b = true ↔ a.cellKey = b.cellKey := by
  simp [PlannedHarnessLeg.sameCell, PlannedHarnessLeg.cellKey, and_assoc]

theorem firstOfCell_eq (seen legs : List PlannedHarnessLeg) :
    firstOfCell seen legs = firstOn PlannedHarnessLeg.cellKey (seen.map PlannedHarnessLeg.cellKey) legs := by
  induction legs generalizing seen with
  | nil => rfl
  | cons l legs ih =>
    have hseen : seen.any (·.sameCell l) = true ↔ l.cellKey ∈ seen.map PlannedHarnessLeg.cellKey := by
      simp only [List.any_eq_true, sameCell_iff, List.mem_map]
    rw [firstOfCell, firstOn, if_congr hseen rfl rfl, ih, List.map_append]
    by_cases h : l.cellKey ∈ seen.map PlannedHarnessLeg.cellKey
    · rw [if_pos h, if_pos h]
      apply Firsts.firstOn_congr
      intro k
      rw [List.mem_append, List.map_singleton, List.mem_singleton]
      exact ⟨fun hk => hk.elim id fun e => e ▸ h, .inl⟩
    · rw [if_neg h, if_neg h]
      congr 1
      apply Firsts.firstOn_congr
      intro k
      rw [List.mem_append, List.map_singleton, List.mem_singleton, List.mem_cons]
      exact or_comm

section
variable {grid : EligibleGrid} {policy : LegPolicy}

/-- The planned legs of one base at one tier. -/
def cellsAt (grid : EligibleGrid) (policy : LegPolicy) (tried : Option Nat × String) (i : Nat) :
    List PlannedHarnessLeg :=
  match grid.bases.lookup tried.2, grid.tiers[i]? with
  | some spec, some tier =>
    if tier.allows tried.2 then
      tier.legs.filterMap fun l =>
        (preferredWire spec.wire l.provider l.model).map (cellLeg grid policy tried.1 tried.2 i tier l)
    else []
  | _, _ => []

/-- The legs of a tier of the grid that have a wire on the base. -/
def wiredLegs (grid : EligibleGrid) (base : String) (i : Nat) : List ChainLeg :=
  match grid.bases.lookup base, grid.tiers[i]? with
  | some spec, some tier =>
    if tier.allows base then tier.legs.filter fun l => (preferredWire spec.wire l.provider l.model).isSome else []
  | _, _ => []

theorem cellsFor_eq (start : Nat) (tried : Option Nat × String) :
    cellsFor grid start policy tried = (escalationOrder grid.tiers.length start).flatMap (cellsAt grid policy tried) := by
  unfold cellsFor baseCells cellsAt
  cases grid.bases.lookup tried.2 with
  | none => simp
  | some spec =>
    simp only [Option.elim_some]
    congr 1
    funext i
    cases grid.tiers[i]? with
    | none => rfl
    | some tier => rfl

theorem cellsAt_base {tried : Option Nat × String} {i : Nat} {l : PlannedHarnessLeg}
    (h : l ∈ cellsAt grid policy tried i) : l.base = tried.2 ∧ l.tier = i := by
  unfold cellsAt at h
  split at h
  · split at h
    · obtain ⟨leg, -, hl⟩ := List.mem_filterMap.mp h
      obtain ⟨wire, -, rfl⟩ := Option.map_eq_some_iff.mp hl
      exact ⟨rfl, rfl⟩
    · cases h
  · cases h

theorem cellsAt_keys {x y : Option Nat × String} (h : x.2 = y.2) (i : Nat) :
    (cellsAt grid policy x i).map PlannedHarnessLeg.cellKey = (cellsAt grid policy y i).map PlannedHarnessLeg.cellKey := by
  unfold cellsAt
  rw [h]
  split
  · split
    · rw [List.map_filterMap, List.map_filterMap]
      congr 1
      funext l
      rw [Option.map_map, Option.map_map]
      rfl
    · rfl
  · rfl

theorem firstOn_cellsAt (tried : Option Nat × String) (i : Nat) :
    (firstOn PlannedHarnessLeg.cellKey [] (cellsAt grid policy tried i)).map PlannedHarnessLeg.spot =
      (firstOn ChainLeg.modelKey [] (wiredLegs grid tried.2 i)).map fun l => (tried.2, i, l.unstamped) := by
  have hinj : Function.Injective fun k : String × String => ((tried.2, i, k.1, k.2) : CellKey) := by
    rintro ⟨a, b⟩ ⟨c, d⟩ h
    cases h
    rfl
  rw [← firstOn_comp hinj]
  unfold cellsAt wiredLegs
  split
  · split
    · rename_i spec tier _ _ _
      have hkey : ∀ (l : ChainLeg) p, (preferredWire spec.wire l.provider l.model).map
          (cellLeg grid policy tried.1 tried.2 i tier l) = some p →
          p.cellKey = (tried.2, i, l.modelKey.1, l.modelKey.2) ∧ p.spot = (tried.2, i, l.unstamped) := by
        intro l p hp
        obtain ⟨wire, -, rfl⟩ := Option.map_eq_some_iff.mp hp
        exact ⟨rfl, rfl⟩
      rw [firstOn_filterMap (fun l p hp => (hkey l p hp).1) (fun l p hp => (hkey l p hp).2)]
      simp only [Option.isSome_map, List.map_nil]
    · rfl
  · rfl

/-- The order base by base and tier by tier, over the bases as they are tried. -/
theorem orderGrid_spots (route : HarnessJevRoute) (chosen : Option Nat) (start : Nat) :
    (orderGrid grid route chosen start policy).map PlannedHarnessLeg.spot =
      (firstOn id [] ((profileBases grid route chosen).map (·.2))).flatMap fun base =>
        (escalationOrder grid.tiers.length start).flatMap fun i =>
          (firstOn ChainLeg.modelKey [] (wiredLegs grid base i)).map fun l => (base, i, l.unstamped) := by
  have htiers : ∀ tried, firstOn PlannedHarnessLeg.cellKey [] (cellsFor grid start policy tried) =
      (escalationOrder grid.tiers.length start).flatMap fun i =>
        firstOn PlannedHarnessLeg.cellKey [] (cellsAt grid policy tried i) := by
    intro tried
    have hids : firstOn id [] (escalationOrder grid.tiers.length start) = escalationOrder grid.tiers.length start :=
      firstOn_of_nodup (by rw [List.map_id]; exact escalationOrder_nodup _ _)
    rw [cellsFor_eq, @firstOn_flatMap _ _ _ _ _ _ _ id _ fun k : CellKey => k.2.1, hids]
    · exact fun i l hl => (cellsAt_base hl).2
    · rintro i _ rfl
      rfl
  have hbases : orderGrid grid route chosen start policy =
      (firstOn (fun x => x.2) [] (profileBases grid route chosen)).flatMap fun x =>
        firstOn PlannedHarnessLeg.cellKey [] (cellsFor grid start policy x) := by
    unfold orderGrid
    rw [firstOfCell_eq, gridCells_eq]
    apply firstOn_flatMap fun k : CellKey => k.1
    · intro x l hl
      rw [cellsFor_eq] at hl
      obtain ⟨i, -, hl⟩ := List.mem_flatMap.mp hl
      exact (cellsAt_base hl).1
    · intro x y hxy
      rw [cellsFor_eq, cellsFor_eq, List.map_flatMap, List.map_flatMap]
      congr 1
      funext i
      exact cellsAt_keys hxy i
  rw [hbases, firstOn_map, List.map_flatMap, List.flatMap_map]
  congr 1
  funext x
  rw [htiers, List.map_flatMap]
  congr 1
  funext i
  exact firstOn_cellsAt x i

end

/-! ## The product of the filters -/

section
variable {route : HarnessJevRoute} {catalog : BaseCatalog} {reqs : TaskRequirements} {base : String} {i : Nat}
  {leg : ChainLeg}

theorem TaskRequirements.ok_iff_met {spec : BaseSpec} :
    (reqs.baseOk base spec = true ∧ reqs.legOk spec leg = true) ↔
    (reqs.Met base spec leg ∧ (preferredWire spec.wire leg.provider leg.model).isSome = true) := by
  constructor
  · intro h
    refine ⟨TaskRequirements.met_of_ok h.1 h.2, ?_⟩
    have hleg := h.2
    unfold TaskRequirements.legOk at hleg
    rw [Bool.and_eq_true] at hleg
    exact hleg.2
  · intro h
    obtain ⟨hmet, hwire⟩ := h
    unfold TaskRequirements.baseOk TaskRequirements.legOk
    simp only [Bool.and_eq_true, Bool.or_eq_true, Bool.not_eq_true', Option.all_eq_true, List.all_eq_true,
      List.contains_iff_mem, beq_iff_eq]
    refine ⟨⟨⟨⟨⟨?_, ?_⟩, ?_⟩, hmet.transports⟩, ?_⟩, ⟨⟨?_, ?_⟩, ?_⟩, hwire⟩
    · exact fun b hb => (hmet.pinned b hb).symm
    · by_cases h : reqs.needsSkills = true
      · exact .inr (hmet.skills h)
      · exact .inl (Bool.not_eq_true _ ▸ h)
    · by_cases h : reqs.needsEnvironment = true
      · exact .inr (hmet.environment h)
      · exact .inl (Bool.not_eq_true _ ▸ h)
    · by_cases h : reqs.needsHardToolBlock = true
      · exact .inr (hmet.hardToolBlock h)
      · exact .inl (Bool.not_eq_true _ ▸ h)
    · by_cases h : reqs.needsVertexNative = true
      · exact .inr (hmet.vertexNative h)
      · exact .inl (Bool.not_eq_true _ ▸ h)
    · by_cases h : reqs.needsVision = true
      · exact .inr (hmet.vision h)
      · exact .inl (Bool.not_eq_true _ ▸ h)
    · exact fun m hm => (hmet.model m hm).symm

theorem legCompatible_iff (hcat : (catalog.map (·.1)).Nodup) :
    legCompatibleWithBase (eligibleBases catalog reqs) reqs base leg = true ↔
      ∃ spec, (base, spec) ∈ catalog ∧ reqs.Met base spec leg ∧
        (preferredWire spec.wire leg.provider leg.model).isSome = true := by
  have hsub : ((eligibleBases catalog reqs).map (·.1)).Nodup := hcat.sublist (List.filter_sublist.map _)
  unfold legCompatibleWithBase
  rw [Option.any_eq_true]
  constructor
  · intro h
    obtain ⟨spec, hspec, hleg⟩ := h
    obtain ⟨hmem, hbase⟩ := List.mem_filter.mp (Assoc.mem_of_lookup hspec)
    exact ⟨spec, hmem, TaskRequirements.ok_iff_met.mp ⟨hbase, hleg⟩⟩
  · intro h
    obtain ⟨spec, hmem, hmet⟩ := h
    obtain ⟨hbase, hleg⟩ := TaskRequirements.ok_iff_met.mpr hmet
    exact ⟨spec, Assoc.lookup_of_mem hsub (List.mem_filter.mpr ⟨hmem, hbase⟩), hleg⟩

theorem eligibleCell_iff (hcat : (catalog.map (·.1)).Nodup) : EligibleCell route catalog reqs base i leg ↔
    (route.profiles = [] ∨ route.Names base) ∧ (∃ t, route.tiers[i]? = some t ∧ leg ∈ t.legs ∧ t.allows base = true) ∧
      legCompatibleWithBase (eligibleBases catalog reqs) reqs base leg = true := by
  rw [legCompatible_iff hcat]
  exact ⟨fun h => ⟨h.named, h.tier, h.meets⟩, fun h => ⟨h.1, h.2.1, h.2.2⟩⟩

open Classical in
theorem mem_eligibleLegs :
    leg ∈ eligibleLegs route catalog reqs base i ↔ EligibleCell route catalog reqs base i leg := by
  unfold eligibleLegs
  constructor
  · intro h
    cases ht : route.tiers[i]? with
    | none =>
      rw [ht] at h
      cases h
    | some t =>
      rw [ht] at h
      exact of_decide_eq_true (List.mem_filter.mp h).2
  · intro h
    obtain ⟨t, ht, hleg, -⟩ := h.tier
    rw [ht]
    exact List.mem_filter.mpr ⟨hleg, decide_eq_true h⟩

open Classical in
theorem eligibleLegs_eq {t : HarnessTier} (ht : route.tiers[i]? = some t) {p : ChainLeg → Bool}
    (h : ∀ l ∈ t.legs, p l = true ↔ EligibleCell route catalog reqs base i l) :
    eligibleLegs route catalog reqs base i = t.legs.filter p := by
  unfold eligibleLegs
  rw [ht]
  apply List.filter_congr
  intro l hl
  rw [Bool.eq_iff_iff, h l hl]
  exact ⟨of_decide_eq_true, fun h => decide_eq_true h⟩

theorem EligibleCell.candidate (hcat : (catalog.map (·.1)).Nodup) (h : EligibleCell route catalog reqs base i leg) :
    base ∈ candidateBases route (eligibleBases catalog reqs) reqs := by
  obtain ⟨hnamed, ⟨t, ht, hleg, hallows⟩, hcompat⟩ := (eligibleCell_iff hcat).mp h
  have hlookup : ((eligibleBases catalog reqs).lookup base).isSome = true := by
    obtain ⟨spec, hspec, -⟩ := (Option.any_eq_true _ _).mp hcompat
    rw [hspec]
    rfl
  unfold candidateBases
  by_cases hnil : route.profiles.isEmpty = true
  · rw [if_pos hnil]
    exact Assoc.lookup_isSome.mp hlookup
  · rw [if_neg hnil]
    obtain ⟨p, hp, hb⟩ := hnamed.resolve_left fun h => hnil (List.isEmpty_iff.mpr h)
    refine List.mem_flatMap.mpr ⟨_, List.mem_map_of_mem hp, List.mem_filter.mpr ⟨hb, ?_⟩⟩
    rw [hlookup, Bool.true_and]
    refine List.any_eq_true.mpr ⟨t, List.mem_of_getElem? ht, ?_⟩
    rw [hallows, Bool.true_and]
    exact List.any_eq_true.mpr ⟨leg, hleg, hcompat⟩

theorem candidate_known (h : base ∈ candidateBases route (eligibleBases catalog reqs) reqs) :
    (route.profiles = [] ∨ route.Names base) ∧ ∃ spec, (eligibleBases catalog reqs).lookup base = some spec := by
  unfold candidateBases at h
  rw [← Option.isSome_iff_exists]
  by_cases hnil : route.profiles.isEmpty = true
  · rw [if_pos hnil] at h
    exact ⟨.inl (List.isEmpty_iff.mp hnil), Assoc.lookup_isSome.mpr h⟩
  · rw [if_neg hnil] at h
    obtain ⟨p, hp, hb⟩ := List.mem_flatMap.mp h
    obtain ⟨p', hp', rfl⟩ := List.mem_map.mp hp
    obtain ⟨hb, hkept⟩ := List.mem_filter.mp hb
    rw [Bool.and_eq_true] at hkept
    exact ⟨.inr ⟨p', hp', hb⟩, hkept.1⟩

/-- What a leg needs of a base beside the wire does not depend on the base. -/
theorem legOk_of_wire {spec spec' : BaseSpec} (h : reqs.legOk spec leg = true)
    (hwire : (preferredWire spec'.wire leg.provider leg.model).isSome = true) : reqs.legOk spec' leg = true := by
  unfold TaskRequirements.legOk at h ⊢
  rw [Bool.and_eq_true] at h ⊢
  exact ⟨h.1, hwire⟩

variable {grid : EligibleGrid}

/-- Some candidate can run the leg, and the wire tells whether this one can. -/
theorem wired_iff (hcat : (catalog.map (·.1)).Nodup)
    (hbase : base ∈ candidateBases route (eligibleBases catalog reqs) reqs) {spec : BaseSpec}
    (hspec : (eligibleBases catalog reqs).lookup base = some spec) {t : HarnessTier} (ht : route.tiers[i]? = some t)
    (hallows : t.allows base = true) {l : ChainLeg} (hl : l ∈ t.legs) :
    ((preferredWire spec.wire l.provider l.model).isSome &&
        (candidateBases route (eligibleBases catalog reqs) reqs).any fun b =>
          t.allows b && legCompatibleWithBase (eligibleBases catalog reqs) reqs b l) = true ↔
      EligibleCell route catalog reqs base i l := by
  rw [Bool.and_eq_true, eligibleCell_iff hcat, List.any_eq_true]
  constructor
  · intro h
    obtain ⟨hwire, b, -, hb⟩ := h
    rw [Bool.and_eq_true] at hb
    obtain ⟨spec', -, hok⟩ := (Option.any_eq_true _ _).mp hb.2
    exact ⟨(candidate_known hbase).1, ⟨t, ht, hl, hallows⟩,
      (Option.any_eq_true _ _).mpr ⟨spec, hspec, legOk_of_wire hok hwire⟩⟩
  · intro h
    obtain ⟨-, -, hcompat⟩ := h
    obtain ⟨spec', hspec', hok⟩ := (Option.any_eq_true _ _).mp hcompat
    rw [hspec] at hspec'
    cases hspec'
    unfold TaskRequirements.legOk at hok
    rw [Bool.and_eq_true] at hok
    refine ⟨hok.2, base, hbase, ?_⟩
    rw [hallows, hcompat]
    rfl

theorem wiredLegs_eligible (hcat : (catalog.map (·.1)).Nodup) (hgrid : eligibleGrid route catalog reqs = some grid)
    (hbase : base ∈ candidateBases route (eligibleBases catalog reqs) reqs) :
    wiredLegs grid base i = eligibleLegs route catalog reqs base i := by
  obtain ⟨hbases, -, htiers⟩ := eligibleGrid_ok hgrid
  obtain ⟨-, spec, hspec⟩ := candidate_known hbase
  rw [hbases] at htiers
  unfold wiredLegs
  rw [hbases, htiers, hspec, eligibleTiers, List.getElem?_map]
  cases ht : route.tiers[i]? with
  | none =>
    unfold eligibleLegs
    rw [ht]
    rfl
  | some t =>
    have hsame : ∀ legs, HarnessTier.allows { t with legs := legs } base = t.allows base := fun _ => rfl
    simp only [Option.map_some]
    rw [hsame]
    by_cases hallows : t.allows base = true
    · rw [if_pos hallows, List.filter_filter]
      symm
      apply eligibleLegs_eq ht
      exact fun l hl => wired_iff hcat hbase hspec ht hallows hl
    · rw [if_neg hallows, eq_comm, List.eq_nil_iff_forall_not_mem]
      intro l hl
      obtain ⟨t', ht', -, hallowed⟩ := (mem_eligibleLegs.mp hl).tier
      rw [ht] at ht'
      cases ht'
      exact hallows hallowed

theorem eligibleLegs_of_not_candidate (hcat : (catalog.map (·.1)).Nodup)
    (hbase : base ∉ candidateBases route (eligibleBases catalog reqs) reqs) :
    eligibleLegs route catalog reqs base i = [] := by
  rw [List.eq_nil_iff_forall_not_mem]
  exact fun l hl => hbase ((mem_eligibleLegs.mp hl).candidate hcat)

theorem candidateBases_axisless (hcat : (catalog.map (·.1)).Nodup) (hnil : route.profiles.isEmpty = true) :
    (eligibleBases catalog reqs).map (·.1) = (catalog.map (·.1)).filter
      fun b => decide (b ∈ candidateBases route (eligibleBases catalog reqs) reqs) := by
  rw [candidateBases, if_pos hnil, List.filter_map, eligibleBases]
  show List.map _ _ = _
  congr 1
  apply List.filter_congr
  rintro ⟨b, spec⟩ hmem
  rw [Bool.eq_iff_iff, Function.comp_apply, decide_eq_true_iff, List.mem_map]
  constructor
  · exact fun h => ⟨(b, spec), List.mem_filter.mpr ⟨hmem, h⟩, rfl⟩
  · rintro ⟨⟨b', spec'⟩, hmem', rfl⟩
    obtain ⟨hmem', hok⟩ := List.mem_filter.mp hmem'
    have hsame := (Assoc.lookup_of_mem hcat hmem').symm.trans (Assoc.lookup_of_mem hcat hmem)
    cases hsame
    exact hok

theorem candidateBases_profile (hnil : ¬ route.profiles.isEmpty = true) (j : Nat) :
    (((eligibleProfiles route (eligibleBases catalog reqs) reqs)[j]?).map (·.bases)).getD [] =
      (((route.profiles[j]?).map (·.bases)).getD []).filter
        fun b => decide (b ∈ candidateBases route (eligibleBases catalog reqs) reqs) := by
  rw [candidateBases, if_neg hnil, eligibleProfiles, List.getElem?_map]
  cases hp : route.profiles[j]? with
  | none => rfl
  | some p =>
    apply List.filter_congr
    intro b hb
    rw [Bool.eq_iff_iff, decide_eq_true_iff, List.mem_flatMap]
    constructor
    · exact fun h => ⟨_, List.mem_map_of_mem (List.mem_of_getElem? hp), List.mem_filter.mpr ⟨hb, h⟩⟩
    · rintro ⟨q, hq, hbq⟩
      obtain ⟨q', -, rfl⟩ := List.mem_map.mp hq
      exact (List.mem_filter.mp hbq).2

/-- The bases tried are the candidates among those of the profiles. -/
theorem profileBases_eq (hcat : (catalog.map (·.1)).Nodup) (hgrid : eligibleGrid route catalog reqs = some grid)
    (chosen : Option Nat) : (profileBases grid route chosen).map (·.2) = (baseOrder route catalog chosen).filter
      fun b => decide (b ∈ candidateBases route (eligibleBases catalog reqs) reqs) := by
  obtain ⟨hbases, hprofiles, -⟩ := eligibleGrid_ok hgrid
  rw [hbases] at hprofiles
  have hempty : grid.profiles.isEmpty = route.profiles.isEmpty := by
    rw [hprofiles, eligibleProfiles, List.isEmpty_map]
  have hlen : grid.profiles.length = route.profiles.length := by
    rw [hprofiles, eligibleProfiles, List.length_map]
  unfold profileBases baseOrder
  rw [hempty]
  by_cases hnil : route.profiles.isEmpty = true
  · rw [if_pos hnil, if_pos hnil, List.map_map, hbases]
    exact candidateBases_axisless hcat hnil
  · rw [if_neg hnil, if_neg hnil]
    simp only [hlen, List.map_flatMap, List.filter_flatMap, List.map_map]
    congr 1
    funext j
    rw [hprofiles, ← candidateBases_profile hnil j]
    exact List.map_id _

theorem eligibleGrid_some_iff (hcat : (catalog.map (·.1)).Nodup) :
    (∃ grid, eligibleGrid route catalog reqs = some grid) ↔
    ∃ base i leg, EligibleCell route catalog reqs base i leg := by
  constructor
  · intro h
    obtain ⟨grid, hgrid⟩ := h
    obtain ⟨base, spec, i, tier, leg, hcell⟩ := eligibleGrid_cell hgrid
    obtain ⟨profile, htried⟩ := mem_profileBases route none hcell.tried
    have hbase := List.mem_map_of_mem (f := fun x => x.2) htried
    rw [profileBases_eq hcat hgrid] at hbase
    have hwired : leg ∈ wiredLegs grid base i := by
      unfold wiredLegs
      rw [hcell.base_spec, hcell.tier_at]
      simp only [hcell.allowed, if_true]
      exact List.mem_filter.mpr ⟨hcell.leg_mem, hcell.wired⟩
    rw [wiredLegs_eligible hcat hgrid (of_decide_eq_true (List.mem_filter.mp hbase).2)] at hwired
    exact ⟨base, i, leg, mem_eligibleLegs.mp hwired⟩
  · intro h
    obtain ⟨base, i, leg, hcell⟩ := h
    have hcand := hcell.candidate hcat
    obtain ⟨-, ⟨t, ht, hleg, hallows⟩, hcompat⟩ := (eligibleCell_iff hcat).mp hcell
    obtain ⟨-, spec, hspec⟩ := candidate_known hcand
    unfold eligibleGrid
    simp only
    rw [if_neg, if_pos]
    · exact ⟨_, rfl⟩
    · refine List.any_eq_true.mpr ⟨_, List.mem_map_of_mem (List.mem_of_getElem? ht), ?_⟩
      rw [Bool.not_eq_true', List.isEmpty_eq_false_iff]
      refine List.ne_nil_of_mem (List.mem_filter.mpr ⟨hleg, List.any_eq_true.mpr ⟨base, hcand, ?_⟩⟩)
      rw [hallows, hcompat]
      rfl
    · rw [Bool.or_eq_true, List.isEmpty_iff, List.isEmpty_iff, not_or]
      exact ⟨List.ne_nil_of_mem (Assoc.mem_of_lookup hspec), List.ne_nil_of_mem hcand⟩

theorem eligibleGrid_none_iff (hcat : (catalog.map (·.1)).Nodup) :
    eligibleGrid route catalog reqs = none ↔ ∀ base i leg, ¬ EligibleCell route catalog reqs base i leg := by
  have h := @eligibleGrid_some_iff route catalog reqs hcat
  rw [← Option.isSome_iff_exists, ← not_iff_not, Option.not_isSome_iff_eq_none] at h
  rw [h]
  push Not
  rfl

/-! ## The order -/

/-- The tiers of a base as they are tried, the eligible legs of each as
configured, the first of each provider and model. -/
noncomputable def baseSpots (route : HarnessJevRoute) (catalog : BaseCatalog) (reqs : TaskRequirements) (start : Nat)
    (base : String) : List (String × Nat × ChainLeg) :=
  (escalationOrder route.tiers.length start).flatMap fun i =>
    (firstOn ChainLeg.modelKey [] (eligibleLegs route catalog reqs base i)).map fun l => (base, i, l.unstamped)

theorem orderGrid_layout (hcat : (catalog.map (·.1)).Nodup) (hgrid : eligibleGrid route catalog reqs = some grid)
    (chosen : Option Nat) (start : Nat) (policy : LegPolicy) :
    (orderGrid grid route chosen start policy).map PlannedHarnessLeg.spot =
      (firstOn id [] (baseOrder route catalog chosen)).flatMap (baseSpots route catalog reqs start) := by
  have htiers : grid.tiers.length = route.tiers.length := by
    rw [(eligibleGrid_ok hgrid).2.2, eligibleTiers, List.length_map]
  rw [orderGrid_spots, profileBases_eq hcat hgrid, htiers]
  have hfirst := @firstOn_filter _ _ _ id [] (baseOrder route catalog chosen) fun b =>
    decide (b ∈ candidateBases route (eligibleBases catalog reqs) reqs)
  simp only [id_eq] at hfirst
  rw [hfirst]
  apply Firsts.flatMap_filter
  · intro b hb
    unfold baseSpots
    simp only [wiredLegs_eligible hcat hgrid (of_decide_eq_true hb)]
  · intro b hb
    rw [decide_eq_true_iff] at hb
    unfold baseSpots
    simp [eligibleLegs_of_not_candidate hcat hb, firstOn]

theorem EligibleCell.ordered (h : EligibleCell route catalog reqs base i leg) (chosen : Option Nat) :
    base ∈ baseOrder route catalog chosen := by
  unfold baseOrder
  by_cases hnil : route.profiles.isEmpty = true
  · rw [if_pos hnil]
    obtain ⟨spec, hmem, -⟩ := h.meets
    exact List.mem_map_of_mem hmem
  · rw [if_neg hnil]
    obtain ⟨p, hp, hb⟩ := h.named.resolve_left fun h => hnil (List.isEmpty_iff.mpr h)
    obtain ⟨j, hj⟩ := List.mem_iff_getElem?.mp hp
    have hlt : j < route.profiles.length := (List.getElem?_eq_some_iff.mp hj).1
    refine List.mem_flatMap.mpr ⟨j, ?_, by rw [hj]; exact hb⟩
    by_cases hprimary : j = chosen.getD route.defaultProfileIndex
    · simp [hprimary]
    by_cases hdefault : j = route.defaultProfileIndex
    · subst hdefault
      simp [hprimary]
    · simp [hprimary, hdefault, hlt]

theorem mem_baseSpots {start : Nat} {spot : String × Nat × ChainLeg} : spot ∈ baseSpots route catalog reqs start base ↔
    ∃ i l, l ∈ firstOn ChainLeg.modelKey [] (eligibleLegs route catalog reqs base i) ∧ spot = (base, i, l.unstamped) := by
  unfold baseSpots
  rw [List.mem_flatMap]
  constructor
  · intro h
    obtain ⟨i, -, hspot⟩ := h
    obtain ⟨l, hl, rfl⟩ := List.mem_map.mp hspot
    exact ⟨i, l, hl, rfl⟩
  · intro h
    obtain ⟨i, l, hl, rfl⟩ := h
    obtain ⟨t, ht, -⟩ := (mem_eligibleLegs.mp (Firsts.firstOn_sublist.mem hl)).tier
    exact ⟨i, mem_escalationOrder.mpr (List.getElem?_eq_some_iff.mp ht).1, List.mem_map_of_mem hl⟩

end

/-- A leg for each eligible cell, once, and for nothing else; the bases in the
order they are to be tried, and on each its tiers. -/
structure OrdersCells (route : HarnessJevRoute) (catalog : BaseCatalog) (reqs : TaskRequirements) (chosen : Option Nat)
    (start : Nat) (order : List PlannedHarnessLeg) : Prop where
  complete : ∀ base i leg, EligibleCell route catalog reqs base i leg →
    (base, i, leg.provider, leg.model) ∈ order.map PlannedHarnessLeg.cellKey
  sound : ∀ l ∈ order, ∃ leg, EligibleCell route catalog reqs l.base l.tier leg ∧ l.leg.unstamped = leg.unstamped
  once : (order.map PlannedHarnessLeg.cellKey).Nodup
  layout : order.map PlannedHarnessLeg.spot =
    (firstOn id [] (baseOrder route catalog chosen)).flatMap (baseSpots route catalog reqs start)

theorem order_grid_cells (route : HarnessJevRoute) (catalog : BaseCatalog) (reqs : TaskRequirements)
    (chosen : Option Nat) (start : Nat) (policy : LegPolicy) (hcat : (catalog.map (·.1)).Nodup) :
    (eligibleGrid route catalog reqs = none ↔ ∀ base i leg, ¬ EligibleCell route catalog reqs base i leg) ∧
      ∀ grid, eligibleGrid route catalog reqs = some grid →
        OrdersCells route catalog reqs chosen start (orderGrid grid route chosen start policy) := by
  refine ⟨eligibleGrid_none_iff hcat, ?_⟩
  intro grid hgrid
  have hlayout := orderGrid_layout hcat hgrid chosen start policy
  refine { complete := ?_, sound := ?_, once := ?_, layout := hlayout }
  · intro base i leg hcell
    have hkey : leg.modelKey ∈
        (firstOn ChainLeg.modelKey [] (eligibleLegs route catalog reqs base i)).map ChainLeg.modelKey :=
      Firsts.mem_keys_firstOn.mpr ⟨List.mem_map_of_mem (mem_eligibleLegs.mpr hcell), List.not_mem_nil⟩
    obtain ⟨l, hl, hmodel⟩ := List.mem_map.mp hkey
    have hbase : base ∈ firstOn id [] (baseOrder route catalog chosen) := by
      have := @Firsts.mem_keys_firstOn _ _ _ id [] (baseOrder route catalog chosen) base
      rw [List.map_id, List.map_id] at this
      exact this.mpr ⟨hcell.ordered chosen, List.not_mem_nil⟩
    have hspot : (base, i, l.unstamped) ∈ (orderGrid grid route chosen start policy).map PlannedHarnessLeg.spot := by
      rw [hlayout]
      exact List.mem_flatMap.mpr ⟨base, hbase, mem_baseSpots.mpr ⟨i, l, hl, rfl⟩⟩
    obtain ⟨p, hp, hspot⟩ := List.mem_map.mp hspot
    refine List.mem_map.mpr ⟨p, hp, ?_⟩
    obtain ⟨rfl, rfl, -, hplanned⟩ := spot_eq hspot
    obtain ⟨hprovider, hname⟩ := Prod.mk.inj (hplanned.trans hmodel)
    rw [← hprovider, ← hname]
    rfl
  · intro p hp
    have hspot := List.mem_map_of_mem (f := PlannedHarnessLeg.spot) hp
    rw [hlayout] at hspot
    obtain ⟨base, -, hspot⟩ := List.mem_flatMap.mp hspot
    obtain ⟨i, l, hl, hspot⟩ := mem_baseSpots.mp hspot
    obtain ⟨rfl, rfl, hleg, -⟩ := spot_eq hspot
    exact ⟨l, mem_eligibleLegs.mp (Firsts.firstOn_sublist.mem hl), hleg⟩
  · unfold orderGrid
    rw [firstOfCell_eq]
    exact Firsts.nodup_keys_firstOn

/-- One model from two regions, then a harder tier. -/
def twoRegions : HarnessJevRoute where
  router := { defaultTier := "easy" }
  profiles := []
  tiers := [
    { name := "easy", description := "edits", effort := .low, legs := [
      { provider := "vertex", model := "claude-sonnet-5", region := some "us-east5" },
      { provider := "vertex", model := "claude-sonnet-5", region := some "europe-west1" }] },
    { name := "hard", description := "design", effort := .high, legs := [
      { provider := "vertex", model := "claude-opus-5" }] }]

def claudeOnly : BaseCatalog := [("claude", { wire := [.vertexAnthropic] })]

/-- The loader builds the route, and the second region is an eligible cell that is not planned. -/
theorem second_region_unplanned :
    buildJevRoute "code" {
        jevRouter := some { defaultTier := "easy" }
        tiers := some (twoRegions.tiers.map fun t =>
          { name := t.name, description := t.description, effort := t.effort, legs := t.legs.map ModelTarget.direct }) }
      claudeOnly ⟨[], [], [], []⟩ = .ok twoRegions ∧
    EligibleCell twoRegions claudeOnly {} "claude" 0
      { provider := "vertex", model := "claude-sonnet-5", region := some "europe-west1" } ∧
    ∃ grid, eligibleGrid twoRegions claudeOnly {} = some grid ∧
      ∀ l ∈ orderGrid grid twoRegions none 0 ⟨.tier false, false, none⟩, l.leg.region ≠ some "europe-west1" := by
  refine ⟨by decide +kernel, ⟨.inl rfl, ⟨_, rfl, by simp, rfl⟩, _, List.mem_singleton_self _, ?_, by decide⟩, _, rfl,
    by decide⟩
  constructor <;> simp

theorem order_grid_cells_regions : ∃ grid, eligibleGrid twoRegions claudeOnly {} = some grid ∧
    OrdersCells twoRegions claudeOnly {} none 1 (orderGrid grid twoRegions none 1 ⟨.tier false, false, none⟩) :=
  ⟨_, rfl, (order_grid_cells twoRegions claudeOnly {} none 1 ⟨.tier false, false, none⟩ (by decide)).2 _ rfl⟩

end SynapseGateway
