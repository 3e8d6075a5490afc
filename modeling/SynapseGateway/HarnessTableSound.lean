import SynapseGateway.HarnessCells

/-!
# Loaded and pruned harness tables

What a pruned grid runs, and what loading makes sure of and pruning keeps: profiles
with names of their own over known bases, none or at least two, and static legs that
are cells of the grid.
-/

namespace SynapseGateway

/-! ## What a pruned route runs -/

section
variable {route k : HarnessJevRoute} {bases : BaseCatalog} {drop : Finset String}

theorem pruneJevRoute_some (h : pruneJevRoute route bases drop = some k) : ∃ default,
    prunedProfiles route bases = some (k.profiles, default) ∧
      k.tiers = (keptHarnessTiers route bases (activeBases k.profiles bases) drop).map (·.2) ∧
      2 ≤ (keptHarnessTiers route bases (activeBases k.profiles bases) drop).length := by
  unfold pruneJevRoute at h
  split at h
  · cases h
  split at h
  · cases h
  · rename_i profiles default hprofiles
    simp only at h
    split at h
    · cases h
    · rename_i hlen
      cases h
      exact ⟨default, hprofiles, rfl, Nat.le_of_not_lt hlen⟩

theorem mem_keptHarnessTiers {active : List String} {tier : HarnessTier} :
    tier ∈ (keptHarnessTiers route bases active drop).map (·.2) ↔
      (∃ t ∈ route.tiers, tier = t.pruned bases active drop) ∧ tier.bases ≠ some [] ∧ tier.legs ≠ [] := by
  unfold keptHarnessTiers
  simp only [List.mem_map, List.mem_filter, Prod.exists, Bool.and_eq_true, bne_iff_ne, Bool.not_eq_true',
    List.isEmpty_eq_false_iff]
  constructor
  · intro h
    obtain ⟨i, t, ⟨⟨u, j, hu, heq⟩, hkeep⟩, rfl⟩ := h
    cases heq
    exact ⟨⟨u, List.fst_mem_of_mem_zipIdx hu, rfl⟩, hkeep⟩
  · intro h
    obtain ⟨⟨t, ht, rfl⟩, hkeep⟩ := h
    obtain ⟨i, hi⟩ := List.mem_iff_getElem?.mp ht
    exact ⟨i, _, ⟨⟨t, i, List.mk_mem_zipIdx_iff_getElem?.mpr hi, rfl⟩, hkeep⟩, rfl⟩

theorem HarnessTier.pruned_allows (t : HarnessTier) (active : List String) (drop : Finset String) {base : String}
    (hbase : (bases.lookup base).isSome = true) :
    (t.pruned bases active drop).allows base = t.allows base := by
  unfold HarnessTier.allows HarnessTier.pruned
  cases t.bases with
  | none => rfl
  | some tb =>
    simp only [Option.map_some, Option.all_some]
    rw [Bool.eq_iff_iff, List.contains_iff_mem, List.contains_iff_mem, List.mem_filter]
    exact ⟨fun h => h.1, fun h => ⟨h, hbase⟩⟩

theorem HarnessTier.mem_pruned_legs {t : HarnessTier} {active : List String} {l : ChainLeg} :
    l ∈ (t.pruned bases active drop).legs ↔ l ∈ t.legs ∧ l.provider ∉ drop ∧
      ∃ b ∈ active, (t.pruned bases active drop).allows b = true ∧ (wireFor bases b l.provider l.model).isSome = true := by
  show l ∈ List.filter _ _ ↔ _
  rw [List.mem_filter]
  simp only [Bool.and_eq_true, decide_eq_true_eq, List.any_eq_true]
  rfl

theorem offers_kept {active : List String} {c : HarnessCell}
    (htiers : k.tiers = (keptHarnessTiers route bases active drop).map (·.2)) (hactive : c.base ∈ active) :
    k.Offers bases c ↔ route.Offers bases c ∧ c.provider ∉ drop := by
  constructor
  · intro h
    obtain ⟨hwire, tier, htier, hallows, l, hl, hp, hm⟩ := h
    rw [htiers] at htier
    obtain ⟨⟨t, ht, rfl⟩, -⟩ := mem_keptHarnessTiers.mp htier
    rw [t.pruned_allows active drop (lookup_of_wireFor hwire)] at hallows
    obtain ⟨hl, hdrop, -⟩ := HarnessTier.mem_pruned_legs.mp hl
    exact ⟨⟨hwire, t, ht, hallows, l, hl, hp, hm⟩, hp ▸ hdrop⟩
  · intro h
    obtain ⟨⟨hwire, t, ht, hallows, l, hl, hp, hm⟩, hdrop⟩ := h
    have hallows' := (t.pruned_allows active drop (lookup_of_wireFor hwire)).trans hallows
    have hleg : l ∈ (t.pruned bases active drop).legs := by
      refine HarnessTier.mem_pruned_legs.mpr ⟨hl, hp ▸ hdrop, c.base, hactive, hallows', ?_⟩
      rw [hp, hm, hwire]
      rfl
    refine ⟨hwire, t.pruned bases active drop, ?_, hallows', l, hleg, hp, hm⟩
    rw [htiers]
    refine mem_keptHarnessTiers.mpr ⟨⟨t, ht, rfl⟩, ?_, List.ne_nil_of_mem hleg⟩
    intro hnil
    unfold HarnessTier.allows at hallows'
    rw [hnil] at hallows'
    cases hallows'

theorem names_survivingProfiles {base : String} (hbase : (bases.lookup base).isSome = true) :
    (∃ p ∈ survivingProfiles route bases, base ∈ p.bases) ↔ route.Names base := by
  constructor
  · intro h
    obtain ⟨p, hp, hb⟩ := h
    obtain ⟨q, hq, rfl⟩ := List.mem_map.mp (List.mem_filter.mp hp).1
    exact ⟨q, hq, (List.mem_filter.mp hb).1⟩
  · intro h
    obtain ⟨p, hp, hb⟩ := h
    have hmem : base ∈ p.bases.filter fun b => (bases.lookup b).isSome := List.mem_filter.mpr ⟨hb, hbase⟩
    refine ⟨_, List.mem_filter.mpr ⟨List.mem_map_of_mem hp, ?_⟩, hmem⟩
    rw [List.isEmpty_eq_false_iff.mpr (List.ne_nil_of_mem hmem)]
    rfl

/-- The axis is gone where there was none, or where one profile survives. -/
theorem prunedProfiles_some {profiles : List HarnessProfile} {default : Option String}
    (h : prunedProfiles route bases = some (profiles, default)) :
    (profiles = [] ∧ (route.profiles = [] ∨ (survivingProfiles route bases).length = 1)) ∨
      (profiles = survivingProfiles route bases ∧ 2 ≤ profiles.length) := by
  unfold prunedProfiles at h
  split at h
  · split at h
    · rename_i hnil
      cases h
      exact .inl ⟨rfl, .inl (List.isEmpty_iff.mp hnil)⟩
    · cases h
  · rename_i p hp
    cases h
    exact .inl ⟨rfl, .inr (by rw [hp]; rfl)⟩
  · rename_i p q ps hp
    cases h
    exact .inr ⟨hp.symm, by simp⟩

/-- A pruned route runs what the route offers; where the axis collapsed, on any base. -/
theorem runs_pruneJevRoute (h : pruneJevRoute route bases drop = some k) (c : HarnessCell) :
    k.Runs bases c ↔ route.Offers bases c ∧ c.provider ∉ drop ∧
      (route.profiles = [] ∨ route.Names c.base ∨ (survivingProfiles route bases).length = 1) := by
  obtain ⟨default, hprofiles, htiers, -⟩ := pruneJevRoute_some h
  rcases prunedProfiles_some hprofiles with ⟨hnil, hcollapsed⟩ | ⟨hsurvive, htwo⟩
  · have hactive : ∀ {route' : HarnessJevRoute}, route'.Offers bases c → c.base ∈ activeBases k.profiles bases := by
      intro route' ho
      rw [hnil]
      exact Assoc.lookup_isSome.mp (lookup_of_wireFor ho.wire)
    constructor
    · intro h
      obtain ⟨ho, -⟩ := h
      obtain ⟨ho', hdrop⟩ := (offers_kept htiers (hactive ho)).mp ho
      exact ⟨ho', hdrop, hcollapsed.imp_right .inr⟩
    · intro h
      obtain ⟨ho, hdrop, -⟩ := h
      exact ⟨(offers_kept htiers (hactive ho)).mpr ⟨ho, hdrop⟩, .inl hnil⟩
  · have hne : k.profiles ≠ [] := by
      intro hnil
      rw [hnil] at htwo
      cases htwo
    have hactive : (∃ p ∈ k.profiles, c.base ∈ p.bases) → c.base ∈ activeBases k.profiles bases := by
      intro hb
      unfold activeBases
      rw [List.isEmpty_eq_false_iff.mpr hne]
      exact List.mem_flatMap.mpr hb
    constructor
    · intro h
      obtain ⟨ho, htried⟩ := h
      have hnamed := htried.resolve_left hne
      obtain ⟨ho', hdrop⟩ := (offers_kept htiers (hactive hnamed)).mp ho
      unfold HarnessJevRoute.Names at hnamed
      rw [hsurvive] at hnamed
      exact ⟨ho', hdrop, .inr (.inl ((names_survivingProfiles (lookup_of_wireFor ho.wire)).mp hnamed))⟩
    · intro h
      obtain ⟨ho, hdrop, htried⟩ := h
      have hnamed : ∃ p ∈ k.profiles, c.base ∈ p.bases := by
        rw [hsurvive]
        rcases htried with hnil | hnamed | hone
        · have : survivingProfiles route bases = [] := by
            unfold survivingProfiles
            rw [hnil]
            rfl
          exact absurd (hsurvive.trans this) hne
        · exact (names_survivingProfiles (lookup_of_wireFor ho.wire)).mpr hnamed
        · rw [hsurvive, hone] at htwo
          omega
      exact ⟨(offers_kept htiers (hactive hnamed)).mpr ⟨ho, hdrop⟩, .inr hnamed⟩

end

/-! ## Valid tables -/

/-- What loading makes sure of, and pruning keeps. -/
structure HarnessJevRoute.Valid (route : HarnessJevRoute) (bases : BaseCatalog) : Prop where
  known : ∀ p ∈ route.profiles, ∀ b ∈ p.bases, (bases.lookup b).isSome = true
  inhabited : ∀ p ∈ route.profiles, p.bases ≠ []
  choice : route.profiles.length ≠ 1
  names : (route.profiles.map (·.name)).Nodup

structure HarnessRouteTable.Valid (t : HarnessRouteTable) : Prop where
  nodup : (t.jevRoutes.map (·.1)).Nodup
  jev : ∀ routeAlias route, t.jevRoute routeAlias = some route → route.Valid t.bases
  static : ∀ routeAlias route, t.jevRoute routeAlias = some route → ∀ legs, t.staticLegs routeAlias = some legs →
    ∀ sl ∈ legs, route.Runs t.bases sl.cell

section
variable {route k : HarnessJevRoute} {bases : BaseCatalog} {drop : Finset String}

theorem pruneJevRoute_valid (hroute : (route.profiles.map (·.name)).Nodup)
    (h : pruneJevRoute route bases drop = some k) : k.Valid bases := by
  obtain ⟨default, hprofiles, -⟩ := pruneJevRoute_some h
  rcases prunedProfiles_some hprofiles with ⟨hnil, -⟩ | ⟨hsurvive, htwo⟩
  · refine { known := ?_, inhabited := ?_, choice := ?_, names := ?_ } <;> rw [hnil]
    · exact fun p hp => by cases hp
    · exact fun p hp => by cases hp
    · exact Nat.zero_ne_one
    · exact List.nodup_nil
  · refine { known := ?_, inhabited := ?_, choice := by omega, names := ?_ } <;> rw [hsurvive]
    · intro p hp b hb
      obtain ⟨q, -, rfl⟩ := List.mem_map.mp (List.mem_filter.mp hp).1
      exact (List.mem_filter.mp hb).2
    · intro p hp
      simpa using (List.mem_filter.mp hp).2
    · have hsub : (survivingProfiles route bases).Sublist _ := List.filter_sublist
      have hnames := hsub.map HarnessProfile.name
      rw [List.map_map] at hnames
      exact hroute.sublist hnames

theorem HarnessJevRoute.Valid.surviving (h : route.Valid bases) : survivingProfiles route bases = route.profiles := by
  have hmap : (route.profiles.map fun p => { p with bases := p.bases.filter fun b => (bases.lookup b).isSome }) =
      route.profiles := by
    refine (List.map_congr_left ?_).trans (List.map_id _)
    intro p hp
    have : p.bases.filter (fun b => (bases.lookup b).isSome) = p.bases := List.filter_eq_self.mpr (h.known p hp)
    rw [this]
    rfl
  unfold survivingProfiles
  rw [hmap]
  apply List.filter_eq_self.mpr
  intro p hp
  simpa using h.inhabited p hp

end

section
variable {t : HarnessRouteTable} {routeAlias : String}

theorem lookup_pruneJevRoutes {jevRoutes : List (String × HarnessJevRoute)} (h : (jevRoutes.map (·.1)).Nodup)
    (bases : BaseCatalog) (drop : Finset String) (routeAlias : String) :
    (pruneJevRoutes jevRoutes bases drop).lookup routeAlias =
      (jevRoutes.lookup routeAlias).bind fun route => pruneJevRoute route bases drop :=
  Assoc.lookup_filterMap h (fun route => pruneJevRoute route bases drop) routeAlias

theorem pruneJevRoutes_nodup {jevRoutes : List (String × HarnessJevRoute)} (h : (jevRoutes.map (·.1)).Nodup)
    (bases : BaseCatalog) (drop : Finset String) : ((pruneJevRoutes jevRoutes bases drop).map (·.1)).Nodup :=
  h.sublist (Assoc.keys_filterMap_sublist jevRoutes fun route => pruneJevRoute route bases drop)

theorem lookup_keptStaticLegs (staticRoutes : List (String × List StaticHarnessLeg))
    (jevRoutes : List (String × HarnessJevRoute)) (bases : BaseCatalog) (keep : StaticHarnessLeg → Bool)
    (routeAlias : String) :
    (staticRoutes.map (keptStaticLegs jevRoutes bases keep)).lookup routeAlias =
      (staticRoutes.lookup routeAlias).map fun legs => (keptStaticLegs jevRoutes bases keep (routeAlias, legs)).2 :=
  Assoc.lookup_map staticRoutes (fun a legs => (keptStaticLegs jevRoutes bases keep (a, legs)).2) routeAlias

theorem HarnessRouteTable.jevRoute_withoutProviders (h : (t.jevRoutes.map (·.1)).Nodup) {drop : Finset String}
    {k : HarnessJevRoute} (hk : (t.withoutProviders drop).jevRoute routeAlias = some k) :
    ∃ route, t.jevRoute routeAlias = some route ∧ pruneJevRoute route t.bases drop = some k := by
  unfold HarnessRouteTable.jevRoute HarnessRouteTable.withoutProviders at hk
  by_cases htypesafe : "typesafe" ∈ drop
  · simp [htypesafe] at hk
  · simp only [if_neg htypesafe] at hk
    rw [lookup_pruneJevRoutes h] at hk
    exact Option.bind_eq_some_iff.mp hk

theorem HarnessRouteTable.jevRoute_withoutBases (h : (t.jevRoutes.map (·.1)).Nodup) (dropBases : Finset String)
    (routeAlias : String) : (t.withoutBases dropBases).jevRoute routeAlias =
      (t.jevRoute routeAlias).bind fun route => pruneJevRoute route (t.withoutBases dropBases).bases ∅ :=
  lookup_pruneJevRoutes h _ _ routeAlias

theorem HarnessRouteTable.Valid.withoutProviders (ht : t.Valid) (drop : Finset String) :
    (t.withoutProviders drop).Valid := by
  refine { nodup := ?_, jev := ?_, static := ?_ }
  · unfold HarnessRouteTable.withoutProviders
    by_cases htypesafe : "typesafe" ∈ drop
    · simp [htypesafe]
    · simp only [if_neg htypesafe]
      exact pruneJevRoutes_nodup ht.nodup t.bases drop
  · intro a k hk
    obtain ⟨route, hr, hpruned⟩ := t.jevRoute_withoutProviders ht.nodup hk
    exact pruneJevRoute_valid (ht.jev _ _ hr).names hpruned
  · intro a k hk legs hlegs sl hsl
    replace hlegs := (lookup_keptStaticLegs t.staticRoutes _ t.bases _ a).symm.trans hlegs
    obtain ⟨legs', -, rfl⟩ := Option.map_eq_some_iff.mp hlegs
    unfold keptStaticLegs at hsl
    unfold HarnessRouteTable.jevRoute HarnessRouteTable.withoutProviders at hk
    simp only at hk
    rw [hk] at hsl
    exact runs_of_flatten hsl

theorem HarnessRouteTable.Valid.withoutBases (ht : t.Valid) (dropBases : Finset String) :
    (t.withoutBases dropBases).Valid := by
  refine { nodup := pruneJevRoutes_nodup ht.nodup _ _, jev := ?_, static := ?_ }
  · intro a k hk
    rw [t.jevRoute_withoutBases ht.nodup, Option.bind_eq_some_iff] at hk
    obtain ⟨route, hr, hpruned⟩ := hk
    exact pruneJevRoute_valid (ht.jev _ _ hr).names hpruned
  · intro a k hk legs hlegs sl hsl
    replace hlegs := (lookup_keptStaticLegs t.staticRoutes _ _ _ a).symm.trans hlegs
    obtain ⟨legs', -, rfl⟩ := Option.map_eq_some_iff.mp hlegs
    unfold keptStaticLegs at hsl
    unfold HarnessRouteTable.jevRoute HarnessRouteTable.withoutBases at hk
    simp only at hk
    rw [hk] at hsl
    exact runs_of_flatten hsl

end

/-! ## Loaded tables -/

theorem buildProfile_ok {routeAlias : String} {bases : BaseCatalog} {entry : String × ProfileEntry} {p : HarnessProfile}
    (h : buildProfile routeAlias bases entry = .ok p) :
    p.name = entry.1 ∧ p.bases ≠ [] ∧ ∀ b ∈ p.bases, (bases.lookup b).isSome = true := by
  obtain ⟨_, -, h⟩ := Fallible.of_bind_ok h
  obtain ⟨_, -, h⟩ := Fallible.of_bind_ok h
  obtain ⟨_, hne, h⟩ := Fallible.of_bind_ok h
  obtain ⟨_, hbases, h⟩ := Fallible.of_bind_ok h
  cases h
  refine ⟨rfl, Fallible.of_refuseIf_ok hne, ?_⟩
  intro b hb
  simpa using Fallible.of_refuseIf_ok (Fallible.of_forM_ok hbases b hb)

theorem checkProfiles_ok {routeAlias : String} {router : HarnessJevRouterEntry} {profiles : List HarnessProfile}
    {u : Unit} (h : checkProfiles routeAlias router profiles = .ok u) : profiles.length ≠ 1 := by
  unfold checkProfiles at h
  split at h
  · rename_i hnil
    rw [hnil]
    exact Nat.zero_ne_one
  · obtain ⟨_, hlen, -⟩ := Fallible.of_bind_ok h
    have := Fallible.of_refuseIf_ok hlen
    omega

theorem buildJevRoute_valid {routeAlias : String} {entry : HarnessRouteEntry} {bases : BaseCatalog} {routes : RouteTable}
    {route : HarnessJevRoute} (hentry : (entry.profiles.map (·.1)).Nodup)
    (h : buildJevRoute routeAlias entry bases routes = .ok route) : route.Valid bases := by
  obtain ⟨_, -, h⟩ := Fallible.of_bind_ok h
  obtain ⟨router, -, h⟩ := Fallible.of_bind_ok h
  obtain ⟨_, -, h⟩ := Fallible.of_bind_ok h
  obtain ⟨profiles, hprofiles, h⟩ := Fallible.of_bind_ok h
  obtain ⟨_, hcount, h⟩ := Fallible.of_bind_ok h
  obtain ⟨_, -, h⟩ := Fallible.of_bind_ok h
  obtain ⟨_, -, h⟩ := Fallible.of_bind_ok h
  obtain ⟨_, -, h⟩ := Fallible.of_bind_ok h
  obtain ⟨tiers, -, h⟩ := Fallible.of_bind_ok h
  obtain ⟨_, -, h⟩ := Fallible.of_bind_ok h
  obtain ⟨_, -, h⟩ := Fallible.of_bind_ok h
  cases h
  have hall : ∀ p ∈ profiles, p.bases ≠ [] ∧ ∀ b ∈ p.bases, (bases.lookup b).isSome = true := by
    intro p hp
    obtain ⟨e, -, he⟩ := Fallible.mem_of_mapM_ok hprofiles hp
    exact (buildProfile_ok he).2
  have hnames : profiles.map (·.name) = entry.profiles.map (·.1) :=
    Fallible.map_of_mapM_ok hprofiles fun _ _ he => (buildProfile_ok he).1
  exact {
    known := fun p hp => (hall p hp).2
    inhabited := fun p hp => (hall p hp).1
    choice := checkProfiles_ok hcount
    names := by rw [hnames]; exact hentry }

theorem buildRoute_jev {bases : BaseCatalog} {routes : RouteTable} {routeAlias : String} {entry : HarnessRouteEntry}
    {legs : List StaticHarnessLeg} {route : HarnessJevRoute} (hentry : (entry.profiles.map (·.1)).Nodup)
    (h : buildRoute bases routes routeAlias entry = .ok (legs, some route)) :
    route.Valid bases ∧ legs = flattenJevToStatic route bases := by
  unfold buildRoute at h
  split at h
  · obtain ⟨_, -, h⟩ := Fallible.of_bind_ok h
    obtain ⟨_, -, h⟩ := Fallible.of_bind_ok h
    obtain ⟨_, -, heq⟩ := Fallible.of_map_ok h
    cases heq
  · obtain ⟨built, hbuilt, heq⟩ := Fallible.of_map_ok h
    cases heq
    exact ⟨buildJevRoute_valid hentry hbuilt, rfl⟩
  · cases h

theorem HarnessRouteTable.fromFile_valid {file : HarnessesFile} {routes : RouteTable} {t : HarnessRouteTable}
    (h : HarnessRouteTable.fromFile file routes = .ok t) : t.Valid := by
  obtain ⟨_, -, h⟩ := Fallible.of_bind_ok h
  obtain ⟨built, hbuilt, h⟩ := Fallible.of_bind_ok h
  obtain ⟨_, -, h⟩ := Fallible.of_bind_ok h
  cases h
  have hkeys : built.map (·.1) = file.harnessRoutes.map (·.1) := by
    refine Fallible.map_of_mapM_ok hbuilt ?_
    intro e r hr
    obtain ⟨_, -, rfl⟩ := Fallible.of_map_ok hr
    rfl
  have hnodup : (built.map (·.1)).Nodup := by
    rw [hkeys]
    exact file.routesNodup
  have hroute : ∀ a legs j, (a, legs, some j) ∈ built →
      j.Valid file.catalog ∧ legs = flattenJevToStatic j file.catalog := by
    intro a legs j hmem
    obtain ⟨e, he, hr⟩ := Fallible.mem_of_mapM_ok hbuilt hmem
    obtain ⟨_, hr, heq⟩ := Fallible.of_map_ok hr
    cases heq
    exact buildRoute_jev (file.profilesNodup e he) hr
  have hjev : ∀ a j, (built.filterMap fun r => r.2.2.map fun jev => (r.1, jev)).lookup a = some j →
      ∃ legs, (a, legs, some j) ∈ built := by
    intro a j ha
    replace ha := (Assoc.lookup_filterMap hnodup (·.2) a).symm.trans ha
    obtain ⟨⟨legs, j'⟩, hmem, rfl⟩ := Option.bind_eq_some_iff.mp ha
    exact ⟨legs, Assoc.mem_of_lookup hmem⟩
  refine { nodup := hnodup.sublist (Assoc.keys_filterMap_sublist built (·.2)), jev := ?_, static := ?_ }
  · intro a j ha
    obtain ⟨legs, hmem⟩ := hjev a j ha
    exact (hroute a legs j hmem).1
  · intro a j ha legs' hlegs' sl hsl
    obtain ⟨legs, hmem⟩ := hjev a j ha
    have hlegs : (built.map fun r => (r.1, r.2.1)).lookup a = some legs := by
      refine Assoc.lookup_of_mem ?_ (List.mem_map.mpr ⟨_, hmem, rfl⟩)
      rw [List.map_map]
      exact hnodup
    rw [Option.some.inj (hlegs'.symm.trans hlegs), (hroute a legs j hmem).2] at hsl
    exact runs_of_flatten hsl

/-- The tables a gateway can have: none, a loaded one, or what pruning leaves of one. -/
inductive HarnessRouteTable.Built : HarnessRouteTable → Prop where
  | absent : Built {}
  | loaded {file : HarnessesFile} {routes : RouteTable} {t : HarnessRouteTable}
      (h : HarnessRouteTable.fromFile file routes = .ok t) : Built t
  | withoutProviders {t : HarnessRouteTable} (h : Built t) (drop : Finset String) : Built (t.withoutProviders drop)
  | withoutBases {t : HarnessRouteTable} (h : Built t) (dropBases : Finset String) : Built (t.withoutBases dropBases)

theorem HarnessRouteTable.Built.valid {t : HarnessRouteTable} (h : t.Built) : t.Valid := by
  induction h with
  | absent => exact ⟨List.nodup_nil, fun _ _ h => (by cases h), fun _ _ h => (by cases h)⟩
  | loaded h => exact HarnessRouteTable.fromFile_valid h
  | withoutProviders _ drop ih => exact ih.withoutProviders drop
  | withoutBases _ dropBases ih => exact ih.withoutBases dropBases

end SynapseGateway
