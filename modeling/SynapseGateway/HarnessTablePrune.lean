import SynapseGateway.HarnessTableSound

/-!
# When pruning a harness table narrows it

The cells a request can be dispatched to, before and after providers or bases are
taken out. A route whose profiles lose all but one forgets the axis, and with it which
bases the profiles named.
-/

namespace SynapseGateway

section
variable {t : HarnessRouteTable} {routeAlias : String}

/-- Where an alias has no grid left, its legs are among those it could be dispatched to before. -/
theorem HarnessRouteTable.Valid.static_kept (ht : t.Valid) {t' : HarnessRouteTable} {keep : StaticHarnessLeg → Bool}
    (hstatic : t'.staticRoutes = t.staticRoutes.map (keptStaticLegs t'.jevRoutes t'.bases keep))
    (hnone : t'.jevRoute routeAlias = none) {c : HarnessCell} (h : t'.Dispatches routeAlias c) :
    t.Dispatches routeAlias c ∧ ∃ sl, keep sl = true ∧ sl.cell = c := by
  unfold HarnessRouteTable.Dispatches at h
  rw [hnone] at h
  obtain ⟨legs', hlegs', sl, hsl, rfl⟩ := h
  unfold HarnessRouteTable.staticLegs at hlegs'
  rw [hstatic, lookup_keptStaticLegs, Option.map_eq_some_iff] at hlegs'
  obtain ⟨legs, hlegs, rfl⟩ := hlegs'
  unfold HarnessRouteTable.jevRoute at hnone
  unfold keptStaticLegs at hsl
  rw [hnone] at hsl
  obtain ⟨hmem, hkeep⟩ := List.mem_filter.mp hsl
  refine ⟨?_, sl, hkeep, rfl⟩
  cases hr : t.jevRoute routeAlias with
  | some route => exact (dispatches_jev hr _).mpr (ht.static _ _ hr _ hlegs _ hmem)
  | none =>
    unfold HarnessRouteTable.Dispatches
    rw [hr]
    exact ⟨legs, hlegs, sl, hmem, rfl⟩

/-- Without providers no profile is lost, so the axis stays as it is. -/
theorem HarnessRouteTable.Valid.withoutProviders_narrows (ht : t.Valid) {drop : Finset String} {c : HarnessCell}
    (h : (t.withoutProviders drop).Dispatches routeAlias c) : t.Dispatches routeAlias c ∧ c.provider ∉ drop := by
  cases hk : (t.withoutProviders drop).jevRoute routeAlias with
  | none =>
    obtain ⟨hbefore, sl, hkeep, rfl⟩ := ht.static_kept rfl hk h
    exact ⟨hbefore, of_decide_eq_true hkeep⟩
  | some k =>
    obtain ⟨route, hr, hpruned⟩ := t.jevRoute_withoutProviders ht.nodup hk
    have hroute := ht.jev _ _ hr
    obtain ⟨ho, hdrop, htried⟩ := (runs_pruneJevRoute hpruned c).mp ((dispatches_jev hk c).mp h)
    rw [hroute.surviving] at htried
    refine ⟨(dispatches_jev hr c).mpr ⟨ho, ?_⟩, hdrop⟩
    rcases htried with hnil | hnamed | hone
    · exact .inl hnil
    · exact .inr hnamed
    · exact absurd hone hroute.choice

theorem wireFor_without (bases : BaseCatalog) (dropBases : Finset String) (base provider model : String) :
    wireFor (bases.filter fun e => e.1 ∉ dropBases) base provider model =
      if base ∈ dropBases then none else wireFor bases base provider model := by
  unfold wireFor
  rw [Assoc.lookup_filter_key bases (fun b => b ∉ dropBases) base]
  by_cases h : base ∈ dropBases <;> simp [h]

theorem offers_withoutBases {route : HarnessJevRoute} {dropBases : Finset String} {c : HarnessCell} :
    route.Offers (t.withoutBases dropBases).bases c ↔ route.Offers t.bases c ∧ c.base ∉ dropBases := by
  have hwire := wireFor_without t.bases dropBases c.base c.provider c.model
  constructor
  · intro h
    obtain ⟨hw, hleg⟩ := h
    have hw := hwire.symm.trans hw
    by_cases hb : c.base ∈ dropBases
    · rw [if_pos hb] at hw
      cases hw
    · rw [if_neg hb] at hw
      exact ⟨⟨hw, hleg⟩, hb⟩
  · intro h
    obtain ⟨⟨hw, hleg⟩, hb⟩ := h
    rw [if_neg hb] at hwire
    exact ⟨hwire.trans hw, hleg⟩

end

/-! ## When pruning narrows -/

/-- Nothing is dispatchable that was not, and nothing on what was dropped. -/
def HarnessRouteTable.PruningNarrows (t : HarnessRouteTable) (dropBases drop : Finset String) : Prop :=
  (∀ routeAlias c, (t.withoutBases dropBases).Dispatches routeAlias c →
    t.Dispatches routeAlias c ∧ c.base ∉ dropBases) ∧
  ∀ routeAlias c, (t.withoutProviders drop).Dispatches routeAlias c → t.Dispatches routeAlias c ∧ c.provider ∉ drop

def HarnessTier.servedWithout (tier : HarnessTier) (bases : BaseCatalog) (dropBases : Finset String) : Bool :=
  bases.any fun e => e.1 ∉ dropBases && tier.allows e.1 &&
    tier.legs.any fun l => (wireFor bases e.1 l.provider l.model).isSome

/-- One profile is left of the axis, two tiers are left to choose from, and a base that
is in no profile could run a leg. -/
structure HarnessJevRoute.Collapses (route : HarnessJevRoute) (bases : BaseCatalog) (dropBases : Finset String) : Prop where
  profile : (route.profiles.filter fun p => p.bases.any (· ∉ dropBases)).length = 1
  tiers : 2 ≤ (route.tiers.filter (·.servedWithout bases dropBases)).length
  unnamed : ∃ c, route.Offers bases c ∧ c.base ∉ dropBases ∧ ¬ route.Names c.base

section
variable {t : HarnessRouteTable} {route : HarnessJevRoute} {dropBases : Finset String}

theorem lookup_withoutBases (t : HarnessRouteTable) (dropBases : Finset String) (base : String) :
    ((t.withoutBases dropBases).bases.lookup base).isSome = (base ∉ dropBases && (t.bases.lookup base).isSome) := by
  have h : (t.withoutBases dropBases).bases.lookup base = _ :=
    Assoc.lookup_filter_key t.bases (fun b => b ∉ dropBases) base
  rw [h]
  by_cases hb : base ∈ dropBases <;> simp [hb]

theorem survivingProfiles_length (h : route.Valid t.bases) (dropBases : Finset String) :
    (survivingProfiles route (t.withoutBases dropBases).bases).length =
      (route.profiles.filter fun p => p.bases.any (· ∉ dropBases)).length := by
  unfold survivingProfiles
  rw [List.filter_map, List.length_map]
  congr 1
  apply List.filter_congr
  intro p hp
  simp only [Function.comp_apply]
  rw [Bool.eq_iff_iff, Bool.not_eq_true', List.isEmpty_eq_false_iff, List.any_eq_true]
  constructor
  · intro hne
    obtain ⟨b, hb⟩ := List.exists_mem_of_ne_nil _ hne
    obtain ⟨hb, hkept⟩ := List.mem_filter.mp hb
    rw [lookup_withoutBases, Bool.and_eq_true] at hkept
    exact ⟨b, hb, hkept.1⟩
  · intro h
    obtain ⟨b, hb, hkept⟩ := h
    refine List.ne_nil_of_mem (List.mem_filter.mpr ⟨hb, ?_⟩)
    rw [lookup_withoutBases, hkept, h.known p hp b hb]
    rfl

theorem HarnessTier.kept_iff_served (tier : HarnessTier) (t : HarnessRouteTable) (dropBases : Finset String) :
    (tier.pruned (t.withoutBases dropBases).bases ((t.withoutBases dropBases).bases.map (·.1)) ∅).bases ≠ some [] ∧
      (tier.pruned (t.withoutBases dropBases).bases ((t.withoutBases dropBases).bases.map (·.1)) ∅).legs ≠ [] ↔
    tier.servedWithout t.bases dropBases = true := by
  unfold HarnessTier.servedWithout
  simp only [List.any_eq_true, Bool.and_eq_true, decide_eq_true_eq]
  constructor
  · intro h
    obtain ⟨-, hne⟩ := h
    obtain ⟨l, hl⟩ := List.exists_mem_of_ne_nil _ hne
    obtain ⟨hl, -, b, hb, hallows, hwire⟩ := HarnessTier.mem_pruned_legs.mp hl
    obtain ⟨⟨b', spec⟩, he, rfl⟩ := List.mem_map.mp hb
    obtain ⟨he, hkept⟩ := List.mem_filter.mp he
    have hkept := of_decide_eq_true hkept
    rw [tier.pruned_allows _ _ (Assoc.lookup_isSome.mpr hb)] at hallows
    refine ⟨(b', spec), he, ⟨hkept, hallows⟩, l, hl, ?_⟩
    replace hwire := (congrArg Option.isSome
      (wireFor_without t.bases dropBases b' l.provider l.model)).symm.trans hwire
    rw [if_neg hkept] at hwire
    exact hwire
  · intro h
    obtain ⟨⟨b, spec⟩, he, ⟨hkept, hallows⟩, l, hl, hwire⟩ := h
    have hmem : b ∈ (t.withoutBases dropBases).bases.map (·.1) :=
      List.mem_map.mpr ⟨(b, spec), List.mem_filter.mpr ⟨he, decide_eq_true hkept⟩, rfl⟩
    have hallows' := (tier.pruned_allows ((t.withoutBases dropBases).bases.map (·.1)) ∅
      (Assoc.lookup_isSome.mpr hmem)).trans hallows
    constructor
    · intro hnil
      unfold HarnessTier.allows at hallows'
      rw [hnil] at hallows'
      cases hallows'
    · refine List.ne_nil_of_mem (HarnessTier.mem_pruned_legs.mpr ⟨hl, Finset.notMem_empty _, b, hmem, hallows', ?_⟩)
      refine (congrArg Option.isSome (wireFor_without t.bases dropBases b l.provider l.model)).trans ?_
      rw [if_neg hkept]
      exact hwire

theorem keptHarnessTiers_length (t : HarnessRouteTable) (route : HarnessJevRoute) (dropBases : Finset String) :
    (keptHarnessTiers route (t.withoutBases dropBases).bases ((t.withoutBases dropBases).bases.map (·.1)) ∅).length =
      (route.tiers.filter (·.servedWithout t.bases dropBases)).length := by
  unfold keptHarnessTiers
  rw [List.filter_map, List.length_map]
  have hfst : route.tiers.filter (·.servedWithout t.bases dropBases) =
      (route.tiers.zipIdx.filter fun e => e.1.servedWithout t.bases dropBases).map (·.1) := by
    conv_lhs => rw [← List.zipIdx_map_fst 0 route.tiers]
    rw [List.filter_map]
    rfl
  rw [hfst, List.length_map]
  congr 1
  apply List.filter_congr
  rintro ⟨tier, i⟩ -
  rw [Bool.eq_iff_iff, ← HarnessTier.kept_iff_served]
  simp

theorem HarnessJevRoute.Collapses.pruned (h : route.Collapses t.bases dropBases) (hroute : route.Valid t.bases) :
    ∃ k, pruneJevRoute route (t.withoutBases dropBases).bases ∅ = some k ∧
      (survivingProfiles route (t.withoutBases dropBases).bases).length = 1 := by
  have hone := (survivingProfiles_length hroute dropBases).trans h.profile
  have hprofiles : prunedProfiles route (t.withoutBases dropBases).bases = some ([], none) := by
    obtain ⟨p, hp⟩ := List.length_eq_one_iff.mp hone
    unfold prunedProfiles
    rw [hp]
  have hlen : ¬ (keptHarnessTiers route (t.withoutBases dropBases).bases
      (activeBases [] (t.withoutBases dropBases).bases) ∅).length < 2 := by
    have := keptHarnessTiers_length t route dropBases
    have htiers := h.tiers
    rw [← this] at htiers
    exact Nat.not_lt.mpr htiers
  have hne : (t.withoutBases dropBases).bases.isEmpty = false := by
    obtain ⟨c, hoffers, hkept, -⟩ := h.unnamed
    have hbase := lookup_of_wireFor (offers_withoutBases.mpr ⟨hoffers, hkept⟩).wire
    exact List.isEmpty_eq_false_iff.mpr (List.ne_nil_of_mem (List.mem_map.mp (Assoc.lookup_isSome.mp hbase)).choose_spec.1)
  unfold pruneJevRoute
  rw [hne, hprofiles]
  simp only [Bool.false_eq_true, if_false, if_neg hlen]
  exact ⟨_, rfl, hone⟩

theorem HarnessRouteTable.Valid.withoutBases_narrows (ht : t.Valid)
    (hsafe : ∀ a r, t.jevRoute a = some r → ¬ r.Collapses t.bases dropBases) {routeAlias : String} {c : HarnessCell}
    (h : (t.withoutBases dropBases).Dispatches routeAlias c) : t.Dispatches routeAlias c ∧ c.base ∉ dropBases := by
  cases hk : (t.withoutBases dropBases).jevRoute routeAlias with
  | none =>
    obtain ⟨hbefore, sl, hkeep, rfl⟩ := ht.static_kept rfl hk h
    replace hkeep := (lookup_withoutBases t dropBases sl.base).symm.trans hkeep
    rw [Bool.and_eq_true] at hkeep
    exact ⟨hbefore, of_decide_eq_true hkeep.1⟩
  | some k =>
    have hruns := (dispatches_jev hk c).mp h
    rw [t.jevRoute_withoutBases ht.nodup, Option.bind_eq_some_iff] at hk
    obtain ⟨route, hr, hpruned⟩ := hk
    have hroute := ht.jev _ _ hr
    obtain ⟨ho, -, htried⟩ := (runs_pruneJevRoute hpruned c).mp hruns
    obtain ⟨ho, hkept⟩ := offers_withoutBases.mp ho
    refine ⟨(dispatches_jev hr c).mpr ⟨ho, ?_⟩, hkept⟩
    rcases htried with hnil | hnamed | hone
    · exact .inl hnil
    · exact .inr hnamed
    · by_contra hnew
      rw [not_or] at hnew
      obtain ⟨default, hprofiles, -, htwo⟩ := pruneJevRoute_some hpruned
      have hnil : k.profiles = [] := by
        rcases prunedProfiles_some hprofiles with ⟨hnil, -⟩ | ⟨hsurvive, htwo⟩
        · exact hnil
        · rw [hsurvive, hone] at htwo
          omega
      rw [hnil] at htwo
      exact hsafe _ _ hr {
        profile := (survivingProfiles_length hroute dropBases).symm.trans hone
        tiers := htwo.trans (keptHarnessTiers_length t route dropBases).le
        unnamed := ⟨c, ho, hkept, hnew.2⟩ }

theorem HarnessRouteTable.Valid.collapse_widens (ht : t.Valid) {routeAlias : String}
    (hr : t.jevRoute routeAlias = some route) (h : route.Collapses t.bases dropBases) :
    ∃ c, (t.withoutBases dropBases).Dispatches routeAlias c ∧ ¬ t.Dispatches routeAlias c := by
  have hroute := ht.jev _ _ hr
  obtain ⟨k, hpruned, hone⟩ := h.pruned hroute
  obtain ⟨c, ho, hkept, hnew⟩ := h.unnamed
  have hk : (t.withoutBases dropBases).jevRoute routeAlias = some k := by
    rw [t.jevRoute_withoutBases ht.nodup, hr]
    exact hpruned
  refine ⟨c, (dispatches_jev hk c).mpr ((runs_pruneJevRoute hpruned c).mpr ?_), ?_⟩
  · exact ⟨offers_withoutBases.mpr ⟨ho, hkept⟩, Finset.notMem_empty _, .inr (.inr hone)⟩
  · rw [dispatches_jev hr]
    intro h
    obtain ⟨-, hnil | hnamed⟩ := h
    · have := h.profile
      rw [hnil] at this
      cases this
    · exact hnew hnamed

end

/-- Pruning a loaded table narrows it unless a profile axis collapses over a base that
no profile names. -/
theorem pruning_narrows_iff {file : HarnessesFile} {routes : RouteTable} {t : HarnessRouteTable}
    (h : HarnessRouteTable.fromFile file routes = .ok t) (dropBases drop : Finset String) :
    t.PruningNarrows dropBases drop ↔
      ∀ routeAlias route, t.jevRoute routeAlias = some route → ¬ route.Collapses t.bases dropBases := by
  have ht := HarnessRouteTable.fromFile_valid h
  constructor
  · intro hnarrow routeAlias route hr hcollapses
    obtain ⟨c, hafter, hbefore⟩ := ht.collapse_widens hr hcollapses
    exact hbefore (hnarrow.1 routeAlias c hafter).1
  · intro hsafe
    exact ⟨fun _ _ hc => ht.withoutBases_narrows hsafe hc, fun _ _ hc => ht.withoutProviders_narrows hc⟩

def sampleHarnesses : HarnessesFile where
  bases := [
    ("claude-code", { label := "Claude Code", wire := [.anthropicMessages] }),
    ("codex", { label := "Codex", wire := [.openaiResponses] }),
    ("pi", { label := "Pi", wire := [.openaiChat, .anthropicMessages] })]
  harnesses := [("default", { name := "Workspace agent", base := "auto", route := some "auto" })]
  harnessRoutes := [
    ("auto", {
      strategy := some "jev"
      jevRouter := some { defaultProfile := some "quick", defaultTier := "easy" }
      profiles := [
        ("quick", ⟨"focused edits", ["pi"]⟩),
        ("repo", ⟨"work across files", ["claude-code"]⟩)]
      tiers := some [
        { name := "easy", description := "a lookup", effort := .low,
          legs := [.direct { provider := "anthropic", model := "claude-haiku-5.5" }, .routeAlias "deep"] },
        { name := "hard", description := "a refactor", effort := .high,
          legs := [.direct { provider := "anthropic", model := "claude-opus-5" }] }] })]
  basesNodup := by decide
  routesNodup := by decide
  profilesNodup := by decide

def deepRoute : RouteTable where
  routes := [("deep", [{ provider := "openai", model := "gpt-5.4" }])]
  policies := []
  jev := []
  jevDeclared := []

theorem sampleHarnesses_without_codex : ∃ t, HarnessRouteTable.fromFile sampleHarnesses deepRoute = .ok t ∧
    t.PruningNarrows {"codex"} {"openai"} := by
  have hok : (HarnessRouteTable.fromFile sampleHarnesses deepRoute).toOption.any (fun t => t.jevRoutes.all fun e =>
      (e.2.profiles.filter fun p => p.bases.any (· ∉ ({"codex"} : Finset String))).length != 1) = true := by
    decide +kernel
  cases h : HarnessRouteTable.fromFile sampleHarnesses deepRoute with
  | error e =>
    rw [h] at hok
    cases hok
  | ok t =>
    rw [h] at hok
    refine ⟨t, rfl, (pruning_narrows_iff h {"codex"} {"openai"}).mpr ?_⟩
    intro routeAlias route hr hcollapses
    have := List.all_eq_true.mp hok _ (Assoc.mem_of_lookup hr)
    rw [bne_iff_ne] at this
    exact this hcollapses.profile

/-- With `pi` gone a single profile is left, and its route runs on `codex`, which it never named. -/
theorem collapse_reaches_codex : ∃ t, HarnessRouteTable.fromFile sampleHarnesses deepRoute = .ok t ∧
    ¬ t.PruningNarrows {"pi"} ∅ := by
  have hok : (HarnessRouteTable.fromFile sampleHarnesses deepRoute).toOption.any (fun t =>
      (t.jevRoute "auto").any fun route =>
        (route.profiles.filter fun p => p.bases.any (· ∉ ({"pi"} : Finset String))).length = 1 ∧
        2 ≤ (route.tiers.filter (·.servedWithout t.bases {"pi"})).length ∧
        route.Offers t.bases ⟨"codex", "openai", "gpt-5.4", .openaiResponses⟩ ∧ ¬ route.Names "codex") = true := by
    decide +kernel
  cases h : HarnessRouteTable.fromFile sampleHarnesses deepRoute with
  | error e =>
    rw [h] at hok
    cases hok
  | ok t =>
    rw [h] at hok
    change Option.any _ (t.jevRoute "auto") = true at hok
    obtain ⟨route, hr, hroute⟩ := (Option.any_eq_true _ _).mp hok
    obtain ⟨hone, htwo, hoffers, hnew⟩ := of_decide_eq_true hroute
    refine ⟨t, rfl, ?_⟩
    intro hnarrow
    obtain ⟨c, hafter, hbefore⟩ := (HarnessRouteTable.fromFile_valid h).collapse_widens hr
      ⟨hone, htwo, ⟨_, hoffers, by decide, hnew⟩⟩
    exact hbefore (hnarrow.1 "auto" c hafter).1

end SynapseGateway
