import SynapseGateway.Lib.Firsts
import SynapseGateway.PassthroughPolicies
import SynapseGateway.RoutePlannerSound

/-!
# The report of a chat route

What the client is told of the leg that served is found in the plan again, by
the provider and the model of the leg.
-/

namespace SynapseGateway

open Firsts (IsFirst)

structure RoutingReport where
  mode : RoutingMode
  tier : Option String
  tierDecided : Option String
  effort : Option String
  degraded : Option String
  guard : Option String
deriving DecidableEq, Repr

def RoutePlan.reportFor (plan : RoutePlan) (served : Option (String × String)) : RoutingReport :=
  let served := served.bind fun (provider, model) =>
    plan.legs.find? fun p => p.leg.provider == provider && p.leg.model == model
  let tier := served.bind fun p => plan.tierNames[p.tier]?
  let decided := plan.decided.bind fun d => plan.tierNames[d]?
  { mode := plan.mode
    tier := tier
    tierDecided := decided.filter fun d => tier.any fun t => t != d
    effort := if plan.clientEffort then some "client" else (served.bind (·.leg.effort)).map Effort.asStr
    degraded := plan.outcome.bind DecisionOutcome.degradedReason
    guard := plan.guard }

/-! ## A true report -/

/-- What is true of a leg of tier `tier` that is stamped with `effort`; `replaced`
where the client's own effort replaced that one. -/
structure TrueOf (tierNames : List String) (decided : Option Nat) (tier : Nat) (effort : Option Effort) (replaced : Prop)
    (named tierDecided reported : Option String) : Prop where
  names : named = tierNames[tier]?
  decides : ∀ name, tierDecided = some name ↔ ∃ d, decided = some d ∧ d ≠ tier ∧ tierNames[d]? = some name
  client : reported = some "client" ↔ replaced
  stamped : ¬ replaced → reported = effort.map Effort.asStr

theorem Effort.asStr_injective : Function.Injective Effort.asStr := by
  intro a b h
  cases a <;> cases b <;> first | rfl | simp [Effort.asStr] at h

theorem reported_client (client : Bool) (effort : Option Effort) :
    (if client then some "client" else effort.map Effort.asStr) = some "client" ↔ client = true := by
  by_cases hc : client = true
  · simp [hc]
  · rw [if_neg hc]
    refine iff_of_false ?_ hc
    cases effort with
    | none => simp
    | some e => cases e <;> simp [Effort.asStr]

section
variable {names : List String} {decided : Option Nat} {tier tier' : Nat} {effort effort' : Option Effort}
  {replaced : Prop} {client : Bool}

def decidedName (names : List String) (decided : Option Nat) (named : Option String) : Option String :=
  (decided.bind fun d => names[d]?).filter fun d => named.any fun t => t != d

theorem decidedName_eq (hnames : names.Nodup) (ht : tier < names.length) (name : String) :
    decidedName names decided names[tier]? = some name ↔ ∃ d, decided = some d ∧ d ≠ tier ∧ names[d]? = some name := by
  have hdiffer : ∀ d, names[d]? = some name → ((names[tier]?).any (fun t => t != name) = true ↔ d ≠ tier) := by
    intro d hd
    have hinj := List.getElem?_inj ht hnames (j := d)
    rw [List.getElem?_eq_getElem ht] at hinj ⊢
    rw [hd, Option.some_inj] at hinj
    rw [Option.any_some, bne_iff_ne, ne_eq, hinj, ne_comm]
  unfold decidedName
  rw [Option.filter_eq_some_iff, Option.bind_eq_some_iff]
  constructor
  · intro h
    obtain ⟨⟨d, hd, hname⟩, hany⟩ := h
    exact ⟨d, hd, (hdiffer d hname).mp hany, hname⟩
  · intro h
    obtain ⟨d, hd, hne, hname⟩ := h
    exact ⟨⟨d, hd, hname⟩, (hdiffer d hname).mpr hne⟩

/-- A report made from another leg is true where that leg has the tier and, unless the
client's replaced it, the effort. -/
theorem trueOf_iff (hnames : names.Nodup) (ht : tier < names.length) (ht' : tier' < names.length)
    (hclient : client = true ↔ replaced) :
    TrueOf names decided tier effort replaced names[tier']? (decidedName names decided names[tier']?)
        (if client then some "client" else effort'.map Effort.asStr) ↔
      tier' = tier ∧ (replaced ∨ effort' = effort) := by
  constructor
  · intro h
    refine ⟨(List.getElem?_inj ht' hnames).mp h.names, ?_⟩
    by_cases hr : replaced
    · exact .inl hr
    · have hstamped := h.stamped hr
      rw [if_neg fun hc => hr (hclient.mp hc)] at hstamped
      exact .inr (Option.map_injective Effort.asStr_injective hstamped)
  · intro h
    obtain ⟨rfl, heffort⟩ := h
    refine {
      names := rfl
      decides := decidedName_eq hnames ht
      client := (reported_client client effort').trans hclient
      stamped := ?_ }
    intro hr
    rw [if_neg fun hc => hr (hclient.mp hc), heffort.resolve_left hr]

end

/-! ## The plans of a chat request -/

/-- The effort of the leg gives way to the client's. A static plan has none of its own. -/
def ClientReplaces (req : RoutedRequest) (plan : RoutePlan) (p : PlannedLeg) : Prop :=
  clientSetsEffort req = true ∧ (plan.mode = .static → p.leg.effort.isSome = true)

/-- What the client is told when `p` served is true of `p`. -/
def RoutePlan.ReportsTruly (plan : RoutePlan) (req : RoutedRequest) (p : PlannedLeg) : Prop :=
  let report := plan.reportFor (some p.leg.modelKey)
  TrueOf plan.tierNames plan.decided p.tier p.leg.effort (ClientReplaces req plan p) report.tier report.tierDecided
    report.effort

def PlannedLeg.modelKey (p : PlannedLeg) : String × String := p.leg.modelKey

section
variable {plan : RoutePlan} {p : PlannedLeg}

theorem reportFor_first (hp : p ∈ plan.legs) : ∃ q ∈ plan.legs,
    (∀ c, IsFirst PlannedLeg.modelKey p.modelKey plan.legs c ↔ c = q) ∧
      (plan.reportFor (some p.leg.modelKey)).tier = plan.tierNames[q.tier]? ∧
      (plan.reportFor (some p.leg.modelKey)).tierDecided =
        decidedName plan.tierNames plan.decided plan.tierNames[q.tier]? ∧
      (plan.reportFor (some p.leg.modelKey)).effort =
        if plan.clientEffort then some "client" else q.leg.effort.map Effort.asStr := by
  have hkey : ∀ q : PlannedLeg, (q.leg.provider == p.leg.provider && q.leg.model == p.leg.model) = true ↔
      q.modelKey = p.modelKey := by
    intro q
    simp [PlannedLeg.modelKey, ChainLeg.modelKey]
  obtain ⟨q, hq, hfirst⟩ := Firsts.find?_isFirst hp hkey
  refine ⟨q, List.mem_of_find?_eq_some hq, hfirst, ?_⟩
  unfold RoutePlan.reportFor ChainLeg.modelKey
  simp only [Option.bind_some, hq]
  exact ⟨trivial, rfl, trivial⟩

end

/-- All of the legs are stamped with an effort, or none is. -/
def StampedAlike (legs : List ChainLeg) : Prop :=
  (∀ l ∈ legs, l.effort = none) ∨ ∀ l ∈ legs, l.effort.isSome = true

section
variable {req : RoutedRequest} {plan : RoutePlan} {p : PlannedLeg}

theorem staticLegs_clientEffort {legs : List ChainLeg} {client : Bool} :
    (RoutePlan.staticLegs legs client).clientEffort = true ↔ client = true ∧ ∃ l ∈ legs, l.effort.isSome = true := by
  simp [RoutePlan.staticLegs]

theorem clientReplaces_static {legs : List ChainLeg} (hstamped : StampedAlike legs) {guard : Option String}
    (hplan : plan = { RoutePlan.staticLegs legs (clientSetsEffort req) with guard := guard }) (hp : p.leg ∈ legs) :
    ClientReplaces req plan p ↔ plan.clientEffort = true := by
  subst hplan
  refine Iff.trans ?_ staticLegs_clientEffort.symm
  apply and_congr_right
  intro _
  constructor
  · exact fun h => ⟨p.leg, hp, h rfl⟩
  · rintro ⟨l, hl, hsome⟩ _
    rcases hstamped with hnone | hall
    · rw [hnone l hl] at hsome
      cases hsome
    · exact hall p.leg hp

/-- Nothing is stamped where the client's effort replaces nothing. -/
theorem unstamped_of_kept {legs : List ChainLeg} {guard : Option String}
    (hplan : plan = { RoutePlan.staticLegs legs (clientSetsEffort req) with guard := guard })
    (hset : clientSetsEffort req = true) (hc : ¬ plan.clientEffort = true) : ∀ l ∈ legs, l.effort = none := by
  intro l hl
  by_contra hne
  apply hc
  rw [hplan]
  exact staticLegs_clientEffort.mpr ⟨hset, l, hl, Option.isSome_iff_ne_none.mpr hne⟩

theorem reportsTruly_static {legs : List ChainLeg} (hstamped : StampedAlike legs) {guard : Option String}
    (hplan : plan = { RoutePlan.staticLegs legs (clientSetsEffort req) with guard := guard }) (hp : p ∈ plan.legs) :
    plan.ReportsTruly req p ↔ ∀ q, IsFirst PlannedLeg.modelKey p.modelKey plan.legs q →
      q.tier = p.tier ∧ (clientSetsEffort req = true ∨ q.leg.effort = p.leg.effort) := by
  obtain ⟨q, hq, hfirst, htier, hdecided, heffort⟩ := reportFor_first hp
  have hleg : ∀ r ∈ plan.legs, r.tier = 0 ∧ r.leg ∈ legs := by
    subst hplan
    intro r hr
    obtain ⟨l, hl, rfl⟩ := List.mem_map.mp hr
    exact ⟨rfl, hl⟩
  have hreplaced := clientReplaces_static hstamped hplan (hleg p hp).2
  have hnames : plan.tierNames = [] := by
    rw [hplan]
    rfl
  have hundecided : plan.decided = none := by
    rw [hplan]
    rfl
  constructor
  · intro h q' hq'
    rw [hfirst] at hq'
    subst hq'
    refine ⟨(hleg q' hq).1.trans (hleg p hp).1.symm, ?_⟩
    by_cases hr : ClientReplaces req plan p
    · exact .inl hr.1
    · have hstamp := h.stamped hr
      rw [heffort, if_neg fun hc => hr (hreplaced.mpr hc)] at hstamp
      exact .inr (Option.map_injective Effort.asStr_injective hstamp)
  · intro h
    obtain ⟨-, hsame⟩ := h q ((hfirst q).mpr rfl)
    refine { names := ?_, decides := ?_, client := ?_, stamped := ?_ }
    · rw [htier, hnames]
      rfl
    · intro name
      rw [hdecided, hundecided]
      simp [decidedName]
    · rw [heffort, hreplaced, reported_client]
    · intro hr
      have hc : ¬ plan.clientEffort = true := fun hc => hr (hreplaced.mpr hc)
      rw [heffort, if_neg hc]
      rcases hsame with hset | hsame
      · have hnone := unstamped_of_kept hplan hset hc
        rw [hnone _ (hleg q hq).2, hnone _ (hleg p hp).2]
      · rw [hsame]

/-- A tier's legs are all stamped alike, so the tier decides. -/
theorem reportsTruly_tiered {route : JevRoute} {mode : RoutingMode} {result : Except DecisionOutcome JevAnswers}
    {start : Nat} {guard : Option String} (hvalid : route.Valid) (hmode : mode ≠ .static)
    (hplan : plan = { tieredPlan req route mode result start with guard := guard }) (hp : p ∈ plan.legs) :
    plan.ReportsTruly req p ↔ ∀ q, IsFirst PlannedLeg.modelKey p.modelKey plan.legs q →
      q.tier = p.tier ∧ (clientSetsEffort req = true ∨ q.leg.effort = p.leg.effort) := by
  obtain ⟨q, hq, hfirst, htier, hdecided, heffort⟩ := reportFor_first hp
  have hnames : plan.tierNames = route.tiers.map (·.name) := by
    rw [hplan]
    rfl
  have hlt : ∀ r ∈ plan.legs, r.tier < plan.tierNames.length := by
    intro r hr
    rw [hplan] at hr
    obtain ⟨t, ht, -⟩ := effort_of_mem_orderLegs hr
    rw [hnames, List.length_map]
    exact (List.getElem?_eq_some_iff.mp ht).1
  have hreplaced : plan.clientEffort = true ↔ ClientReplaces req plan p := by
    subst hplan
    show (effortPolicy req _ == .client) = true ↔ clientSetsEffort req = true ∧ (mode = .static → _)
    unfold effortPolicy
    by_cases hc : clientSetsEffort req = true
    · simp [hc, hmode]
    · simp [hc]
  have hset : ClientReplaces req plan p ↔ clientSetsEffort req = true := by
    subst hplan
    exact ⟨fun h => h.1, fun h => ⟨h, fun hm => absurd hm hmode⟩⟩
  unfold RoutePlan.ReportsTruly
  simp only
  rw [htier, hdecided, heffort, trueOf_iff (hnames ▸ hvalid.names) (hlt p hp) (hlt q hq) hreplaced, hset]
  constructor
  · intro h q' hq'
    rw [hfirst] at hq'
    exact hq' ▸ h
  · exact fun h => h q ((hfirst q).mpr rfl)

end

/-! ## The tables a plan is made from -/

/-- Legs have no effort in a file; a plan stamps them. -/
def RoutesFile.Unstamped (file : RoutesFile) : Prop :=
  ∀ name entry legs, (name, entry) ∈ file.routes → entry.legs = some legs → ∀ l ∈ legs, l.effort = none

theorem staticLegs_stamped (r : JevRoute) : ∀ l ∈ r.staticLegs, l.effort.isSome = true := by
  intro l hl
  obtain ⟨p, hp, rfl⟩ := List.mem_map.mp hl
  obtain ⟨i, -, hp⟩ := List.mem_flatMap.mp hp
  cases ht : r.tiers[i]? with
  | none =>
    rw [ht] at hp
    cases hp
  | some t =>
    rw [ht] at hp
    obtain ⟨l, -, rfl⟩ := List.mem_map.mp hp
    rfl

theorem routeKind_static {name : String} {entry : RouteEntry} {legs : List ChainLeg}
    (h : routeKind name entry = .ok (legs, none)) : entry.legs = some legs := by
  unfold routeKind at h
  split at h
  · cases h
  · rename_i hlegs
    cases h
    exact hlegs
  · cases h
  · split at h
    · split at h
      · cases h
      · obtain ⟨r, -, heq⟩ := Fallible.of_map_ok h
        cases heq
    · cases h
  · cases h

theorem fromFile_stampedAlike {file : RoutesFile} {t : RouteTable} (hfile : file.Unstamped)
    (h : RouteTable.fromFile file = .ok t) {model : String} {legs : List ChainLeg} (hlegs : t.legs model = some legs) :
    StampedAlike legs := by
  obtain ⟨kinds, hkinds, h⟩ := Fallible.of_bind_ok h
  cases h
  obtain ⟨⟨name, legs', jev⟩, hmem, heq⟩ := List.mem_map.mp (Assoc.mem_of_lookup hlegs)
  cases heq
  obtain ⟨⟨name', entry⟩, hentry, hkind⟩ := Fallible.mem_of_mapM_ok hkinds hmem
  obtain ⟨kind, hkind, heq⟩ := Fallible.of_map_ok hkind
  cases heq
  cases jev with
  | some r => exact .inr ((routeKind_jev hkind).2 ▸ staticLegs_stamped r)
  | none => exact .inl (hfile _ _ _ hentry (routeKind_static hkind))

theorem StampedAlike.filter {legs : List ChainLeg} (h : StampedAlike legs) (p : ChainLeg → Bool) :
    StampedAlike (legs.filter p) :=
  h.imp (fun h l hl => h l (List.mem_filter.mp hl).1) (fun h l hl => h l (List.mem_filter.mp hl).1)

/-- A table of a file, or what pruning leaves of one. -/
def RouteTable.FromFile (file : RoutesFile) (t : RouteTable) : Prop :=
  ∃ loaded, RouteTable.fromFile file = .ok loaded ∧ loaded.PrunedTo t

theorem RouteTable.FromFile.valid {file : RoutesFile} {t : RouteTable} (h : RouteTable.FromFile file t) : t.Valid := by
  obtain ⟨loaded, hload, hpruned⟩ := h
  exact hpruned.valid (fromFile_valid hload)

theorem RouteTable.FromFile.stampedAlike {file : RoutesFile} {t : RouteTable} (hfile : file.Unstamped)
    (h : RouteTable.FromFile file t) {model : String} {legs : List ChainLeg} (hlegs : t.legs model = some legs) :
    StampedAlike legs := by
  obtain ⟨loaded, hload, hpruned⟩ := h
  induction hpruned generalizing legs with
  | refl => exact fromFile_stampedAlike hfile hload hlegs
  | prune drop hu ih =>
    rw [(hu.valid (fromFile_valid hload)).legs_withoutProviders drop, Option.filter_eq_some_iff,
      Option.map_eq_some_iff] at hlegs
    obtain ⟨⟨before, hbefore, rfl⟩, -⟩ := hlegs
    exact (ih hbefore).filter _

/-! ## The plans of a request -/

section
variable {table : RouteTable} {req : RoutedRequest} {masked : Except GatewayError Bool}
  {result : Except DecisionOutcome JevAnswers} {plan : RoutePlan}

theorem planTiered_ok {route : JevRoute} {mode : RoutingMode} (h : planTiered req route mode result = .ok plan) :
    ∃ start, plan = tieredPlan req route mode result start := by
  by_cases hblock : hasJevBlock req = true
  · unfold planTiered at h
    rw [if_pos hblock] at h
    cases h
  · rcases @planTiered_cases req route mode result (by simpa using hblock) with ⟨e, he, -⟩ | ⟨start, -, hok⟩
    · rw [he] at h
      cases h
    · rw [hok] at h
      cases h
      exact ⟨start, rfl⟩

theorem planRoute_cases (h : planRoute table req masked result = .ok plan) : ∃ guard : Option String,
    (∃ legs, table.legs req.model = some legs ∧
      plan = { RoutePlan.staticLegs legs (clientSetsEffort req) with guard := guard }) ∨
    ∃ route mode start, table.jevRoute req.model = some route ∧ mode ≠ .static ∧
      plan = { tieredPlan req route mode result start with guard := guard } := by
  unfold planRoute at h
  split at h
  · cases h
  · rename_i legs hlegs
    obtain ⟨mode, hmode, h⟩ := Fallible.of_bind_ok h
    obtain ⟨rewritten, -, h⟩ := Fallible.of_bind_ok h
    obtain ⟨plan', hplan', rfl⟩ := Fallible.of_map_ok h
    refine ⟨if rewritten then some "masked" else none, ?_⟩
    split at hplan'
    · rename_i route hroute _
      obtain ⟨start, rfl⟩ := planTiered_ok hplan'
      exact .inr ⟨route, .jev, start, hroute, by decide, rfl⟩
    · rename_i route hroute _
      obtain ⟨start, rfl⟩ := planTiered_ok hplan'
      exact .inr ⟨route, .staticOverride, start, hroute, by decide, rfl⟩
    · cases hplan'
      exact .inl ⟨legs, hlegs, rfl⟩

/-- A leg is reported truly exactly where the first planned leg of its provider and model
is of the same tier and stamped alike. -/
theorem reportsTruly_iff {file : RoutesFile} (hfile : file.Unstamped) (htable : RouteTable.FromFile file table)
    (h : planRoute table req masked result = .ok plan) {p : PlannedLeg} (hp : p ∈ plan.legs) :
    plan.ReportsTruly req p ↔ ∀ q, IsFirst PlannedLeg.modelKey p.modelKey plan.legs q →
      q.tier = p.tier ∧ (clientSetsEffort req = true ∨ q.leg.effort = p.leg.effort) := by
  obtain ⟨guard, ⟨legs, hlegs, hplan⟩ | ⟨route, mode, start, hroute, hmode, hplan⟩⟩ := planRoute_cases h
  · exact reportsTruly_static (htable.stampedAlike hfile hlegs) hplan hp
  · exact reportsTruly_tiered (htable.valid.jev _ _ (Assoc.mem_of_lookup hroute)).1 hmode hplan hp

end

end SynapseGateway
