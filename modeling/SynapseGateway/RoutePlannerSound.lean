import SynapseGateway.RoutePlanner

/-!
# What the plan of a jev route holds

The legs a request can use, each once for each time it is configured, from the
tier that serves the decided one on. A score is rounded half up but for a single
one below a half, which the sum with a half rounds to one.
-/

namespace SynapseGateway

/-! ## The tier that serves -/

/-- `start` has legs; from `wanted` on it is the first tier that has, or none
has and it is the last below. -/
structure ServesNearest (tiers : List Tier) (wanted start : Nat) : Prop where
  serves : serving tiers start = true
  harder : wanted ≤ start → ∀ i, wanted ≤ i → i < start → serving tiers i = false
  easier : start < wanted → ∀ i, start < i → serving tiers i = false

theorem serving_lt {tiers : List Tier} {i : Nat} (h : serving tiers i = true) : i < tiers.length := by
  unfold serving at h
  cases hi : tiers[i]? with
  | none => simp [hi] at h
  | some t => exact (List.getElem?_eq_some_iff.mp hi).1

theorem serving_eq_false {tiers : List Tier} {i : Nat} (h : tiers.length ≤ i) : serving tiers i = false := by
  rw [serving, List.getElem?_eq_none h]
  rfl

theorem find?_range_reverse {p : Nat → Bool} {n i : Nat} (h : (List.range n).reverse.find? p = some i) :
    p i = true ∧ ∀ j, i < j → j < n → p j = false := by
  induction n with
  | zero => cases h
  | succ n ih =>
    rw [List.range_succ, List.reverse_append, List.reverse_singleton, List.singleton_append, List.find?_cons] at h
    cases hn : p n with
    | true =>
      rw [hn] at h
      cases h
      exact ⟨hn, fun j hj hjn => by omega⟩
    | false =>
      rw [hn] at h
      obtain ⟨hi, hbetween⟩ := ih h
      refine ⟨hi, fun j hj hjn => ?_⟩
      rcases Nat.lt_or_eq_of_le (Nat.le_of_lt_succ hjn) with hjn | rfl
      · exact hbetween j hj hjn
      · exact hn

theorem nearestServing_eq_some {tiers : List Tier} {wanted start : Nat}
    (h : nearestServing tiers wanted = some start) : ServesNearest tiers wanted start := by
  unfold nearestServing at h
  cases hup : (List.range' wanted (tiers.length - wanted)).find? (serving tiers) with
  | some s =>
    rw [hup] at h
    cases h
    obtain ⟨hs, hmem, hbelow⟩ := List.find?_range'_eq_some.mp hup
    rw [List.mem_range'_1] at hmem
    refine ⟨hs, fun _ i hi his => by simpa using hbelow i hi his, fun hlt => by omega⟩
  | none =>
    rw [hup, Option.none_or] at h
    rw [List.find?_range'_eq_none] at hup
    obtain ⟨hs, hbetween⟩ := find?_range_reverse h
    have hmem := List.mem_of_find?_eq_some h
    rw [List.mem_reverse, List.mem_range] at hmem
    refine ⟨hs, fun hle => by omega, fun _ i hi => ?_⟩
    by_cases hlen : tiers.length ≤ i
    · exact serving_eq_false hlen
    · by_cases hw : wanted ≤ i
      · simpa using hup i hw (by omega)
      · exact hbetween i hi (by omega)

theorem nearestServing_eq_none {tiers : List Tier} {wanted : Nat} :
    nearestServing tiers wanted = none ↔ ∀ i, serving tiers i = false := by
  unfold nearestServing
  rw [Option.or_eq_none_iff, List.find?_range'_eq_none, List.find?_eq_none]
  constructor
  · rintro ⟨hup, hdown⟩ i
    by_cases hlen : tiers.length ≤ i
    · exact serving_eq_false hlen
    · by_cases hw : wanted ≤ i
      · simpa using hup i hw (by omega)
      · simpa using hdown i (List.mem_reverse.mpr (List.mem_range.mpr (by omega)))
  · intro hall
    exact ⟨fun i _ _ => by simp [hall i], fun i _ => by simp [hall i]⟩

/-! ## The legs of a plan -/

/-- The planned legs of tier `i`. -/
def tierLegs (tiers : List Tier) (policy : EffortPolicy) (i : Nat) : List PlannedLeg :=
  match tiers[i]? with
  | none => []
  | some t => t.legs.map fun l => ⟨{ l with effort := t.effortUnder policy }, i⟩

theorem tier_of_mem_tierLegs (tiers : List Tier) (policy : EffortPolicy) (i : Nat) :
    ∀ p ∈ tierLegs tiers policy i, p.tier = i := by
  intro p hp
  unfold tierLegs at hp
  cases hi : tiers[i]? with
  | none => simp [hi] at hp
  | some t =>
    simp only [hi, List.mem_map] at hp
    obtain ⟨l, -, rfl⟩ := hp
    rfl

theorem tierLegs_ne_nil {tiers : List Tier} {i : Nat} (policy : EffortPolicy) (h : serving tiers i = true) :
    tierLegs tiers policy i ≠ [] := by
  unfold serving at h
  unfold tierLegs
  cases hi : tiers[i]? with
  | none => simp [hi] at h
  | some t =>
    simp only [hi, Option.map_some, Option.getD_some, Bool.not_eq_true'] at h
    simp only [ne_eq, List.map_eq_nil_iff]
    rintro hnil
    rw [hnil] at h
    cases h

theorem orderLegs_eq (tiers : List Tier) (start : Nat) (policy : EffortPolicy) :
    orderLegs tiers start policy = (escalationOrder tiers.length start).flatMap (tierLegs tiers policy) := rfl

theorem orderLegs_filter (tiers : List Tier) (start : Nat) (policy : EffortPolicy) (i : Nat) :
    (orderLegs tiers start policy).filter (fun p => decide (p.tier = i)) = tierLegs tiers policy i := by
  rw [orderLegs_eq, Grouped.filter_flatMap (escalationOrder_nodup _ _) (tier_of_mem_tierLegs tiers policy)]
  by_cases hi : i < tiers.length
  · rw [if_pos (mem_escalationOrder.mpr hi)]
  · rw [if_neg fun hmem => hi (mem_escalationOrder.mp hmem), tierLegs, List.getElem?_eq_none (by omega)]

theorem orderLegs_pairwise {tiers : List Tier} {start : Nat} (policy : EffortPolicy) (h : start < tiers.length) :
    (orderLegs tiers start policy).Pairwise fun p q => p.tier = q.tier ∨ TierBefore start p.tier q.tier := by
  have hpairwise := escalationOrder_pairwise tiers.length start
  rw [Nat.min_eq_left (by omega)] at hpairwise
  rw [orderLegs_eq]
  exact Grouped.pairwise_flatMap hpairwise (tier_of_mem_tierLegs tiers policy)

theorem orderLegs_head {tiers : List Tier} {start : Nat} (policy : EffortPolicy) (h : serving tiers start = true) :
    (orderLegs tiers start policy).head?.map (·.tier) = some start := by
  rw [orderLegs_eq, escalationOrder_head (serving_lt h), Grouped.head?_flatMap_cons _ (tierLegs_ne_nil policy h)]
  cases hlegs : tierLegs tiers policy start with
  | nil => exact absurd hlegs (tierLegs_ne_nil policy h)
  | cons p rest =>
    rw [List.head?_cons, Option.map_some, tier_of_mem_tierLegs tiers policy start p (hlegs ▸ List.mem_cons_self)]

/-! ## The decision -/

def IsDefaultTier (route : JevRoute) (d : Nat) : Prop :=
  (route.tiers[d]?).map (·.name) = some route.router.defaultTier

/-- The tier of the score, rounded half up and within the tiers, where Jev is
asked and sure enough; the default tier otherwise. -/
def DecidedTier (route : JevRoute) (mode : RoutingMode) (result : Except DecisionOutcome JevAnswers) (d : Nat) : Prop :=
  match mode with
  | .staticOverride => IsDefaultTier route d
  | .static | .jev =>
    match result with
    | .error _ => IsDefaultTier route d
    | .ok a =>
      if route.router.minConfidence ≤ a.confidence then
        (d : ℤ) = max 0 (min ⌊a.difficulty + 1 / 2⌋ (route.tiers.length - 1))
      else IsDefaultTier route d

/-- Jev is asked, answers, and gives reasoning at least the threshold. -/
def NeedsReasoning (route : JevRoute) (mode : RoutingMode) (result : Except DecisionOutcome JevAnswers) : Prop :=
  mode ≠ .staticOverride ∧ ∃ a p, result = .ok a ∧ a.needsReasoning = some p ∧ route.router.reasoningThreshold ≤ p

theorem isDefaultTier_defaultIndex {route : JevRoute} (h : route.Valid) : IsDefaultTier route route.defaultIndex := by
  obtain ⟨t, ht, hname⟩ := List.mem_map.mp h.default
  unfold IsDefaultTier JevRoute.defaultIndex
  cases hfind : route.tiers.findIdx? fun t => t.name == route.router.defaultTier with
  | none => simpa [hname] using List.findIdx?_eq_none_iff.mp hfind t ht
  | some d =>
    obtain ⟨hd, hp, -⟩ := List.findIdx?_eq_some_iff_getElem.mp hfind
    simp [List.getElem?_eq_getElem hd, beq_iff_eq.mp hp]

theorem scoreToTier_eq (score : ℚ) {tiers : Nat} (h : 1 ≤ tiers) :
    (scoreToTier score tiers : ℤ) = max 0 (min ⌊Binary64.round (score + 1 / 2)⌋ (tiers - 1)) := by
  rw [scoreToTier]
  generalize ⌊Binary64.round (score + 1 / 2)⌋ = n
  omega

theorem scoreToTier_belowHalf {tiers : Nat} (h : 2 ≤ tiers) : scoreToTier Binary64.belowHalf tiers = 1 := by
  have hfloor : ⌊Binary64.round (Binary64.belowHalf + 1 / 2)⌋ = 1 := by decide +kernel
  rw [scoreToTier, hfloor]
  omega

/-- A score rounds half up, but for the largest one below a half. -/
theorem scoreToTier_rounds {score : ℚ} {tiers : Nat} (hscore : Binary64.IsDouble score) (hne : score ≠ Binary64.belowHalf)
    (htiers : 1 ≤ tiers) (hmax : tiers ≤ MAX_TIERS) :
    (scoreToTier score tiers : ℤ) = max 0 (min ⌊score + 1 / 2⌋ (tiers - 1)) := by
  rw [scoreToTier_eq score htiers]
  have hmax : tiers ≤ 10 := hmax
  rcases lt_or_ge (score + 1 / 2) 0 with hneg | hlow
  · -- both are below the first tier
    have hround : ⌊Binary64.round (score + 1 / 2)⌋ ≤ 0 := by
      exact_mod_cast (Int.floor_le _).trans (Binary64.round_nonpos hneg.le)
    have hfloor : ⌊score + 1 / 2⌋ ≤ 0 := by
      exact_mod_cast (Int.floor_le _).trans hneg.le
    omega
  · rcases lt_or_ge (score + 1 / 2) (2 ^ 51) with hhigh | hlarge
    · rw [(Binary64.floor_round_add_half hscore hlow hhigh).mpr hne]
    · -- both are past the last tier
      have hround : (10 : ℤ) ≤ ⌊Binary64.round (score + 1 / 2)⌋ := by
        rw [Int.le_floor]
        have hhalf := Binary64.half_le_round (show 1 ≤ score + 1 / 2 by linarith)
        push_cast
        linarith
      have hfloor : (10 : ℤ) ≤ ⌊score + 1 / 2⌋ := by
        rw [Int.le_floor]
        push_cast
        linarith
      omega

theorem IsDefaultTier.lt {route : JevRoute} {d : Nat} (h : IsDefaultTier route d) : d < route.tiers.length := by
  obtain ⟨t, ht, -⟩ := Option.map_eq_some_iff.mp h
  exact (List.getElem?_eq_some_iff.mp ht).1

theorem scoreToTier_lt (score : ℚ) {tiers : Nat} (h : 1 ≤ tiers) : scoreToTier score tiers < tiers := by
  unfold scoreToTier
  omega

/-- A decision that is used scores the largest number below a half. -/
def Misrounded (route : JevRoute) (mode : RoutingMode) (result : Except DecisionOutcome JevAnswers) : Prop :=
  mode ≠ .staticOverride ∧
    ∃ a, result = .ok a ∧ route.router.minConfidence ≤ a.confidence ∧ a.difficulty = Binary64.belowHalf

section
variable {route : JevRoute} {mode : RoutingMode} {result : Except DecisionOutcome JevAnswers}

theorem selection_misrounded (h : route.Valid) (hm : Misrounded route mode result) :
    (route.selection mode result).tier = 1 ∧ ¬ DecidedTier route mode result 1 := by
  obtain ⟨hmode, a, rfl, hc, hscore⟩ := hm
  have hselect : (select (.ok a) route).tier = 1 := by
    unfold select
    simp only [not_lt.mpr hc, ite_false, hscore]
    exact scoreToTier_belowHalf h.two
  have hfloor : ⌊Binary64.belowHalf + 1 / 2⌋ = 0 := by decide +kernel
  have hnot : ¬ DecidedTier route .jev (.ok a) 1 := by
    unfold DecidedTier
    simp only [if_pos hc, hscore, hfloor]
    omega
  cases mode with
  | staticOverride => exact absurd rfl hmode
  | static => exact ⟨hselect, hnot⟩
  | jev => exact ⟨hselect, hnot⟩

theorem select_lt (h : route.Valid) (result : Except DecisionOutcome JevAnswers) :
    (select result route).tier < route.tiers.length := by
  have hlen : 1 ≤ route.tiers.length := Nat.le_of_lt h.two
  have hdefault := isDefaultTier_defaultIndex h
  cases result with
  | error outcome => exact hdefault.lt
  | ok a =>
    unfold select
    by_cases hc : a.confidence < route.router.minConfidence
    · simp only [hc, ite_true]
      exact hdefault.lt
    · simp only [hc, ite_false]
      exact scoreToTier_lt _ hlen

theorem select_decided (h : route.Valid) (hmax : route.tiers.length ≤ MAX_TIERS)
    (hscore : ∀ a, result = .ok a → Binary64.IsDouble a.difficulty) (hm : ¬ Misrounded route .jev result) :
    DecidedTier route .jev result (select result route).tier := by
  have hlen : 1 ≤ route.tiers.length := Nat.le_of_lt h.two
  have hdefault := isDefaultTier_defaultIndex h
  cases result with
  | error outcome => exact hdefault
  | ok a =>
    unfold select DecidedTier
    by_cases hc : a.confidence < route.router.minConfidence
    · simp only [hc, ite_true, if_neg (not_le.mpr hc)]
      exact hdefault
    · have hne : a.difficulty ≠ Binary64.belowHalf := by
        intro hbelow
        exact hm ⟨by simp, a, rfl, not_lt.mp hc, hbelow⟩
      simp only [hc, ite_false, if_pos (not_lt.mp hc)]
      exact scoreToTier_rounds (hscore a rfl) hne hlen hmax

theorem selection_decided (h : route.Valid) (hmax : route.tiers.length ≤ MAX_TIERS)
    (hscore : ∀ a, result = .ok a → Binary64.IsDouble a.difficulty) (hm : ¬ Misrounded route mode result) :
    DecidedTier route mode result (route.selection mode result).tier := by
  cases mode with
  | staticOverride => exact isDefaultTier_defaultIndex h
  | static => exact select_decided h hmax hscore fun hm' => hm ⟨by simp, hm'.2⟩
  | jev => exact select_decided h hmax hscore hm

theorem selection_lt (h : route.Valid) (mode : RoutingMode) (result : Except DecisionOutcome JevAnswers) :
    (route.selection mode result).tier < route.tiers.length := by
  cases mode with
  | staticOverride => exact (isDefaultTier_defaultIndex h).lt
  | static => exact select_lt h result
  | jev => exact select_lt h result

end

theorem select_bump (route : JevRoute) (result : Except DecisionOutcome JevAnswers) :
    (select result route).bump = true ↔
      ∃ a p, result = .ok a ∧ a.needsReasoning = some p ∧ route.router.reasoningThreshold ≤ p := by
  cases result with
  | error outcome => simp [select]
  | ok a =>
    have hbump : (select (.ok a) route).bump = a.needsReasoning.any (· ≥ route.router.reasoningThreshold) := by
      unfold select
      by_cases hc : a.confidence < route.router.minConfidence <;> simp [hc]
    rw [hbump, Option.any_eq_true]
    simp

theorem selection_bump (route : JevRoute) (mode : RoutingMode) (result : Except DecisionOutcome JevAnswers) :
    (route.selection mode result).bump = true ↔ NeedsReasoning route mode result := by
  unfold NeedsReasoning
  cases mode with
  | staticOverride => simp [JevRoute.selection]
  | static => simpa [JevRoute.selection] using select_bump route result
  | jev => simpa [JevRoute.selection] using select_bump route result

/-! ## The plan of a jev route -/

def ChainLeg.unstamped (l : ChainLeg) : ChainLeg := { l with effort := none }

structure PlansTiers (req : RoutedRequest) (route : JevRoute) (mode : RoutingMode)
    (result : Except DecisionOutcome JevAnswers) (plan : RoutePlan) : Prop where
  /-- The first leg is of the tier that serves the decided one, the others follow in tier order. -/
  order : ∃ d start, plan.decided = some d ∧ d < route.tiers.length ∧ DecidedTier route mode result d ∧
    ServesNearest (route.eligibleTiers (vertexTriggers req)) d start ∧ plan.legs.head?.map (·.tier) = some start ∧
    plan.legs.Pairwise fun p q => p.tier = q.tier ∨ TierBefore start p.tier q.tier
  /-- The legs of each tier are those the request can use, as configured. -/
  legs : ∀ i, (plan.legs.filter fun p => decide (p.tier = i)).map (·.leg.unstamped) =
    ((route.tiers[i]?).map fun t =>
      (t.legs.filter (usable (vertexTriggers req))).map ChainLeg.unstamped).getD []
  effort : ∀ p ∈ plan.legs, ∃ t, route.tiers[p.tier]? = some t ∧
    (clientSetsEffort req = true → p.leg.effort = none) ∧
    (clientSetsEffort req = false → NeedsReasoning route mode result → p.leg.effort = some t.effort.bump) ∧
    (clientSetsEffort req = false → ¬ NeedsReasoning route mode result → p.leg.effort = some t.effort)

section
variable {route : JevRoute} {v : Bool}

theorem eligibleTiers_getElem? (i : Nat) : (route.eligibleTiers v)[i]? = (route.tiers[i]?).map (Tier.eligible v) := by
  rw [JevRoute.eligibleTiers, List.getElem?_map]

theorem serving_eligible_eq_false :
    (∀ i, serving (route.eligibleTiers v) i = false) ↔ ∀ t ∈ route.tiers, ∀ l ∈ t.legs, usable v l = false := by
  constructor
  · intro h t ht l hl
    obtain ⟨i, hi, rfl⟩ := List.getElem_of_mem ht
    have hi' := h i
    rw [serving, eligibleTiers_getElem?, List.getElem?_eq_getElem hi] at hi'
    simp only [Option.map_some, Option.getD_some, Tier.eligible, Bool.not_eq_false', List.isEmpty_iff,
      List.filter_eq_nil_iff] at hi'
    simpa using hi' l hl
  · intro h i
    rw [serving, eligibleTiers_getElem?]
    cases hi : route.tiers[i]? with
    | none => rfl
    | some t =>
      have ht := List.mem_of_getElem? hi
      simp only [Option.map_some, Option.getD_some, Tier.eligible, Bool.not_eq_false', List.isEmpty_iff,
        List.filter_eq_nil_iff]
      intro l hl
      simp [h t ht l hl]

theorem tierLegs_eligible (policy : EffortPolicy) (i : Nat) :
    (tierLegs (route.eligibleTiers v) policy i).map (·.leg.unstamped) =
      ((route.tiers[i]?).map fun t => (t.legs.filter (usable v)).map ChainLeg.unstamped).getD [] := by
  unfold tierLegs
  rw [eligibleTiers_getElem?]
  cases route.tiers[i]? with
  | none => rfl
  | some t => simp [Tier.eligible, ChainLeg.unstamped]

theorem effort_of_mem_orderLegs {start : Nat} {policy : EffortPolicy} {p : PlannedLeg}
    (h : p ∈ orderLegs (route.eligibleTiers v) start policy) :
    ∃ t, route.tiers[p.tier]? = some t ∧ p.leg.effort = t.effortUnder policy := by
  rw [orderLegs_eq, List.mem_flatMap] at h
  obtain ⟨i, -, hp⟩ := h
  unfold tierLegs at hp
  rw [eligibleTiers_getElem?] at hp
  cases hi : route.tiers[i]? with
  | none => simp [hi] at hp
  | some t =>
    simp only [hi, Option.map_some, List.mem_map] at hp
    obtain ⟨l, -, rfl⟩ := hp
    refine ⟨t, hi, ?_⟩
    cases policy with
    | client => rfl
    | tier bump => cases bump <;> rfl

end

section
variable {req : RoutedRequest} {route : JevRoute} {mode : RoutingMode} {result : Except DecisionOutcome JevAnswers}

/-- The plan that starts at tier `start`. -/
def tieredPlan (req : RoutedRequest) (route : JevRoute) (mode : RoutingMode)
    (result : Except DecisionOutcome JevAnswers) (start : Nat) : RoutePlan where
  mode := mode
  legs := orderLegs (route.eligibleTiers (vertexTriggers req)) start (effortPolicy req (route.selection mode result))
  tierNames := route.tiers.map (·.name)
  decided := some (route.selection mode result).tier
  outcome := some (route.selection mode result).outcome
  clientEffort := effortPolicy req (route.selection mode result) == .client
  guard := none

theorem planTiered_cases (hblock : hasJevBlock req = false) :
    (∃ e, planTiered req route mode result = .error e ∧
      ∀ i, serving (route.eligibleTiers (vertexTriggers req)) i = false) ∨
    ∃ start, ServesNearest (route.eligibleTiers (vertexTriggers req)) (route.selection mode result).tier start ∧
      planTiered req route mode result = .ok (tieredPlan req route mode result start) := by
  unfold planTiered
  simp only [hblock]
  cases h0 : nearestServing (route.eligibleTiers (vertexTriggers req)) 0 with
  | none => exact .inl ⟨_, rfl, nearestServing_eq_none.mp h0⟩
  | some first =>
    cases hs : nearestServing (route.eligibleTiers (vertexTriggers req)) (route.selection mode result).tier with
    | none => exact .inl ⟨_, rfl, nearestServing_eq_none.mp hs⟩
    | some start => exact .inr ⟨start, nearestServing_eq_some hs, rfl⟩

theorem planTiered_error (hblock : hasJevBlock req = false) :
    (∃ e, planTiered req route mode result = .error e) ↔
      ∀ t ∈ route.tiers, ∀ l ∈ t.legs, usable (vertexTriggers req) l = false := by
  rw [← serving_eligible_eq_false]
  rcases @planTiered_cases req route mode result hblock with ⟨e, he, hnone⟩ | ⟨start, hs, hok⟩
  · exact iff_of_true ⟨e, he⟩ hnone
  · refine iff_of_false ?_ ?_
    · rintro ⟨e, he⟩
      rw [hok] at he
      cases he
    · intro hnone
      have := hs.serves
      rw [hnone start] at this
      cases this

theorem plansTiers_tieredPlan (h : route.Valid) {start : Nat}
    (hdecided : DecidedTier route mode result (route.selection mode result).tier)
    (hs : ServesNearest (route.eligibleTiers (vertexTriggers req)) (route.selection mode result).tier start) :
    PlansTiers req route mode result (tieredPlan req route mode result start) := by
  have hlt := serving_lt hs.serves
  constructor
  · exact ⟨_, start, rfl, selection_lt h mode result, hdecided, hs, orderLegs_head _ hs.serves, orderLegs_pairwise _ hlt⟩
  · intro i
    rw [tieredPlan, orderLegs_filter]
    exact tierLegs_eligible _ i
  · intro p hp
    obtain ⟨t, ht, heffort⟩ := effort_of_mem_orderLegs hp
    refine ⟨t, ht, ?_, ?_, ?_⟩
    · intro hc
      rw [heffort, effortPolicy, if_pos hc]
      rfl
    · intro hc hneeds
      rw [heffort, effortPolicy, if_neg (by simp [hc]), (selection_bump route mode result).mpr hneeds]
      rfl
    · intro hc hneeds
      have hbump : (route.selection mode result).bump = false := by
        rw [← Bool.not_eq_true, selection_bump]
        exact hneeds
      rw [heffort, effortPolicy, if_neg (by simp [hc]), hbump]
      rfl

end

/-- Planning errs only when no leg can serve, and its plan is the right one. -/
def PlansRightly (req : RoutedRequest) (route : JevRoute) (mode : RoutingMode)
    (result : Except DecisionOutcome JevAnswers) : Prop :=
  ((∃ e, planTiered req route mode result = .error e) ↔
      ∀ t ∈ route.tiers, ∀ l ∈ t.legs, usable (vertexTriggers req) l = false) ∧
    ∀ plan, planTiered req route mode result = .ok plan → PlansTiers req route mode result plan

/-- Exactly when no leg can serve, or the decision that is used does not score
the one number that is rounded wrongly. -/
theorem plan_tiered_rightly_iff (req : RoutedRequest) (route : JevRoute) (mode : RoutingMode)
    (result : Except DecisionOutcome JevAnswers) (hvalid : route.Valid) (hmax : route.tiers.length ≤ MAX_TIERS)
    (hscore : ∀ a, result = .ok a → Binary64.IsDouble a.difficulty) (hblock : hasJevBlock req = false) :
    PlansRightly req route mode result ↔
      (∀ t ∈ route.tiers, ∀ l ∈ t.legs, usable (vertexTriggers req) l = false) ∨ ¬ Misrounded route mode result := by
  unfold PlansRightly
  rw [and_iff_right (planTiered_error hblock)]
  rcases planTiered_cases hblock with ⟨e, he, hnone⟩ | ⟨start, hs, hok⟩
  · rw [he]
    exact iff_of_true (fun plan hplan => by cases hplan) (.inl (serving_eligible_eq_false.mp hnone))
  · have hserve : ¬ ∀ t ∈ route.tiers, ∀ l ∈ t.legs, usable (vertexTriggers req) l = false := by
      rw [← serving_eligible_eq_false]
      intro hnone
      have hserves := hs.serves
      rw [hnone start] at hserves
      cases hserves
    rw [hok, or_iff_right hserve]
    constructor
    · intro h hm
      obtain ⟨htier, hnot⟩ := selection_misrounded hvalid hm
      obtain ⟨d, -, hd, -, hdecided, -⟩ := (h _ rfl).order
      cases Option.some.inj hd
      rw [htier] at hdecided
      exact hnot hdecided
    · intro hm plan hplan
      cases hplan
      exact plansTiers_tieredPlan hvalid (selection_decided hvalid hmax hscore hm) hs

def twoTiers : JevRoute where
  router := { defaultTier := "hard" }
  tiers := [
    ⟨"simple", "Short answers", .low, [⟨"openai", "gpt-4o-mini", none, none⟩, ⟨"vertex", "gemini-flash", none, none⟩]⟩,
    ⟨"hard", "Proofs", .high, [⟨"anthropic", "claude", none, none⟩]⟩]

theorem twoTiers_valid : twoTiers.Valid := by
  refine { two := ?_, names := ?_, legs := ?_, default := ?_ } <;> decide

/-- A request with a cached content, which only the easier tier can serve. -/
def cachedRequest : RoutedRequest := { model := "chat", vertex := some { cachedContent := some "cachedContents/a".toList } }

theorem plan_tiered_rightly_half :
    PlansRightly cachedRequest twoTiers .jev (.ok ⟨1 / 2, 1, none⟩) ↔
      (∀ t ∈ twoTiers.tiers, ∀ l ∈ t.legs, usable (vertexTriggers cachedRequest) l = false) ∨
        ¬ Misrounded twoTiers .jev (.ok ⟨1 / 2, 1, none⟩) := by
  refine plan_tiered_rightly_iff cachedRequest twoTiers .jev _ twoTiers_valid (by decide) ?_ rfl
  intro a ha
  cases ha
  exact ⟨1, -1, by decide, by decide, by decide, by norm_num⟩

/-- Jev is sure that the request scores just below a half, and the second tier is chosen. -/
theorem below_half_misplanned : Binary64.IsDouble Binary64.belowHalf ∧ twoTiers.Valid ∧
    twoTiers.tiers.length ≤ MAX_TIERS ∧
    (∃ plan, planTiered { model := "chat" } twoTiers .jev (.ok ⟨Binary64.belowHalf, 1, none⟩) = .ok plan ∧
      plan.decided = some 1 ∧ plan.legs.head?.map (·.tier) = some 1) ∧
    ⌊Binary64.belowHalf + 1 / 2⌋ = 0 ∧
    ¬ PlansRightly { model := "chat" } twoTiers .jev (.ok ⟨Binary64.belowHalf, 1, none⟩) := by
  have hm : Misrounded twoTiers .jev (.ok ⟨Binary64.belowHalf, 1, none⟩) := ⟨by decide, _, rfl, by decide +kernel, rfl⟩
  obtain ⟨htier, hnot⟩ := selection_misrounded twoTiers_valid hm
  have hplan : ∃ plan, planTiered { model := "chat" } twoTiers .jev (.ok ⟨Binary64.belowHalf, 1, none⟩) = .ok plan ∧
      plan.decided = some 1 ∧ plan.legs.head?.map (·.tier) = some 1 := by
    have hrun : (planTiered { model := "chat" } twoTiers .jev (.ok ⟨Binary64.belowHalf, 1, none⟩)).toOption.map
        (fun plan => (plan.decided, plan.legs.head?.map (·.tier))) = some (some 1, some 1) := by decide +kernel
    cases hplan : planTiered { model := "chat" } twoTiers .jev (.ok ⟨Binary64.belowHalf, 1, none⟩) with
    | error e =>
      rw [hplan] at hrun
      cases hrun
    | ok plan =>
      rw [hplan] at hrun
      obtain ⟨hdecided, hhead⟩ := Prod.ext_iff.mp (Option.some.inj hrun)
      exact ⟨plan, rfl, hdecided, hhead⟩
  refine ⟨⟨2 ^ 53 - 1, -54, by decide, by decide, by decide, by norm_num [Binary64.belowHalf]⟩, twoTiers_valid,
    by decide, hplan, by decide +kernel, ?_⟩
  intro h
  obtain ⟨plan, hok, hdecided, -⟩ := hplan
  obtain ⟨d, -, hd, -, hdec, -⟩ := (h.2 plan hok).order
  rw [hdecided] at hd
  cases hd
  exact hnot hdec

end SynapseGateway
