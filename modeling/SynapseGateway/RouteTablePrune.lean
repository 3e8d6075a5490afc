import Mathlib.Data.Finset.Lattice.Basic
import SynapseGateway.Lib.Assoc
import SynapseGateway.Lib.Fallible
import SynapseGateway.Lib.Firsts
import SynapseGateway.RouteTable

/-!
# Pruning a route table

The legs that survive keep their order. For a jev route this is about tiers: the
order starts at the default tier, and pruning may move the default.
-/

namespace SynapseGateway

/-! ## Tiers -/

def keptTiers (drop : Finset String) (ts : List Tier) : List Tier :=
  (ts.map (·.without drop)).filter (!·.legs.isEmpty)

def Tier.stamped (t : Tier) : List ChainLeg := t.legs.map fun l => { l with effort := some t.effort }

section
variable {drop : Finset String}

theorem keptTiers_cons (drop : Finset String) (t : Tier) (ts : List Tier) :
    keptTiers drop (t :: ts) =
      if (t.without drop).legs = [] then keptTiers drop ts else t.without drop :: keptTiers drop ts := by
  by_cases h : (t.without drop).legs = []
  · simp [keptTiers, h]
  · simp [keptTiers, h]

theorem keptTiers_append (drop : Finset String) (ts us : List Tier) :
    keptTiers drop (ts ++ us) = keptTiers drop ts ++ keptTiers drop us := by
  simp [keptTiers]

theorem keptTiers_reverse (drop : Finset String) (ts : List Tier) :
    (keptTiers drop ts).reverse = keptTiers drop ts.reverse := by
  simp [keptTiers, List.filter_reverse]

theorem Tier.without_without (t : Tier) (A B : Finset String) : (t.without A).without B = t.without (A ∪ B) := by
  unfold Tier.without
  simp only [List.filter_filter, Finset.mem_union, not_or, Bool.decide_and, Tier.mk.injEq, true_and]
  apply List.filter_congr
  intro l _
  rw [Bool.and_comm]

theorem keptTiers_keptTiers (A B : Finset String) (ts : List Tier) :
    keptTiers B (keptTiers A ts) = keptTiers (A ∪ B) ts := by
  induction ts with
  | nil => rfl
  | cons t ts ih =>
    rw [keptTiers_cons, keptTiers_cons, ← Tier.without_without]
    by_cases h : (t.without A).legs = []
    · have h' : ((t.without A).without B).legs = [] := by
        show List.filter _ (t.without A).legs = []
        rw [h]
        rfl
      rw [if_pos h, if_pos h', ih]
    · rw [if_neg h, keptTiers_cons, ih]

theorem mem_keptTiers {t : Tier} {ts : List Tier} (h : t ∈ keptTiers drop ts) :
    t.legs ≠ [] ∧ ∃ u ∈ ts, t = u.without drop := by
  obtain ⟨hmem, hne⟩ := List.mem_filter.mp h
  obtain ⟨u, hu, rfl⟩ := List.mem_map.mp hmem
  exact ⟨by simpa using hne, u, hu, rfl⟩

theorem keptTiers_names (drop : Finset String) (ts : List Tier) :
    ((keptTiers drop ts).map (·.name)).Sublist (ts.map (·.name)) := by
  have h : (keptTiers drop ts).Sublist (ts.map (·.without drop)) := List.filter_sublist
  have hnames : (ts.map (·.without drop)).map (·.name) = ts.map (·.name) := by
    rw [List.map_map]
    rfl
  rw [← hnames]
  exact h.map _

theorem stamped_keptTiers (drop : Finset String) (ts : List Tier) :
    (keptTiers drop ts).flatMap Tier.stamped = (ts.flatMap Tier.stamped).filter (·.provider ∉ drop) := by
  induction ts with
  | nil => rfl
  | cons t ts ih =>
    have ht : (t.without drop).stamped = t.stamped.filter (·.provider ∉ drop) := by
      unfold Tier.stamped Tier.without
      rw [List.filter_map]
      rfl
    rw [keptTiers_cons, List.flatMap_cons, List.filter_append, ← ih, ← ht]
    by_cases h : (t.without drop).legs = []
    · simp [h, Tier.stamped]
    · simp [h]

theorem survivors_snd (r : JevRoute) (drop : Finset String) :
    (r.survivors drop).map (·.2) = keptTiers drop r.tiers := by
  unfold JevRoute.survivors keptTiers
  generalize 0 = n
  induction r.tiers generalizing n with
  | nil => rfl
  | cons t ts ih =>
    rw [List.zipIdx_cons, List.map_cons, List.map_cons, List.filter_cons, List.filter_cons]
    by_cases h : (t.without drop).legs = []
    · simpa [h] using ih (n + 1)
    · simpa [h] using ih (n + 1)

theorem survivors_find (ts : List Tier) (drop : Finset String) (d n : Nat) :
    ((((ts.zipIdx n).map fun (t, i) => (i, t.without drop)).filter (!·.2.legs.isEmpty)).find? (·.1 ≥ d)).map (·.2) =
      (keptTiers drop (ts.drop (d - n))).head? := by
  induction ts generalizing n with
  | nil => simp [keptTiers]
  | cons t ts ih =>
    rw [List.zipIdx_cons, List.map_cons, List.filter_cons]
    by_cases hd : d ≤ n
    · have hzero : d - n = 0 := by omega
      have hzero' : d - (n + 1) = 0 := by omega
      have ih := ih (n + 1)
      rw [hzero', List.drop_zero] at ih
      rw [hzero, List.drop_zero, keptTiers_cons]
      by_cases h : (t.without drop).legs = []
      · simpa [h] using ih
      · simp [h, hd]
    · have hsucc : d - n = (d - (n + 1)) + 1 := by omega
      rw [hsucc, List.drop_succ_cons, ← ih (n + 1)]
      by_cases h : (t.without drop).legs = []
      · simp [h]
      · simp [h, hd]

end

/-! ## The order of a jev route -/

theorem flatMap_range' (ts : List Tier) (f : Tier → List ChainLeg) (s n : Nat) (h : s + n = ts.length) :
    ((List.range' s n).flatMap fun i => (ts[i]?.map f).getD []) = (ts.drop s).flatMap f := by
  induction n generalizing s with
  | zero =>
    rw [List.drop_of_length_le (by omega)]
    rfl
  | succ n ih =>
    have hs : s < ts.length := by omega
    rw [List.range'_succ, List.flatMap_cons, ih (s + 1) (by omega), List.drop_eq_getElem_cons hs, List.flatMap_cons]
    simp [hs]

theorem flatMap_range_reverse (ts : List Tier) (f : Tier → List ChainLeg) (s : Nat) (h : s ≤ ts.length) :
    ((List.range s).reverse.flatMap fun i => (ts[i]?.map f).getD []) = (ts.take s).reverse.flatMap f := by
  induction s with
  | zero => rfl
  | succ s ih =>
    have hs : s < ts.length := by omega
    rw [List.range_succ, List.reverse_append, List.flatMap_append, ih (by omega), List.take_succ_eq_append_getElem hs,
      List.reverse_append, List.flatMap_append]
    simp [hs]

theorem orderLegs_stamped (ts : List Tier) (d : Nat) : (orderLegs ts d (.tier false)).map (·.leg) =
    (escalationOrder ts.length d).flatMap fun i => (ts[i]?.map Tier.stamped).getD [] := by
  unfold orderLegs
  rw [List.map_flatMap]
  congr 1
  funext i
  cases ts[i]? with
  | none => rfl
  | some t => simp [Tier.stamped, Tier.effortUnder]

theorem orderLegs_static (ts : List Tier) {d : Nat} (hd : d < ts.length) :
    (orderLegs ts d (.tier false)).map (·.leg) = (ts.drop d ++ (ts.take d).reverse).flatMap Tier.stamped := by
  have hmin : min d (ts.length - 1) = d := by omega
  rw [orderLegs_stamped]
  unfold escalationOrder
  rw [hmin, List.flatMap_append, flatMap_range' ts _ d _ (by omega), flatMap_range_reverse ts _ d (by omega),
    List.flatMap_append]

/-- What validation makes sure of. -/
structure JevRoute.Valid (r : JevRoute) : Prop where
  two : 2 ≤ r.tiers.length
  names : (r.tiers.map (·.name)).Nodup
  legs : ∀ t ∈ r.tiers, t.legs ≠ []
  default : r.router.defaultTier ∈ r.tiers.map (·.name)

structure JevRoute.SplitAt (r : JevRoute) (below : List Tier) (t : Tier) (above : List Tier) : Prop where
  tiers : r.tiers = below ++ t :: above
  default : r.router.defaultTier = t.name

theorem JevRoute.Valid.splitAt {r : JevRoute} (h : r.Valid) : ∃ below t above, r.SplitAt below t above := by
  obtain ⟨t, ht, hname⟩ := List.mem_map.mp h.default
  obtain ⟨below, above, htiers⟩ := List.append_of_mem ht
  exact ⟨below, t, above, htiers, hname.symm⟩

section
variable {r : JevRoute} {below above : List Tier} {t : Tier}

theorem JevRoute.SplitAt.defaultIndex (hs : r.SplitAt below t above) (h : (r.tiers.map (·.name)).Nodup) :
    r.defaultIndex = below.length := by
  unfold JevRoute.defaultIndex
  rw [hs.default, hs.tiers]
  rw [hs.tiers, List.map_append, List.nodup_append] at h
  have hnone : below.findIdx? (fun u => u.name == t.name) = none := by
    rw [List.findIdx?_eq_none_iff]
    intro u hu
    have := h.2.2 _ (List.mem_map_of_mem hu) _ (List.mem_map_of_mem (List.mem_cons_self ..))
    simpa using this
  simp [List.findIdx?_append, hnone, List.findIdx?_cons]

theorem JevRoute.SplitAt.staticLegs (hs : r.SplitAt below t above) (h : (r.tiers.map (·.name)).Nodup) :
    r.staticLegs = (t :: above ++ below.reverse).flatMap Tier.stamped := by
  have hlen : below.length < r.tiers.length := by
    rw [hs.tiers, List.length_append, List.length_cons]
    omega
  unfold JevRoute.staticLegs
  rw [hs.defaultIndex h, orderLegs_static _ hlen, hs.tiers, List.drop_left, List.take_left]

/-- Pruning keeps the tiers that keep a leg, and the default becomes the first of them
from the old default on, or the last. -/
theorem JevRoute.SplitAt.pruned (hs : r.SplitAt below t above) (h : (r.tiers.map (·.name)).Nodup)
    (drop : Finset String) :
    r.pruned drop =
      (((keptTiers drop (t :: above)).head?.or (keptTiers drop r.tiers).getLast?).map (·.name)).bind fun n =>
        if 2 ≤ (keptTiers drop r.tiers).length then some ⟨{ r.router with defaultTier := n }, keptTiers drop r.tiers⟩
        else none := by
  have hfind := survivors_find r.tiers drop r.defaultIndex 0
  have hdrop : r.tiers.drop r.defaultIndex = t :: above := by
    rw [hs.defaultIndex h, hs.tiers, List.drop_left]
  rw [Nat.sub_zero, hdrop] at hfind
  have hname : (((r.survivors drop).find? (·.1 ≥ r.defaultIndex)).or (r.survivors drop).getLast?).map (·.2.name) =
      ((keptTiers drop (t :: above)).head?.or (keptTiers drop r.tiers).getLast?).map (·.name) := by
    rw [← hfind, ← survivors_snd, List.getLast?_map, ← Option.map_or, Option.map_map]
    rfl
  have hlen : (r.survivors drop).length = (keptTiers drop r.tiers).length := by
    rw [← survivors_snd, List.length_map]
  unfold JevRoute.pruned
  simp only [hname, hlen, survivors_snd, ge_iff_le]
  cases ((keptTiers drop (t :: above)).head?.or (keptTiers drop r.tiers).getLast?).map (·.name) <;> rfl

theorem JevRoute.SplitAt.of_pruned (hs : r.SplitAt below t above) (h : (r.tiers.map (·.name)).Nodup)
    {drop : Finset String} {k : JevRoute} (hk : r.pruned drop = some k) :
    k.tiers = keptTiers drop r.tiers ∧ 2 ≤ k.tiers.length ∧
      k.router = { r.router with defaultTier := k.router.defaultTier } ∧
      ((∃ u us, keptTiers drop (t :: above) = u :: us ∧ k.SplitAt (keptTiers drop below) u us) ∨
        keptTiers drop (t :: above) = [] ∧ ∃ us u, keptTiers drop below = us ++ [u] ∧ k.SplitAt us u []) := by
  have htiers : keptTiers drop r.tiers = keptTiers drop below ++ keptTiers drop (t :: above) := by
    rw [hs.tiers, keptTiers_append]
  rw [hs.pruned h drop, Option.bind_eq_some_iff] at hk
  obtain ⟨n, hn, hk⟩ := hk
  split at hk
  · rename_i hlen
    cases hk
    refine ⟨rfl, hlen, rfl, ?_⟩
    cases habove : keptTiers drop (t :: above) with
    | cons u us =>
      rw [habove] at hn htiers
      cases hn
      exact .inl ⟨u, us, rfl, htiers, rfl⟩
    | nil =>
      rw [habove, List.append_nil] at htiers
      rw [habove, htiers] at hn
      rw [htiers] at hlen
      obtain ⟨us, u, hus⟩ := List.eq_nil_or_concat (keptTiers drop below) |>.resolve_left
        (by rintro hnil; rw [hnil] at hlen; simp at hlen)
      rw [hus] at hn
      simp only [List.head?_nil, Option.none_or, List.concat_eq_append, List.getLast?_append, List.getLast?_singleton,
        Option.some_or, Option.map_some, Option.some.injEq] at hn
      refine .inr ⟨rfl, us, u, by simpa using hus, ?_, hn.symm⟩
      rw [htiers]
      simpa using hus
  · cases hk

end

theorem JevRoute.Valid.pruned_eq_none {r : JevRoute} (h : r.Valid) {drop : Finset String} :
    r.pruned drop = none ↔ (keptTiers drop r.tiers).length < 2 := by
  obtain ⟨below, t, above, hs⟩ := h.splitAt
  rw [hs.pruned h.names]
  by_cases hlen : 2 ≤ (keptTiers drop r.tiers).length
  · have hne : keptTiers drop r.tiers ≠ [] := by
      intro hnil
      rw [hnil] at hlen
      cases hlen
    have hlast : (keptTiers drop r.tiers).getLast?.isSome = true := by simpa using hne
    obtain ⟨u, hu⟩ := Option.isSome_iff_exists.mp hlast
    rw [hu]
    refine iff_of_false ?_ (by omega)
    cases (keptTiers drop (t :: above)).head? with
    | none => simp [hlen]
    | some v => simp [hlen]
  · refine iff_of_true ?_ (by omega)
    cases ((keptTiers drop (t :: above)).head?.or (keptTiers drop r.tiers).getLast?) with
    | none => rfl
    | some v => simp [hlen]

theorem JevRoute.Valid.of_pruned {r k : JevRoute} (h : r.Valid) {drop : Finset String} (hk : r.pruned drop = some k) :
    k.Valid := by
  obtain ⟨below, t, above, hs⟩ := h.splitAt
  obtain ⟨htiers, htwo, -, hcases⟩ := hs.of_pruned h.names hk
  refine { two := htwo, names := ?_, legs := ?_, default := ?_ }
  · rw [htiers]
    exact h.names.sublist (keptTiers_names drop r.tiers)
  · intro u hu
    rw [htiers] at hu
    exact (mem_keptTiers hu).1
  · rcases hcases with ⟨u, us, -, hsplit⟩ | ⟨-, us, u, -, hsplit⟩
    · rw [hsplit.default, hsplit.tiers]
      simp
    · rw [hsplit.default, hsplit.tiers]
      simp

theorem JevRoute.Valid.staticLegs_pruned {r k : JevRoute} (h : r.Valid) {drop : Finset String}
    (hk : r.pruned drop = some k) : k.staticLegs = r.staticLegs.filter (·.provider ∉ drop) := by
  obtain ⟨below, t, above, hs⟩ := h.splitAt
  obtain ⟨-, -, -, hcases⟩ := hs.of_pruned h.names hk
  have hnames := (h.of_pruned hk).names
  have horder : (keptTiers drop (t :: above) ++ (keptTiers drop below).reverse).flatMap Tier.stamped =
      r.staticLegs.filter (·.provider ∉ drop) := by
    rw [hs.staticLegs h.names, ← stamped_keptTiers, keptTiers_append, keptTiers_reverse]
  rw [← horder]
  rcases hcases with ⟨u, us, habove, hsplit⟩ | ⟨habove, us, u, hbelow, hsplit⟩
  · rw [hsplit.staticLegs hnames, habove]
  · rw [hsplit.staticLegs hnames, habove, hbelow]
    simp

/-- Pruning twice is pruning once of both. -/
theorem JevRoute.Valid.pruned_pruned {r : JevRoute} (h : r.Valid) (A B : Finset String) :
    (r.pruned A).bind (·.pruned B) = r.pruned (A ∪ B) := by
  obtain ⟨below, t, above, hs⟩ := h.splitAt
  cases hk : r.pruned A with
  | none =>
    rw [Option.bind_none, eq_comm, h.pruned_eq_none, ← keptTiers_keptTiers]
    rw [h.pruned_eq_none] at hk
    have hle : (keptTiers B (keptTiers A r.tiers)).length ≤ (keptTiers A r.tiers).length := by
      unfold keptTiers
      exact (List.length_filter_le _ _).trans (by rw [List.length_map])
    omega
  | some k =>
    obtain ⟨htiers, htwo, hrouter, hcases⟩ := hs.of_pruned h.names hk
    have hnames := (h.of_pruned hk).names
    have hall : keptTiers B k.tiers = keptTiers (A ∪ B) r.tiers := by rw [htiers, keptTiers_keptTiers]
    rw [Option.bind_some, hs.pruned h.names]
    rcases hcases with ⟨u, us, habove, hsplit⟩ | ⟨habove, us, u, hbelow, hsplit⟩
    · rw [hsplit.pruned hnames, ← habove, hall, keptTiers_keptTiers, hrouter]
    · -- no tier from the default on survives `A`: both re-picks give the last survivor
      have hnone : keptTiers (A ∪ B) (t :: above) = [] := by
        rw [← keptTiers_keptTiers, habove]
        rfl
      have hlast : (keptTiers B [u]).head?.or (keptTiers B k.tiers).getLast? = (keptTiers B k.tiers).getLast? := by
        rw [hsplit.tiers, keptTiers_append, keptTiers_cons]
        by_cases hu : (u.without B).legs = []
        · simp [hu, keptTiers]
        · simp [hu, keptTiers]
      rw [hsplit.pruned hnames, hlast, hall, hnone, List.head?_nil, Option.none_or, hrouter]

/-! ## The table -/

/-- A loaded or pruned table: a jev alias has the legs of its tiers, and only aliases
with legs have policies. -/
structure RouteTable.Valid (t : RouteTable) : Prop where
  nodup : (t.routes.map (·.1)).Nodup
  jev : ∀ name r, (name, r) ∈ t.jev → r.Valid ∧ t.legs name = some r.staticLegs
  policies : ∀ name p, (name, p) ∈ t.policies → (t.legs name).isSome = true

def keptRoutes (drop : Finset String) (routes : List (String × List ChainLeg)) : List (String × List ChainLeg) :=
  (routes.map fun e => (e.1, e.2.filter (·.provider ∉ drop))).filter fun e => !e.2.isEmpty

theorem keptRoutes_cons (drop : Finset String) (e : String × List ChainLeg) (routes : List (String × List ChainLeg)) :
    keptRoutes drop (e :: routes) =
      if e.2.filter (·.provider ∉ drop) = [] then keptRoutes drop routes
      else (e.1, e.2.filter (·.provider ∉ drop)) :: keptRoutes drop routes := by
  unfold keptRoutes
  rw [List.map_cons, List.filter_cons]
  by_cases h : e.2.filter (·.provider ∉ drop) = []
  · rw [if_pos h, if_neg (by rw [h]; exact Bool.false_ne_true)]
  · rw [if_neg h, if_pos (by rw [Bool.not_eq_true', List.isEmpty_eq_false_iff]; exact h)]

theorem filter_filter_providers (A B : Finset String) (legs : List ChainLeg) :
    (legs.filter (·.provider ∉ A)).filter (·.provider ∉ B) = legs.filter (·.provider ∉ A ∪ B) := by
  rw [List.filter_filter]
  apply List.filter_congr
  intro l _
  simp only [Finset.mem_union, not_or, Bool.decide_and]
  rw [Bool.and_comm]

theorem keptRoutes_keptRoutes (A B : Finset String) (routes : List (String × List ChainLeg)) :
    keptRoutes B (keptRoutes A routes) = keptRoutes (A ∪ B) routes := by
  induction routes with
  | nil => rfl
  | cons e routes ih =>
    rw [keptRoutes_cons, keptRoutes_cons, ← filter_filter_providers]
    by_cases h : e.2.filter (·.provider ∉ A) = []
    · rw [if_pos h, h, if_pos List.filter_nil, ih]
    · rw [if_neg h, keptRoutes_cons, ih]

section
variable {t : RouteTable}

theorem RouteTable.jev_withoutProviders {drop : Finset String} {name : String} {k : JevRoute}
    (h : (name, k) ∈ (t.withoutProviders drop).jev) : ∃ r, (name, r) ∈ t.jev ∧ r.pruned drop = some k := by
  obtain ⟨⟨n, r⟩, hmem, hk⟩ := List.mem_filterMap.mp h
  obtain ⟨k', hk, heq⟩ := Option.map_eq_some_iff.mp hk
  cases heq
  split at hk
  · cases hk
  · exact ⟨r, hmem, hk⟩

/-- Whether an alias stays a jev route or not, its kept legs keep their order. -/
theorem RouteTable.Valid.routes_withoutProviders (ht : t.Valid) (drop : Finset String) :
    (t.withoutProviders drop).routes = keptRoutes drop t.routes := by
  have hlegs : ∀ name legs, (name, legs) ∈ t.routes →
      keptLegs (t.withoutProviders drop).jev drop name legs = legs.filter (·.provider ∉ drop) := by
    intro name legs hmem
    unfold keptLegs
    cases hk : (t.withoutProviders drop).jev.lookup name with
    | none => rfl
    | some k =>
      obtain ⟨r, hr, hpruned⟩ := RouteTable.jev_withoutProviders (Assoc.mem_of_lookup hk)
      obtain ⟨hvalid, hlookup⟩ := ht.jev name r hr
      have : legs = r.staticLegs := Option.some.inj ((Assoc.lookup_of_mem ht.nodup hmem).symm.trans hlookup)
      rw [this]
      exact hvalid.staticLegs_pruned hpruned
  show List.filter _ (List.map _ _) = _
  congr 1
  apply List.map_congr_left
  rintro ⟨name, legs⟩ hmem
  exact congrArg (Prod.mk name) (hlegs name legs hmem)

theorem RouteTable.Valid.legs_withoutProviders (ht : t.Valid) (drop : Finset String) (model : String) :
    (t.withoutProviders drop).legs model =
      ((t.legs model).map fun legs => legs.filter (·.provider ∉ drop)).filter (!·.isEmpty) := by
  unfold RouteTable.legs
  rw [ht.routes_withoutProviders drop]
  exact Assoc.lookup_map_filter ht.nodup _ (fun legs : List ChainLeg => !legs.isEmpty) model

theorem RouteTable.Valid.isSome_of_withoutProviders (ht : t.Valid) {drop : Finset String} {model : String}
    (h : ((t.withoutProviders drop).legs model).isSome = true) : (t.legs model).isSome = true := by
  rw [ht.legs_withoutProviders drop] at h
  cases hl : t.legs model with
  | none =>
    rw [hl] at h
    cases h
  | some legs => rfl

theorem RouteTable.policyOf_withoutProviders (t : RouteTable) (drop : Finset String) (model : String) :
    (t.withoutProviders drop).policyOf model =
      if ((t.withoutProviders drop).legs model).isSome then t.policyOf model else none :=
  Assoc.lookup_filter_key t.policies (fun name => ((t.withoutProviders drop).legs name).isSome) model

theorem JevRoute.Valid.staticLegs_ne_nil {r : JevRoute} (h : r.Valid) : r.staticLegs ≠ [] := by
  obtain ⟨below, t, above, hs⟩ := h.splitAt
  obtain ⟨l, hl⟩ := List.exists_mem_of_ne_nil _ (h.legs t (by rw [hs.tiers]; simp))
  rw [hs.staticLegs h.names]
  exact List.ne_nil_of_mem (List.mem_flatMap.mpr ⟨t, by simp, List.mem_map_of_mem hl⟩)

theorem RouteTable.Valid.withoutProviders (ht : t.Valid) (drop : Finset String) : (t.withoutProviders drop).Valid := by
  refine { nodup := ?_, jev := ?_, policies := ?_ }
  · rw [ht.routes_withoutProviders drop]
    have hsub := (List.filter_sublist (p := fun e : String × List ChainLeg => !e.2.isEmpty)
      (l := t.routes.map fun e => (e.1, e.2.filter (·.provider ∉ drop)))).map (·.1)
    rw [List.map_map] at hsub
    exact ht.nodup.sublist hsub
  · intro name k hk
    obtain ⟨r, hr, hpruned⟩ := RouteTable.jev_withoutProviders hk
    obtain ⟨hvalid, hlegs⟩ := ht.jev name r hr
    have hkvalid := hvalid.of_pruned hpruned
    refine ⟨hkvalid, ?_⟩
    rw [ht.legs_withoutProviders drop, hlegs, Option.map_some, ← hvalid.staticLegs_pruned hpruned]
    exact Option.filter_some_pos (by simpa using hkvalid.staticLegs_ne_nil)
  · intro name p hp
    exact (List.mem_filter.mp hp).2

theorem RouteTable.Valid.withoutProviders_union (ht : t.Valid) (A B : Finset String) :
    (t.withoutProviders A).withoutProviders B = t.withoutProviders (A ∪ B) := by
  have hA := ht.withoutProviders A
  have hroutes : ((t.withoutProviders A).withoutProviders B).routes = (t.withoutProviders (A ∪ B)).routes := by
    rw [hA.routes_withoutProviders B, ht.routes_withoutProviders A, ht.routes_withoutProviders (A ∪ B),
      keptRoutes_keptRoutes]
  have hjev : ((t.withoutProviders A).withoutProviders B).jev = (t.withoutProviders (A ∪ B)).jev := by
    show List.filterMap _ (List.filterMap _ _) = List.filterMap _ _
    rw [List.filterMap_filterMap]
    apply List.filterMap_congr
    rintro ⟨name, r⟩ hmem
    have hvalid := (ht.jev name r hmem).1
    by_cases hA : "typesafe" ∈ A
    · simp [hA]
    by_cases hB : "typesafe" ∈ B
    · simp [hA, hB]
    · have hpruned := hvalid.pruned_pruned A B
      simp only [hA, hB, if_false, Finset.mem_union, or_self]
      rw [← hpruned]
      cases r.pruned A with
      | none => rfl
      | some k => rfl
  have hpolicies : ((t.withoutProviders A).withoutProviders B).policies = (t.withoutProviders (A ∪ B)).policies := by
    show List.filter (fun e => (((t.withoutProviders A).withoutProviders B).legs e.1).isSome)
      (List.filter (fun e => ((t.withoutProviders A).legs e.1).isSome) t.policies) =
      List.filter (fun e => ((t.withoutProviders (A ∪ B)).legs e.1).isSome) t.policies
    rw [List.filter_filter]
    apply List.filter_congr
    intro e _
    have hlegs : ((t.withoutProviders A).withoutProviders B).legs e.1 = (t.withoutProviders (A ∪ B)).legs e.1 := by
      unfold RouteTable.legs
      rw [hroutes]
    rw [← hlegs, Bool.and_eq_left_iff_imp]
    exact hA.isSome_of_withoutProviders
  exact RouteTable.ext hroutes hpolicies hjev rfl

end

/-! ## Loaded tables -/

theorem duplicateName_none {tiers : List Tier} (h : duplicateName tiers = none) : (tiers.map (·.name)).Nodup := by
  unfold duplicateName at h
  rw [Option.map_eq_none_iff, List.find?_eq_none] at h
  apply Firsts.nodup_of_no_repeat
  intro i a ha b hb heq
  refine h (a, i) (List.mk_mem_zipIdx_iff_getElem?.mpr ha) ?_
  simp only [List.any_eq_true, beq_iff_eq]
  exact ⟨b, hb, heq⟩

theorem validateJevRoute_valid {name : String} {router : Option JevRouterConfig} {tiers : List Tier} {r : JevRoute}
    (h : validateJevRoute name router tiers = .ok r) : r.Valid := by
  unfold validateJevRoute at h
  split at h
  · cases h
  · rename_i cfg
    split at h
    · rename_i hproblems
      cases h
      unfold jevProblems at hproblems
      rw [List.filterMap_eq_nil_iff] at hproblems
      simp only [List.forall_mem_cons, id] at hproblems
      obtain ⟨htwo, -, -, hdup, -, hlegs, -, hdefault, -⟩ := hproblems
      refine { two := ?_, names := ?_, legs := ?_, default := ?_ }
      · by_contra hlen
        rw [if_neg fun hx => hlen hx.1] at htwo
        cases htwo
      · exact duplicateName_none (Option.map_eq_none_iff.mp hdup)
      · intro t ht hnil
        rw [Option.map_eq_none_iff, List.find?_eq_none] at hlegs
        exact hlegs t ht (by rw [hnil]; rfl)
      · by_cases hany : tiers.any (·.name == cfg.defaultTier) = true
        · obtain ⟨t, ht, hname⟩ := List.any_eq_true.mp hany
          exact List.mem_map.mpr ⟨t, ht, by simpa using hname⟩
        · rw [if_neg hany] at hdefault
          cases hdefault
    · cases h

theorem routeKind_jev {name : String} {entry : RouteEntry} {legs : List ChainLeg} {r : JevRoute}
    (h : routeKind name entry = .ok (legs, some r)) : r.Valid ∧ legs = r.staticLegs := by
  unfold routeKind at h
  split at h
  · cases h
  · cases h
  · cases h
  · split at h
    · split at h
      · cases h
      · obtain ⟨r', hr, heq⟩ := Fallible.of_map_ok h
        cases heq
        exact ⟨validateJevRoute_valid hr, rfl⟩
    · cases h
  · cases h

theorem mapM_routeKind {routes : List (String × RouteEntry)} {kinds : List (String × List ChainLeg × Option JevRoute)}
    (h : routes.mapM (fun (name, entry) => (routeKind name entry).map fun kind => (name, kind)) = .ok kinds) :
    kinds.map (·.1) = routes.map (·.1) ∧ ∀ name kind, (name, kind) ∈ kinds → ∃ entry, routeKind name entry = .ok kind := by
  constructor
  · refine Fallible.map_of_mapM_ok h ?_
    intro e kind he
    obtain ⟨_, -, rfl⟩ := Fallible.of_map_ok he
    rfl
  · intro name kind hmem
    obtain ⟨e, -, he⟩ := Fallible.mem_of_mapM_ok h hmem
    obtain ⟨_, hk, heq⟩ := Fallible.of_map_ok he
    cases heq
    exact ⟨e.2, hk⟩

theorem fromFile_valid {file : RoutesFile} {t : RouteTable} (h : RouteTable.fromFile file = .ok t) : t.Valid := by
  obtain ⟨kinds, hkinds, h⟩ := Fallible.of_bind_ok h
  cases h
  obtain ⟨hkeys, hall⟩ := mapM_routeKind hkinds
  have hnames : (kinds.map fun kind => (kind.1, kind.2.1)).map (·.1) = file.routes.map (·.1) := by
    rw [← hkeys, List.map_map]
    rfl
  have hnodup : ((kinds.map fun kind => (kind.1, kind.2.1)).map (·.1)).Nodup := by
    rw [hnames]
    exact file.nodup
  refine { nodup := hnodup, jev := ?_, policies := ?_ }
  · intro name r hmem
    obtain ⟨⟨n, legs, j⟩, hkind, hj⟩ := List.mem_filterMap.mp hmem
    obtain ⟨r', rfl, heq⟩ := Option.map_eq_some_iff.mp hj
    cases heq
    obtain ⟨entry, hentry⟩ := hall _ _ hkind
    obtain ⟨hvalid, rfl⟩ := routeKind_jev hentry
    exact ⟨hvalid, Assoc.lookup_of_mem hnodup (List.mem_map.mpr ⟨_, hkind, rfl⟩)⟩
  · intro name p hmem
    obtain ⟨⟨n, e⟩, he, hp⟩ := List.mem_filterMap.mp hmem
    obtain ⟨p', -, heq⟩ := Option.map_eq_some_iff.mp hp
    cases heq
    unfold RouteTable.legs
    rw [Assoc.lookup_isSome, hnames]
    exact List.mem_map_of_mem he

/-- Pruning a loaded table filters the legs of every alias, twice as once; it leaves every
jev route a choice, and the policies of the aliases that are left. -/
theorem withoutProviders_filters {file : RoutesFile} {t : RouteTable} (h : RouteTable.fromFile file = .ok t)
    (A B : Finset String) :
    (∀ model, (t.withoutProviders A).legs model =
      ((t.legs model).map fun legs => legs.filter (·.provider ∉ A)).filter (!·.isEmpty)) ∧
    (t.withoutProviders A).withoutProviders B = t.withoutProviders (A ∪ B) ∧
    (∀ model r, (t.withoutProviders A).jevRoute model = some r →
      2 ≤ r.tiers.length ∧ (∀ tier ∈ r.tiers, tier.legs ≠ []) ∧ r.router.defaultTier ∈ r.tiers.map (·.name)) ∧
    ∀ model, (t.withoutProviders A).policyOf model =
      if ((t.withoutProviders A).legs model).isSome then t.policyOf model else none := by
  have ht := fromFile_valid h
  refine ⟨ht.legs_withoutProviders A, ht.withoutProviders_union A B, ?_, t.policyOf_withoutProviders A⟩
  intro model r hr
  have hvalid := ((ht.withoutProviders A).jev model r (Assoc.mem_of_lookup hr)).1
  exact ⟨hvalid.two, hvalid.legs, hvalid.default⟩

def sampleRoutes : RoutesFile where
  routes := [
    ("auto", {
      strategy := some "jev"
      jevRouter := some { defaultTier := "medium" }
      tiers := [
        ⟨"easy", "a short lookup", .low, [{ provider := "vertex", model := "gemini-3-flash" }]⟩,
        ⟨"medium", "a few steps", .medium, [{ provider := "qwen", model := "qwen-max" }]⟩,
        ⟨"hard", "a long task", .high, [{ provider := "vertex", model := "gemini-3-pro" }]⟩] }),
    ("fast", { legs := some [{ provider := "qwen", model := "qwen-turbo" }], policy := some "strict" })]
  nodup := by decide

theorem sampleRoutes_without_qwen : ∃ t, RouteTable.fromFile sampleRoutes = .ok t ∧
    (t.withoutProviders {"qwen"}).withoutProviders {"openai"} = t.withoutProviders ({"qwen"} ∪ {"openai"}) := by
  have hok : (RouteTable.fromFile sampleRoutes).toOption.isSome = true := by decide +kernel
  cases h : RouteTable.fromFile sampleRoutes with
  | error e =>
    rw [h] at hok
    cases hok
  | ok t => exact ⟨t, rfl, (withoutProviders_filters h {"qwen"} {"openai"}).2.1⟩

end SynapseGateway
