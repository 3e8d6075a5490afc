import SynapseGateway.EngineSound
import SynapseGateway.Passthrough
import SynapseGateway.RouteTablePrune

/-!
# The policies of a passthrough request

The route that serves a model and the policies that screen it are found by two
searches over the table. In every table a loaded one can be pruned to, the
policy of the serving route is among those that screen.
-/

namespace SynapseGateway

/-- An alias the passthrough takes part of: its route exists and was never
declared `jev`. -/
def RouteTable.Eligible (t : RouteTable) (name : String) : Prop :=
  name ∉ t.jevDeclared ∧ (t.legs name).isSome = true

instance (t : RouteTable) (name : String) : Decidable (t.Eligible name) := inferInstanceAs (Decidable (_ ∧ _))

def ChainLeg.serves (model : String) (l : ChainLeg) : Bool := l.isVertex && l.model == model

/-- The aliases with a leg for `model`, but those declared `jev`. -/
def RouteTable.listing (t : RouteTable) (model : String) : List String :=
  (t.routes.filter fun e => e.1 ∉ t.jevDeclared && e.2.any (ChainLeg.serves model)).map (·.1)

/-- The guard policies a passthrough request for `model` is screened under,
sorted and distinct. -/
def RouteTable.passthroughPolicies (t : RouteTable) (model : String) : List String :=
  let policy := fun name => (t.policyOf name).getD "default"
  if t.Eligible model then [policy model]
  else
    let v := (t.listing model).map policy
    sortedDedup (if v.isEmpty then ["default"] else v)

inductive RouteTable.PrunedTo (t : RouteTable) : RouteTable → Prop
  | refl : t.PrunedTo t
  | prune {u : RouteTable} (drop : Finset String) : t.PrunedTo u → t.PrunedTo (u.withoutProviders drop)

theorem RouteTable.PrunedTo.valid {t u : RouteTable} (h : t.PrunedTo u) (ht : t.Valid) : u.Valid := by
  induction h with
  | refl => exact ht
  | prune drop _ ih => exact ih.withoutProviders drop

theorem RouteTable.PrunedTo.jevDeclared {t u : RouteTable} (h : t.PrunedTo u) : u.jevDeclared = t.jevDeclared := by
  induction h with
  | refl => rfl
  | prune drop _ ih => exact ih

theorem mem_dedup {l : List String} {s : String} : s ∈ dedup l ↔ s ∈ l := by
  induction l using dedup.induct with
  | case1 => rfl
  | case2 a => rfl
  | case3 a l ih =>
    rw [dedup, if_pos rfl, ih]
    simp
  | case4 a b l hab ih => rw [dedup, if_neg hab, List.mem_cons, ih, List.mem_cons (a := s) (b := a)]

theorem mem_sortedDedup {l : List String} {s : String} : s ∈ sortedDedup l ↔ s ∈ l :=
  mem_dedup.trans (List.perm_insertionSort _ l).mem_iff

/-! ## The route that serves -/

/-- Leg number `start` of alias `r` is for `model`. -/
structure RouteTable.ServesFrom (t : RouteTable) (model r : String) (legs : List ChainLeg) (start : Nat) : Prop where
  known : t.legs r = some legs
  undeclared : r ∉ t.jevDeclared
  leg : ∃ l ls, legs.drop start = l :: ls ∧ l.serves model = true

section
variable {t : RouteTable} {model r : String} {legs : List ChainLeg} {start : Nat}

theorem vertexFallbackChain_eligible (hj : model ∉ t.jevDeclared) (hl : t.legs model = some legs) :
    t.vertexFallbackChain model = ⟨some model, legs.takeWhile ChainLeg.isVertex⟩ := by
  unfold RouteTable.vertexFallbackChain
  rw [if_neg hj, show t.routes.lookup model = some legs from hl]

theorem mem_aliases {a : String} :
    a ∈ ((t.routes.map (·.1)).filter (· ∉ t.jevDeclared)).insertionSort (· ≤ ·) ↔
      a ∈ t.routes.map (·.1) ∧ a ∉ t.jevDeclared := by
  rw [(List.perm_insertionSort _ _).mem_iff, List.mem_filter, decide_eq_true_eq]

/-- A model that is no eligible alias is served from a leg for it, if any
eligible alias has one. -/
theorem vertexFallbackChain_search (h : ¬ t.Eligible model) :
    (∃ r legs start, t.ServesFrom model r legs start ∧
      t.vertexFallbackChain model = ⟨some r, (legs.drop start).takeWhile ChainLeg.isVertex⟩) ∨
    (∀ r legs, r ∉ t.jevDeclared → t.legs r = some legs → legs.any (ChainLeg.serves model) = false) ∧
      t.vertexFallbackChain model = ⟨none, [{ provider := "vertex", model := model }]⟩ := by
  have hnone : (if model ∈ t.jevDeclared then none else t.routes.lookup model) = none := by
    by_cases hj : model ∈ t.jevDeclared
    · rw [if_pos hj]
    · rw [if_neg hj]
      cases hl : t.routes.lookup model with
      | none => rfl
      | some legs => exact absurd ⟨hj, by rw [RouteTable.legs, hl]; rfl⟩ h
  unfold RouteTable.vertexFallbackChain
  rw [hnone]
  simp only
  split
  · rename_i r start hfound
    refine .inl ⟨r, (t.routes.lookup r).getD [], start, ?_, rfl⟩
    obtain hfirst | ⟨-, hany⟩ := Option.or_eq_some_iff.mp hfound
    · obtain ⟨a, ha, hlegs⟩ := List.exists_of_findSome?_eq_some hfirst
      obtain ⟨l, hl, heq⟩ := Option.map_eq_some_iff.mp hlegs
      cases heq
      obtain ⟨hhead, hserves⟩ := Option.filter_eq_some_iff.mp hl
      obtain ⟨legs, hlegs, hhead⟩ := Option.bind_eq_some_iff.mp hhead
      obtain ⟨ls, rfl⟩ := List.head?_eq_some_iff.mp hhead
      rw [hlegs]
      exact ⟨hlegs, (mem_aliases.mp ha).2, l, ls, rfl, hserves⟩
    · obtain ⟨a, ha, hlegs⟩ := List.exists_of_findSome?_eq_some hany
      obtain ⟨i, hi, heq⟩ := Option.map_eq_some_iff.mp hlegs
      cases heq
      obtain ⟨legs, hlegs, hfind⟩ := Option.bind_eq_some_iff.mp hi
      obtain ⟨hlt, hserves, -⟩ := List.findIdx?_eq_some_iff_getElem.mp hfind
      rw [hlegs]
      exact ⟨hlegs, (mem_aliases.mp ha).2, legs[start], legs.drop (start + 1), List.drop_eq_getElem_cons hlt, hserves⟩
  · rename_i hfound
    refine .inr ⟨?_, rfl⟩
    intro r legs hr hl
    have hmem : r ∈ t.routes.map (·.1) := Assoc.lookup_isSome.mp (by rw [show t.routes.lookup r = some legs from hl]; rfl)
    have hany := List.findSome?_eq_none_iff.mp (Option.or_eq_none_iff.mp hfound).2 r (mem_aliases.mpr ⟨hmem, hr⟩)
    rw [Option.map_eq_none_iff, show t.routes.lookup r = some legs from hl, Option.bind_some,
      List.findIdx?_eq_none_iff] at hany
    rw [List.any_eq_false]
    intro l hmem'
    rw [ChainLeg.serves, hany l hmem']
    decide

theorem takeWhile_drop_infix (legs : List ChainLeg) (start : Nat) :
    (legs.drop start).takeWhile ChainLeg.isVertex <:+: legs :=
  (List.takeWhile_prefix _).isInfix.trans (List.drop_suffix _ _).isInfix

theorem takeWhile_head (hs : t.ServesFrom model r legs start) :
    ∃ l ls, (legs.drop start).takeWhile ChainLeg.isVertex = l :: ls ∧ l.model = model := by
  obtain ⟨l, ls, hdrop, hserves⟩ := hs.leg
  rw [ChainLeg.serves, Bool.and_eq_true, beq_iff_eq] at hserves
  rw [hdrop, List.takeWhile_cons_of_pos hserves.1]
  exact ⟨l, _, rfl, hserves.2⟩

/-! ## The policies that screen -/

theorem passthroughPolicies_eligible (h : t.Eligible model) :
    t.passthroughPolicies model = [(t.policyOf model).getD "default"] := if_pos h

theorem mem_passthroughPolicies (h : ¬ t.Eligible model) {name : String} (hn : name ∈ t.listing model) :
    (t.policyOf name).getD "default" ∈ t.passthroughPolicies model := by
  have hmem : (t.policyOf name).getD "default" ∈ (t.listing model).map fun name => (t.policyOf name).getD "default" :=
    List.mem_map_of_mem hn
  unfold RouteTable.passthroughPolicies
  rw [if_neg h, mem_sortedDedup]
  have hne := List.ne_nil_of_mem hmem
  simp only [List.isEmpty_eq_false_iff.mpr hne, Bool.false_eq_true, if_false]
  exact hmem

theorem mem_listing {name : String} : name ∈ t.listing model ↔
    ∃ legs, (name, legs) ∈ t.routes ∧ name ∉ t.jevDeclared ∧ legs.any (ChainLeg.serves model) = true := by
  unfold RouteTable.listing
  simp only [List.mem_map, List.mem_filter, Bool.and_eq_true, decide_eq_true_eq]
  constructor
  · intro h
    obtain ⟨⟨_, legs⟩, ⟨hmem, hj, hany⟩, rfl⟩ := h
    exact ⟨legs, hmem, hj, hany⟩
  · intro h
    obtain ⟨legs, hmem, hj, hany⟩ := h
    exact ⟨(name, legs), ⟨hmem, hj, hany⟩, rfl⟩

theorem passthroughPolicies_default (h : ¬ t.Eligible model) (hnone : t.listing model = []) :
    t.passthroughPolicies model = ["default"] := by
  unfold RouteTable.passthroughPolicies
  rw [if_neg h, hnone]
  rfl

theorem passthroughPolicies_ne_nil : t.passthroughPolicies model ≠ [] := by
  unfold RouteTable.passthroughPolicies
  split
  · exact List.cons_ne_nil _ _
  · intro h
    have hnil := congrArg List.isEmpty h
    rw [sortedDedup_isEmpty] at hnil
    split at hnil
    · cases hnil
    · rename_i hne
      exact hne hnil

end

/-! ## Tables that were loaded and pruned -/

theorem routeKind_jev_some {name : String} {entry : RouteEntry} {kind : List ChainLeg × Option JevRoute}
    (h : routeKind name entry = .ok kind) (hs : entry.strategy = some "jev") : kind.2.isSome = true := by
  unfold routeKind at h
  rw [hs, Option.getD_some] at h
  simp only at h
  split at h
  · split at h
    · cases h
    · obtain ⟨r, -, rfl⟩ := Fallible.of_map_ok h
      rfl
  · cases h

theorem jevDeclared_of_strategy {file : RoutesFile} {t : RouteTable} (h : RouteTable.fromFile file = .ok t)
    {name : String} {entry : RouteEntry} (hmem : (name, entry) ∈ file.routes) (hs : entry.strategy = some "jev") :
    name ∈ t.jevDeclared := by
  obtain ⟨kinds, hkinds, h⟩ := Fallible.of_bind_ok h
  cases h
  obtain ⟨named, hnamed, hkind⟩ := Fallible.ok_of_mem hkinds hmem
  obtain ⟨kind, hok, rfl⟩ := Fallible.of_map_ok hkind
  obtain ⟨r, hr⟩ := Option.isSome_iff_exists.mp (routeKind_jev_some hok hs)
  refine List.mem_map.mpr ⟨(name, r), List.mem_filterMap.mpr ⟨_, hnamed, ?_⟩, rfl⟩
  rw [hr]
  rfl

/-- In every table a loaded one can be pruned to, the route that serves a model
was never declared `jev`, and its policy is one that screens the request. -/
theorem vertexFallbackChain_screened {file : RoutesFile} {t u : RouteTable} (h : RouteTable.fromFile file = .ok t)
    (hu : t.PrunedTo u) (model : String) :
    u.passthroughPolicies model ≠ [] ∧
    (∀ r, (u.vertexFallbackChain model).route = some r →
      r ∉ u.jevDeclared ∧ (∀ entry, (r, entry) ∈ file.routes → entry.strategy ≠ some "jev") ∧
      (u.policyOf r).getD "default" ∈ u.passthroughPolicies model ∧
      (∃ legs, u.legs r = some legs ∧ (u.vertexFallbackChain model).legs <:+: legs) ∧
      (∀ l ∈ (u.vertexFallbackChain model).legs, l.provider = "vertex") ∧
      (¬ u.Eligible model → ∃ l ls, (u.vertexFallbackChain model).legs = l :: ls ∧ l.model = model)) ∧
    ((u.vertexFallbackChain model).route = none →
      (u.vertexFallbackChain model).legs = [{ provider := "vertex", model := model }] ∧
        u.passthroughPolicies model = ["default"]) := by
  have hvalid := hu.valid (fromFile_valid h)
  have hfile : ∀ r, r ∉ u.jevDeclared → ∀ entry, (r, entry) ∈ file.routes → entry.strategy ≠ some "jev" := by
    intro r hr entry hmem hs
    rw [hu.jevDeclared] at hr
    exact hr (jevDeclared_of_strategy h hmem hs)
  have hvertex : ∀ legs : List ChainLeg, ∀ l ∈ legs.takeWhile ChainLeg.isVertex, l.provider = "vertex" := by
    intro legs l hl
    exact eq_of_beq (List.all_eq_true.mp List.all_takeWhile l hl)
  refine ⟨passthroughPolicies_ne_nil, ?_⟩
  by_cases hmodel : u.Eligible model
  · obtain ⟨legs, hlegs⟩ := Option.isSome_iff_exists.mp hmodel.2
    rw [vertexFallbackChain_eligible hmodel.1 hlegs, passthroughPolicies_eligible hmodel]
    refine ⟨?_, fun hr => by cases hr⟩
    intro r hr
    cases hr
    exact ⟨hmodel.1, hfile _ hmodel.1, List.mem_singleton_self _, ⟨legs, hlegs, (List.takeWhile_prefix _).isInfix⟩,
      hvertex legs, fun hn => absurd hmodel hn⟩
  · obtain ⟨r, legs, start, hserves, hchain⟩ | ⟨hnone, hchain⟩ := vertexFallbackChain_search hmodel
    · rw [hchain]
      refine ⟨?_, fun hr => by cases hr⟩
      intro r' hr
      cases hr
      refine ⟨hserves.undeclared, hfile _ hserves.undeclared, ?_, ⟨legs, hserves.known, takeWhile_drop_infix legs start⟩,
        hvertex _, fun _ => takeWhile_head hserves⟩
      obtain ⟨l, ls, hdrop, hl⟩ := hserves.leg
      have hmem : l ∈ legs := List.mem_of_mem_drop (hdrop ▸ List.mem_cons_self)
      exact mem_passthroughPolicies hmodel (mem_listing.mpr ⟨legs, Assoc.mem_of_lookup hserves.known,
        hserves.undeclared, List.any_eq_true.mpr ⟨l, hmem, hl⟩⟩)
    · rw [hchain]
      refine ⟨(fun r hr => by cases hr), fun _ => ⟨rfl, passthroughPolicies_default hmodel ?_⟩⟩
      rw [List.eq_nil_iff_forall_not_mem]
      intro name hmem
      obtain ⟨legs, he, hj, hany⟩ := mem_listing.mp hmem
      rw [hnone name legs hj (Assoc.lookup_of_mem hvalid.nodup he)] at hany
      cases hany

def writerRoutes : RoutesFile where
  routes := [
    ("writer", {
      legs := some [{ provider := "qwen", model := "qwen-max" }, { provider := "vertex", model := "gemini-3-flash" }]
      policy := some "strict" }),
    ("fast", { legs := some [{ provider := "qwen", model := "qwen-turbo" }] })]
  nodup := by decide

theorem writerRoutes_screened : ∃ t, RouteTable.fromFile writerRoutes = .ok t ∧
    (((t.withoutProviders {"qwen"}).policyOf "writer").getD "default") ∈
      (t.withoutProviders {"qwen"}).passthroughPolicies "gemini-3-flash" := by
  obtain ⟨t, ht⟩ : ∃ t, RouteTable.fromFile writerRoutes = .ok t := ⟨_, rfl⟩
  have hroute : ((t.withoutProviders {"qwen"}).vertexFallbackChain "gemini-3-flash").route = some "writer" := by
    cases ht
    decide +kernel
  exact ⟨t, ht, ((vertexFallbackChain_screened ht (.prune _ .refl) "gemini-3-flash").2.1 "writer" hroute).2.2.1⟩

end SynapseGateway
