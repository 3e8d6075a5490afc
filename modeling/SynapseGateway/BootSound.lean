import SynapseGateway.Boot
import SynapseGateway.RouteTablePrune

/-!
# What a started gateway can serve

A gateway starts exactly when its files load, its guard validates and compiles
over the tables it serves and what these reference can be built; where pruning is
allowed, a missing key only takes legs away. Once started it has everything that
its tables and its policies name.
-/

namespace SynapseGateway

open Fallible (refuseIf okOr of_bind_ok of_map_ok of_mapError_ok)

section
variable {env : Env} {p : String}

/-! ## Providers -/

def Satisfiable (env : Env) (p : String) : Prop := unsatisfiable env p = none

instance : Decidable (Satisfiable env p) := inferInstanceAs (Decidable (unsatisfiable env p = none))

theorem provider_of_unsatisfiable {u : Unsatisfiable} (h : unsatisfiable env p = some u) : u.provider = p := by
  unfold unsatisfiable needsKey at h
  split at h
  all_goals first
    | (split at h; all_goals first | (cases h; rfl) | cases h)
    | (cases h; rfl)

theorem get_blank {v : String} : isBlank v = true ↔ trimmed v = "" := by
  unfold isBlank trimmed
  rw [List.isEmpty_iff]
  exact ⟨fun h => by rw [h], fun h => by simpa using congrArg String.toList h⟩

theorem trimmed_isSome (env : Env) (key : String) : (env.trimmed key).isSome = (env.get key).isSome := by
  unfold Env.trimmed Env.get
  cases env key with
  | none => rfl
  | some v =>
    rw [Option.map_some, Option.filter_some, Option.filter_some]
    by_cases h : isBlank v = true
    · simp [h, get_blank.mp h]
    · have hne : trimmed v ≠ "" := fun he => h (get_blank.mpr he)
      simp [h, hne]

theorem jevNative_isSome_iff : (JevNative.fromEnv env).isSome = true ↔ Satisfiable env "typesafe" := by
  unfold JevNative.fromEnv Satisfiable unsatisfiable needsKey
  rw [Option.isSome_map, trimmed_isSome]
  by_cases h : (env.get "TYPESAFE_API_KEY").isSome = true <;> simp [h]

theorem exists_okOr {ε α β : Type} {value : Option α} {problem : ε} {f : α → β} :
    (∃ b, (okOr value problem).map f = .ok b) ↔ value.isSome = true := by
  rw [Fallible.exists_map_ok_iff]
  cases value <;> simp [okOr]

theorem needsKey_eq_none {key : String} : needsKey env p key = none ↔ (env.get key).isSome = true := by
  unfold needsKey
  by_cases h : (env.get key).isSome = true <;> simp [h]

theorem buildClient_ok_iff : (∃ client, buildClient env p = .ok client) ↔ Satisfiable env p := by
  unfold buildClient Satisfiable unsatisfiable
  split
  · rw [exists_okOr]
    cases vertexProjectFromEnv env <;> simp
  · rw [exists_okOr, needsKey_eq_none]
  · rw [exists_okOr, needsKey_eq_none]
  · rw [exists_okOr, needsKey_eq_none]
  · rw [exists_okOr, needsKey_eq_none]
  · simp

theorem buildClient_none (h : buildClient env p = .ok none) : p = "typesafe" := by
  unfold buildClient at h
  split at h
  all_goals first
    | rfl
    | cases h
    | (obtain ⟨_, -, heq⟩ := of_map_ok h; cases heq)

theorem buildClient_vertex {client : BuiltClient} (h : buildClient env "vertex" = .ok (some client)) :
    ∃ project, vertexProjectFromEnv env = some project ∧ client = .vertex project "global" := by
  obtain ⟨project, hproject, heq⟩ := of_map_ok (show (okOr (vertexProjectFromEnv env) _).map _ = _ from h)
  exact ⟨project, Fallible.okOr_ok_iff.mp hproject, (Option.some.inj heq).symm⟩

/-- The providers that have an embedder. -/
def Embeds (p : String) : Prop := p = "vertex" ∨ p = "openai"

instance : Decidable (Embeds p) := inferInstanceAs (Decidable (p = "vertex" ∨ p = "openai"))

theorem buildEmbedder_ok_iff : (∃ embedder, buildEmbedder env p = .ok embedder) ↔ Embeds p ∧ Satisfiable env p := by
  unfold buildEmbedder Embeds
  split
  · rw [exists_okOr]
    unfold Satisfiable unsatisfiable
    cases vertexProjectFromEnv env <;> simp
  · rw [exists_okOr, ← needsKey_eq_none]
    exact (and_iff_right (.inr rfl)).symm
  · rename_i hvertex hopenai
    refine iff_of_false ?_ fun h => h.1.elim hvertex hopenai
    rintro ⟨_, h⟩
    cases h

/-! ## The catalog -/

theorem build_ok_iff {ids : List String} : (∃ catalog, Catalog.build env ids = .ok catalog) ↔ ∀ p ∈ ids, Satisfiable env p := by
  unfold Catalog.build
  rw [Fallible.exists_map_ok_iff, Fallible.exists_mapM_ok_iff]
  exact forall₂_congr fun p _ => Fallible.exists_map_ok_iff.trans buildClient_ok_iff

theorem mem_build {ids : List String} {catalog : Catalog} (h : Catalog.build env ids = .ok catalog) {e : String × BuiltClient}
    (he : e ∈ catalog) : buildClient env e.1 = .ok (some e.2) := by
  obtain ⟨clients, hclients, rfl⟩ := of_map_ok h
  obtain ⟨c, hc, hce⟩ := List.mem_filterMap.mp he
  obtain ⟨q, -, hq⟩ := Fallible.mem_of_mapM_ok hclients hc
  obtain ⟨client, hclient, hmap⟩ := of_map_ok hq
  obtain rfl : c = some e := hce
  obtain ⟨client', rfl, rfl⟩ := Option.map_eq_some_iff.mp hmap
  exact hclient

theorem lookup_build {ids : List String} {catalog : Catalog} (h : Catalog.build env ids = .ok catalog) (hid : p ∈ ids)
    (hne : p ≠ "typesafe") : ∃ client, catalog.lookup p = some client := by
  obtain ⟨clients, hclients, rfl⟩ := of_map_ok h
  obtain ⟨c, hc, hp⟩ := Fallible.ok_of_mem hclients hid
  obtain ⟨client, hclient, rfl⟩ := of_map_ok hp
  cases client with
  | none => exact absurd (buildClient_none hclient) hne
  | some client =>
    have hkey : p ∈ (clients.filterMap id).map (·.1) :=
      List.mem_map.mpr ⟨(p, client), List.mem_filterMap.mpr ⟨_, hc, rfl⟩, rfl⟩
    exact Option.isSome_iff_exists.mp (Assoc.lookup_isSome.mpr hkey)

theorem buildEmbedders_ok_iff {ids : List String} :
    (∃ embedders, buildEmbedders env ids = .ok embedders) ↔ ∀ p ∈ ids, Embeds p ∧ Satisfiable env p := by
  unfold buildEmbedders
  rw [Fallible.exists_mapM_ok_iff]
  exact forall₂_congr fun p _ => Fallible.exists_map_ok_iff.trans buildEmbedder_ok_iff

theorem lookup_buildEmbedders {ids : List String} {embedders : List (String × BuiltEmbedder)}
    (h : buildEmbedders env ids = .ok embedders) (hp : p ∈ ids) :
    ∃ embedder, embedders.lookup p = some embedder ∧ buildEmbedder env p = .ok embedder := by
  have hmem : ∀ e ∈ embedders, buildEmbedder env e.1 = .ok e.2 := by
    intro e he
    obtain ⟨q, -, hq⟩ := Fallible.mem_of_mapM_ok h he
    obtain ⟨embedder, hembedder, rfl⟩ := of_map_ok hq
    exact hembedder
  obtain ⟨e, he, hq⟩ := Fallible.ok_of_mem h hp
  obtain ⟨embedder, -, rfl⟩ := of_map_ok hq
  obtain ⟨embedder', hlookup⟩ :=
    Option.isSome_iff_exists.mp (Assoc.lookup_isSome.mpr (List.mem_map_of_mem (f := (·.1)) he))
  exact ⟨embedder', hlookup, hmem (p, embedder') (Assoc.mem_of_lookup hlookup)⟩

/-! ## The tables -/

section
variable {order : HashOrder} {routes : RouteTable} {embeds : EmbeddingRouteTable} {drop : Finset String}

theorem mem_unsatisfiable {ps : Finset String} :
    p ∈ (unsatisfiableProviders order env ps).map (·.provider) ↔ p ∈ ps ∧ ¬ Satisfiable env p := by
  unfold unsatisfiableProviders Satisfiable
  simp only [List.mem_map, List.mem_insertionSort, List.mem_filterMap, order.mem_iter]
  constructor
  · rintro ⟨u, ⟨q, hq, hu⟩, rfl⟩
    rw [provider_of_unsatisfiable hu]
    exact ⟨hq, by rw [hu]; simp⟩
  · rintro ⟨hp, hu⟩
    obtain ⟨u, hu⟩ := Option.ne_none_iff_exists'.mp hu
    exact ⟨u, ⟨p, hp, hu⟩, provider_of_unsatisfiable hu⟩

theorem mem_dropped : p ∈ dropped order env routes embeds ↔
    (p ∈ routes.referencedProviders ∨ p ∈ embeds.referencedProviders) ∧ ¬ Satisfiable env p := by
  unfold dropped
  rw [List.mem_toFinset, mem_unsatisfiable, Finset.mem_union]

/-- The providers that are referenced and cannot be built. -/
def unservable (env : Env) (routes : RouteTable) (embeds : EmbeddingRouteTable) : Finset String :=
  (routes.referencedProviders ∪ embeds.referencedProviders).filter fun p => ¬ Satisfiable env p

/-- The tables with the legs that can be served, or as they are under strict validation. -/
def keptTables (env : Env) (routes : RouteTable) (embeds : EmbeddingRouteTable) : RouteTable × EmbeddingRouteTable :=
  match ProviderValidation.fromEnv env with
  | .strict => (routes, embeds)
  | .lenient => (routes.withoutProviders (unservable env routes embeds), embeds.withoutProviders (unservable env routes embeds))

/-- The order in which the providers are met does not show. -/
theorem servedTables_eq : servedTables order env routes embeds = keptTables env routes embeds := by
  have hdropped : dropped order env routes embeds = unservable env routes embeds := by
    ext p
    rw [mem_dropped, unservable, Finset.mem_filter, Finset.mem_union]
  unfold servedTables keptTables
  cases ProviderValidation.fromEnv env with
  | strict => rfl
  | lenient => simp only [hdropped]

theorem mem_referenced : p ∈ routes.referencedProviders ↔
    (∃ e ∈ routes.routes, ∃ leg ∈ e.2, leg.provider = p) ∨ routes.jev ≠ [] ∧ p = "typesafe" := by
  unfold RouteTable.referencedProviders
  rw [List.mem_toFinset, List.mem_append]
  refine or_congr (by simp only [List.mem_flatMap, List.mem_map]) ?_
  cases routes.jev <;> simp

theorem mem_embedReferenced : p ∈ embeds.referencedProviders ↔ ∃ e ∈ embeds.routes, ∃ leg ∈ e.2.legs, leg.provider = p := by
  unfold EmbeddingRouteTable.referencedProviders
  simp only [List.mem_toFinset, List.mem_flatMap, List.mem_map]

theorem referenced_withoutProviders (hv : routes.Valid) (h : p ∈ (routes.withoutProviders drop).referencedProviders) :
    p ∈ routes.referencedProviders ∧ p ∉ drop := by
  rw [mem_referenced] at h ⊢
  obtain ⟨e, he, leg, hleg, rfl⟩ | ⟨hjev, rfl⟩ := h
  · rw [hv.routes_withoutProviders] at he
    obtain ⟨e', he', rfl⟩ := List.mem_map.mp (List.mem_filter.mp he).1
    obtain ⟨hleg, hkept⟩ := List.mem_filter.mp hleg
    exact ⟨.inl ⟨e', he', leg, hleg, rfl⟩, of_decide_eq_true hkept⟩
  · obtain ⟨⟨name, k⟩, hk⟩ := List.exists_mem_of_ne_nil _ hjev
    obtain ⟨⟨name', r⟩, hr, hkept⟩ := List.mem_filterMap.mp hk
    refine ⟨.inr ⟨List.ne_nil_of_mem hr, rfl⟩, fun hdrop => ?_⟩
    simp only [if_pos hdrop] at hkept
    cases hkept

theorem embedReferenced_withoutProviders (h : p ∈ (embeds.withoutProviders drop).referencedProviders) :
    p ∈ embeds.referencedProviders ∧ p ∉ drop := by
  rw [mem_embedReferenced] at h ⊢
  obtain ⟨e, he, leg, hleg, rfl⟩ := h
  obtain ⟨e', he', rfl⟩ := List.mem_map.mp (List.mem_filter.mp he).1
  obtain ⟨hleg, hkept⟩ := List.mem_filter.mp hleg
  exact ⟨⟨e', he', leg, hleg, rfl⟩, of_decide_eq_true hkept⟩

theorem embedReferenced_of_kept (h : p ∈ embeds.referencedProviders) (hkept : p ∉ drop) :
    p ∈ (embeds.withoutProviders drop).referencedProviders := by
  rw [mem_embedReferenced] at h ⊢
  obtain ⟨e, he, leg, hleg, rfl⟩ := h
  have hmem : leg ∈ e.2.legs.filter (·.provider ∉ drop) := List.mem_filter.mpr ⟨hleg, decide_eq_true hkept⟩
  refine ⟨_, List.mem_filter.mpr ⟨List.mem_map_of_mem he, ?_⟩, leg, hmem, rfl⟩
  simpa using List.ne_nil_of_mem hmem

end

/-! ## The guard -/

section
variable {llm : LlmGuard} {w : ClassifierOutside} {cfg : GuardrailsConfig} {routes : RouteTable} {jev : Bool}

theorem policy_wire (eng : GuardEngine) (policy name : String) (c : Classifier) : (eng.wire policy c).policy name =
    (eng.policy name).map fun q => if name = policy then { q with classifier := some c } else q := by
  have hmap : (eng.policies.map fun e => if e.1 == policy then (e.1, { e.2 with classifier := some c }) else e) =
      eng.policies.map fun e => (e.1, if e.1 = policy then { e.2 with classifier := some c } else e.2) := by
    apply List.map_congr_left
    intro e _
    by_cases h : e.1 = policy <;> simp [h]
  unfold GuardEngine.policy GuardEngine.wire
  rw [hmap]
  exact Assoc.lookup_map eng.policies (fun n q => if n = policy then { q with classifier := some c } else q) name

/-- The classifier of `p` is built from an entry of `name`. -/
def BuiltFrom (w : ClassifierOutside) (routes : RouteTable) (jev : Bool) (entries : List (String × Policy)) (name : String)
    (p : CompiledPolicy) : Prop :=
  ∃ policy c k, (name, policy) ∈ entries ∧ policy.classifier = some c ∧ jev = true ∧ GuardClassifier.new c routes = .ok k ∧
    p.classifier = some (k.asked w)

/-- What the entries make of a policy of the engine: its classifier is built, or none of them has one. -/
def WiredAs (w : ClassifierOutside) (routes : RouteTable) (jev : Bool) (entries : List (String × Policy)) (name : String) :
    Option CompiledPolicy → Option CompiledPolicy → Prop
  | none, none => True
  | some p, some p' => p'.wantsClassifier = p.wantsClassifier ∧
      (p'.classifier = p.classifier ∧ (∀ policy, (name, policy) ∈ entries → policy.classifier = none) ∨
        BuiltFrom w routes jev entries name p')
  | _, _ => False

theorem BuiltFrom.cons {e : String × Policy} {entries : List (String × Policy)} {name : String} {p : CompiledPolicy}
    (h : BuiltFrom w routes jev entries name p) : BuiltFrom w routes jev (e :: entries) name p := by
  obtain ⟨policy, c, k, hmem, hbuilt⟩ := h
  exact ⟨policy, c, k, List.mem_cons_of_mem e hmem, hbuilt⟩

theorem WiredAs.cons {e : String × Policy} {entries : List (String × Policy)} {name : String} {o o' : Option CompiledPolicy}
    (h : WiredAs w routes jev entries name o o') (he : e.1 = name → e.2.classifier = none) :
    WiredAs w routes jev (e :: entries) name o o' := by
  match o, o', h with
  | none, none, _ => exact trivial
  | some p, some p', ⟨hwants, hclassifier⟩ =>
    refine ⟨hwants, hclassifier.imp (fun h => ⟨h.1, fun policy hmem => ?_⟩) BuiltFrom.cons⟩
    rcases List.mem_cons.mp hmem with rfl | hmem
    · exact he rfl
    · exact h.2 policy hmem

theorem withClassifiers_step {e : String × Policy} {eng eng₁ : GuardEngine}
    (h : (match e.2.classifier with
      | none => Except.ok eng
      | some c => do
        refuseIf (jev = false) ["policy '" ++ e.1 ++ "': a classifier requires TYPESAFE_API_KEY"]
        let k ← (GuardClassifier.new c routes).mapError (("policy '" ++ e.1 ++ "'") :: ·)
        .ok (eng.wire e.1 (k.asked w))) = .ok eng₁) :
    e.2.classifier = none ∧ eng₁ = eng ∨ ∃ c k, e.2.classifier = some c ∧ jev = true ∧ GuardClassifier.new c routes = .ok k ∧
      eng₁ = eng.wire e.1 (k.asked w) := by
  cases hc : e.2.classifier with
  | none =>
    rw [hc] at h
    exact .inl ⟨rfl, (Except.ok.inj h).symm⟩
  | some c =>
    rw [hc] at h
    obtain ⟨_, hjev, h⟩ := of_bind_ok h
    obtain ⟨k, hk, h⟩ := of_bind_ok h
    refine .inr ⟨c, k, rfl, ?_, of_mapError_ok hk, (Except.ok.inj h).symm⟩
    exact Bool.not_eq_false _ ▸ Fallible.of_refuseIf_ok hjev

theorem withClassifiers_wired {entries : List (String × Policy)} {eng eng' : GuardEngine}
    (h : eng.withClassifiers w ⟨entries⟩ routes jev = .ok eng') (name : String) :
    WiredAs w routes jev entries name (eng.policy name) (eng'.policy name) := by
  unfold GuardEngine.withClassifiers at h
  simp only at h
  induction entries generalizing eng with
  | nil =>
    obtain rfl := Except.ok.inj h
    cases eng.policy name with
    | none => exact trivial
    | some p => exact ⟨rfl, .inl ⟨rfl, fun _ hmem => by cases hmem⟩⟩
  | cons e entries ih =>
    rw [List.foldlM_cons] at h
    obtain ⟨eng₁, hstep, h⟩ := of_bind_ok h
    have ih := ih h
    rcases withClassifiers_step hstep with ⟨hnone, rfl⟩ | ⟨c, k, hc, hjev, hk, rfl⟩
    · exact ih.cons fun _ => hnone
    · rw [policy_wire] at ih
      by_cases hname : name = e.1
      · have hbuilt : ∀ p' : CompiledPolicy, p'.classifier = some (k.asked w) →
            BuiltFrom w routes jev (e :: entries) name p' :=
          fun p' hp' => ⟨e.2, c, k, hname ▸ List.mem_cons_self, hc, hjev, hk, hp'⟩
        match eng.policy name, eng'.policy name, ih with
        | none, none, _ => exact trivial
        | some p, some p', h =>
          simp only [Option.map_some, if_pos hname] at h
          exact ⟨h.1, .inr (h.2.elim (fun hsame => hbuilt p' hsame.1) BuiltFrom.cons)⟩
      · have hsame : ((eng.policy name).map fun q => if name = e.1 then { q with classifier := some (k.asked w) } else q) =
            eng.policy name := by
          simp [hname]
        rw [hsame] at ih
        exact ih.cons fun he => absurd he.symm hname

theorem checkClassifier_ok {policy : String} {c : ClassifierConfig} (h : checkClassifier policy c routes = .ok ()) :
    c.questions ≠ [] ∧ ∀ q ∈ c.questions, 0 ≤ q.2.threshold ∧ q.2.threshold ≤ 1 ∧ q.2.action ≠ some .mask := by
  obtain ⟨legs, -, h⟩ := of_bind_ok h
  obtain ⟨-, h⟩ := Fallible.bind_ok_iff.mp h
  obtain ⟨hsome, h⟩ := Fallible.bind_ok_iff.mp h
  refine ⟨Fallible.refuseIf_ok_iff.mp hsome, fun q hq => ?_⟩
  obtain ⟨hthreshold, haction⟩ := Fallible.bind_ok_iff.mp (Fallible.forM_ok_iff.mp h q hq)
  obtain ⟨h0, h1⟩ := not_not.mp (Fallible.refuseIf_ok_iff.mp hthreshold)
  exact ⟨h0, h1, Fallible.refuseIf_ok_iff.mp haction⟩

theorem new_ok {c : ClassifierConfig} {k : GuardClassifier} (h : GuardClassifier.new c routes = .ok k) :
    k.questions = c.questions ∧ k.models ≠ [] ∧
      ∃ legs, routes.legs k.route = some legs ∧ k.models = (legs.filter (·.provider == "typesafe")).map (·.model) := by
  unfold GuardClassifier.new at h
  cases hlegs : routes.legs c.route with
  | none =>
    rw [hlegs] at h
    cases h
  | some legs =>
    simp only [hlegs] at h
    split at h
    · cases h
    · rename_i hne
      obtain rfl := Except.ok.inj h
      exact ⟨rfl, fun hnil => hne (List.isEmpty_iff.mpr hnil), legs, hlegs, rfl⟩

/-- A classifier that can be asked, with questions it can be judged by. -/
structure ClassifierReady (w : ClassifierOutside) (routes : RouteTable) (p : CompiledPolicy) (k : GuardClassifier) : Prop where
  wired : p.classifier = some (k.asked w)
  models : k.models ≠ []
  route : ∃ legs, routes.legs k.route = some legs ∧ k.models = (legs.filter (·.provider == "typesafe")).map (·.model)
  questions : k.questions ≠ []
  bounded : ∀ q ∈ k.questions, 0 ≤ q.2.threshold ∧ q.2.threshold ≤ 1 ∧ q.2.action ≠ some .mask

theorem compilePolicy_wants {name : String} {policy : Policy} {p : CompiledPolicy} (h : compilePolicy llm name policy = .ok p) :
    p.wantsClassifier = policy.classifier.isSome := by
  obtain ⟨_, -, h⟩ := of_bind_ok h
  obtain ⟨input, -, h⟩ := of_bind_ok h
  simp only at h
  split at h
  · obtain rfl := Except.ok.inj h
    rfl
  · obtain ⟨output, -, h⟩ := of_bind_ok h
    obtain rfl := Except.ok.inj h
    rfl

theorem buildGuard_ready {guard : GuardEngine} (h : buildGuard llm w (some cfg) routes jev = .ok guard) {name : String}
    {p : CompiledPolicy} (hp : guard.policy name = some p) (hwants : p.wantsClassifier = true) :
    jev = true ∧ ∃ k, ClassifierReady w routes p k := by
  obtain ⟨_, hkeys, h⟩ := of_bind_ok h
  obtain ⟨eng, heng, h⟩ := of_bind_ok h
  have hwired := withClassifiers_wired h name
  rw [hp] at hwired
  rcases @policy_of_config _ _ _ name (of_mapError_ok heng) with ⟨-, hnone⟩ | ⟨policy, q, hlookup, hq, hcompiled⟩
  · rw [hnone] at hwired
    exact hwired.elim
  · rw [hq] at hwired
    rw [hwired.1, compilePolicy_wants hcompiled] at hwants
    rcases hwired.2 with ⟨-, hall⟩ | ⟨policy', c, k, hmem, hc, hjev, hk, hclassifier⟩
    · rw [hall policy (Assoc.mem_of_lookup hlookup)] at hwants
      cases hwants
    · obtain ⟨hquestions, hmodels, hroute⟩ := new_ok hk
      obtain ⟨-, hcheck⟩ := Fallible.bind_ok_iff.mp (Fallible.forM_ok_iff.mp hkeys _ hmem)
      simp only [hc] at hcheck
      obtain ⟨hsome, hbounded⟩ := checkClassifier_ok hcheck
      exact ⟨hjev, k, hclassifier, hmodels, hroute, hquestions ▸ hsome, hquestions ▸ hbounded⟩

theorem buildGuard_policy {guard : GuardEngine} (h : buildGuard llm w (some cfg) routes jev = .ok guard) {name : String}
    (hname : (cfg.guardrails.lookup name).isSome = true) : (guard.policy name).isSome = true := by
  obtain ⟨_, -, h⟩ := of_bind_ok h
  obtain ⟨eng, heng, h⟩ := of_bind_ok h
  have hwired := withClassifiers_wired h name
  rcases @policy_of_config _ _ _ name (of_mapError_ok heng) with ⟨hnone, -⟩ | ⟨policy, q, -, hq, -⟩
  · rw [hnone] at hname
    cases hname
  · rw [hq] at hwired
    cases hp : guard.policy name with
    | none =>
      rw [hp] at hwired
      exact hwired.elim
    | some p => rfl

theorem defined_of_validate {mode : GuardrailsMode} {path : String} {embeds : EmbeddingRouteTable}
    (h : validateGuardrails mode path (some cfg) routes embeds = .ok ()) (hmode : mode = .required) {name policy : String}
    (hnamed : (name, policy) ∈ routes.policies ∨ (name, policy) ∈ embeds.policies) :
    (cfg.guardrails.lookup policy).isSome = true := by
  obtain ⟨-, h⟩ := Fallible.bind_ok_iff.mp h
  have hnil : undefinedPolicies cfg routes embeds = [] := by
    by_contra hne
    exact Fallible.refuseIf_ok_iff.mp h ⟨hmode, hne⟩
  by_contra hundefined
  have hmem : ∀ kind (policies : List (String × String)), (name, policy) ∈ policies →
      (kind, name, policy) ∈ mentioned kind policies :=
    fun kind policies hp => List.mem_map.mpr ⟨(name, policy), (List.mem_insertionSort _).mpr hp, rfl⟩
  unfold undefinedPolicies at hnil
  rw [List.filter_eq_nil_iff] at hnil
  have hnone : (cfg.guardrails.lookup policy).isNone = true :=
    Option.isNone_iff_eq_none.mpr (Option.not_isSome_iff_eq_none.mp hundefined)
  rcases hnamed with hnamed | hnamed
  · exact hnil _ (List.mem_append_left _ (hmem "route" _ hnamed)) hnone
  · exact hnil _ (List.mem_append_right _ (hmem "embedding" _ hnamed)) hnone

end

/-! ## The start -/

section
variable {llm : LlmGuard} {w : ClassifierOutside} {order : HashOrder} {files : BootFiles} {gw : BootedGateway}

/-- A loaded or pruned table of embedding aliases. -/
structure EmbeddingRouteTable.Valid (t : EmbeddingRouteTable) : Prop where
  nodup : (t.routes.map (·.1)).Nodup
  entries : ∀ e ∈ t.routes, 0 < e.2.dimensions ∧ e.2.legs ≠ []

/-- What a started gateway makes good on. -/
structure Serves (w : ClassifierOutside) (env : Env) (files : BootFiles) (gw : BootedGateway) : Prop where
  legs : ∀ model legs leg, gw.routes.legs model = some legs → leg ∈ legs →
    leg.provider = "typesafe" ∧ gw.jevNative.isSome = true ∨ ∃ client, gw.catalog.lookup leg.provider = some client
  vertex : ∀ client, gw.catalog.lookup "vertex" = some client → ∃ project location,
    client = .vertex project "global" ∧ gw.vertexNative = some ⟨project, location⟩
  jev : ∀ model route, gw.routes.jevRoute model = some route → gw.jevNative.isSome = true
  embeddings : ∀ model e, gw.embedRoutes.entry model = some e → 0 < e.dimensions ∧ e.legs ≠ [] ∧
    ∀ leg ∈ e.legs, ∃ embedder, gw.embedders.lookup leg.provider = some embedder
  required : GuardrailsMode.fromEnv env = .required → ∃ cfg, files.guardrails = some cfg
  policies : GuardrailsMode.fromEnv env = .required → ∀ policy,
    (∃ model, gw.routes.policyOf model = some policy) ∨
      (∃ model e, gw.embedRoutes.entry model = some e ∧ e.policy = some policy) → (gw.guard.policy policy).isSome = true
  classifiers : ∀ name p, gw.guard.policy name = some p → p.wantsClassifier = true →
    gw.jevNative.isSome = true ∧ ∃ k, ClassifierReady w gw.routes p k

/-- The guard of the tables that are served can be built. -/
def GuardBoots (llm : LlmGuard) (w : ClassifierOutside) (env : Env) (files : BootFiles)
    (tables : RouteTable × EmbeddingRouteTable) : Prop :=
  validateGuardrails (GuardrailsMode.fromEnv env) files.guardrailsPath files.guardrails tables.1 tables.2 = .ok () ∧
    ∃ guard, buildGuard llm w files.guardrails tables.1 (JevNative.fromEnv env).isSome = .ok guard

/-- The files that name no provider can be read and taken. -/
structure BootFiles.Loads (files : BootFiles) : Prop where
  pricing : files.pricing = .ok ()
  taskTypes : ∃ t, files.taskTypes = .ok t
  a2aSeed : files.a2aSeed = .ok ()

/-- A start, step by step. -/
structure Started (llm : LlmGuard) (w : ClassifierOutside) (order : HashOrder) (env : Env) (files : BootFiles)
    (routes : RouteTable) (embeds : EmbeddingRouteTable) (gw : BootedGateway) : Prop where
  readRoutes : RouteTable.fromFile files.routes = .ok routes
  readEmbeds : EmbeddingRouteTable.fromFile files.embeddings = .ok embeds
  loads : files.Loads
  tables : (gw.routes, gw.embedRoutes) = servedTables order env routes embeds
  checked : validateGuardrails (GuardrailsMode.fromEnv env) files.guardrailsPath files.guardrails gw.routes
    gw.embedRoutes = .ok ()
  catalog : Catalog.build env (order.iter gw.routes.referencedProviders) = .ok gw.catalog
  embedders : buildEmbedders env (order.iter gw.embedRoutes.referencedProviders) = .ok gw.embedders
  guard : buildGuard llm w files.guardrails gw.routes (JevNative.fromEnv env).isSome = .ok gw.guard
  jevNative : gw.jevNative = JevNative.fromEnv env
  vertexNative : gw.vertexNative = (vertexProjectFromEnv env).map fun project => ⟨project, vertexLocation env⟩

theorem boot_started (h : boot llm w order env files = .ok gw) :
    ∃ routes embeds, Started llm w order env files routes embeds gw := by
  obtain ⟨routes, hroutes, h⟩ := of_bind_ok h
  obtain ⟨embeds, hembeds, h⟩ := of_bind_ok h
  obtain ⟨_, hpricing, h⟩ := of_bind_ok h
  obtain ⟨taskTypes, htypes, h⟩ := of_bind_ok h
  obtain ⟨_, hchecked, h⟩ := of_bind_ok h
  obtain ⟨catalog, hcatalog, h⟩ := of_bind_ok h
  obtain ⟨embedders, hembedders, h⟩ := of_bind_ok h
  obtain ⟨guard, hguard, h⟩ := of_bind_ok h
  obtain ⟨_, hseed, h⟩ := of_bind_ok h
  obtain rfl := Except.ok.inj h
  exact ⟨routes, embeds, of_mapError_ok hroutes, hembeds, ⟨hpricing, ⟨taskTypes, htypes⟩, hseed⟩, rfl, hchecked, hcatalog,
    hembedders, hguard, rfl, rfl⟩

theorem EmbeddingRouteTable.Valid.withoutProviders {embeds : EmbeddingRouteTable} (h : embeds.Valid) (drop : Finset String) :
    (embeds.withoutProviders drop).Valid := by
  refine { nodup := ?_, entries := ?_ }
  · have hsub := (List.filter_sublist (p := fun e : String × EmbeddingEntry => !e.2.legs.isEmpty)
      (l := embeds.routes.map fun e => (e.1, { e.2 with legs := e.2.legs.filter (·.provider ∉ drop) }))).map (·.1)
    rw [List.map_map] at hsub
    exact h.nodup.sublist hsub
  · intro e he
    obtain ⟨hmem, hlegs⟩ := List.mem_filter.mp he
    obtain ⟨e', he', rfl⟩ := List.mem_map.mp hmem
    exact ⟨(h.entries e' he').1, by simpa using hlegs⟩

theorem embedFromFile_valid {file : EmbeddingsFile} {embeds : EmbeddingRouteTable}
    (h : EmbeddingRouteTable.fromFile file = .ok embeds) : embeds.Valid := by
  obtain ⟨_, hchecked, rfl⟩ := of_map_ok h
  refine { nodup := file.nodup, entries := fun e he => ?_ }
  obtain ⟨_, -, he⟩ := Fallible.ok_of_mem hchecked he
  obtain ⟨hdimensions, hlegs⟩ := Fallible.bind_ok_iff.mp he
  exact ⟨Nat.pos_of_ne_zero (Fallible.refuseIf_ok_iff.mp hdimensions), Fallible.refuseIf_ok_iff.mp hlegs⟩

section
variable {routes : RouteTable} {embeds : EmbeddingRouteTable}

theorem served_valid (hr : routes.Valid) (he : embeds.Valid) :
    (servedTables order env routes embeds).1.Valid ∧ (servedTables order env routes embeds).2.Valid := by
  unfold servedTables
  split
  · exact ⟨hr, he⟩
  · exact ⟨hr.withoutProviders _, he.withoutProviders _⟩

theorem Started.valid (h : Started llm w order env files routes embeds gw) : gw.routes.Valid ∧ gw.embedRoutes.Valid := by
  have hserved := @served_valid env order _ _ (fromFile_valid h.readRoutes) (embedFromFile_valid h.readEmbeds)
  rw [← h.tables] at hserved
  exact hserved

theorem Started.satisfiable (h : Started llm w order env files routes embeds gw) (hp : p ∈ gw.routes.referencedProviders) :
    Satisfiable env p :=
  build_ok_iff.mp ⟨gw.catalog, h.catalog⟩ p ((order.mem_iter _ p).mpr hp)

theorem Started.jev (h : Started llm w order env files routes embeds gw) (hp : "typesafe" ∈ gw.routes.referencedProviders) :
    gw.jevNative.isSome = true := by
  rw [h.jevNative, jevNative_isSome_iff]
  exact h.satisfiable hp

theorem Started.leg (h : Started llm w order env files routes embeds gw) {model : String} {legs : List ChainLeg}
    {leg : ChainLeg} (hlegs : gw.routes.legs model = some legs) (hleg : leg ∈ legs) :
    leg.provider = "typesafe" ∧ gw.jevNative.isSome = true ∨ ∃ client, gw.catalog.lookup leg.provider = some client := by
  have hp : leg.provider ∈ gw.routes.referencedProviders :=
    mem_referenced.mpr (.inl ⟨_, Assoc.mem_of_lookup hlegs, leg, hleg, rfl⟩)
  by_cases htypesafe : leg.provider = "typesafe"
  · exact .inl ⟨htypesafe, h.jev (htypesafe ▸ hp)⟩
  · exact .inr (lookup_build h.catalog ((order.mem_iter _ _).mpr hp) htypesafe)

theorem Started.vertex (h : Started llm w order env files routes embeds gw) {client : BuiltClient}
    (hclient : gw.catalog.lookup "vertex" = some client) :
    ∃ project location, client = .vertex project "global" ∧ gw.vertexNative = some ⟨project, location⟩ := by
  obtain ⟨project, hproject, rfl⟩ := buildClient_vertex (mem_build h.catalog (Assoc.mem_of_lookup hclient))
  exact ⟨project, vertexLocation env, rfl, by rw [h.vertexNative, hproject]; rfl⟩

theorem Started.embedding (h : Started llm w order env files routes embeds gw) {model : String} {e : EmbeddingEntry}
    (hentry : gw.embedRoutes.entry model = some e) : 0 < e.dimensions ∧ e.legs ≠ [] ∧
      ∀ leg ∈ e.legs, ∃ embedder, gw.embedders.lookup leg.provider = some embedder := by
  have hmem := Assoc.mem_of_lookup hentry
  obtain ⟨hdimensions, hlegs⟩ := h.valid.2.entries _ hmem
  refine ⟨hdimensions, hlegs, fun leg hleg => ?_⟩
  have hp := mem_embedReferenced.mpr ⟨_, hmem, leg, hleg, rfl⟩
  obtain ⟨embedder, hembedder, -⟩ := lookup_buildEmbedders h.embedders ((order.mem_iter _ _).mpr hp)
  exact ⟨embedder, hembedder⟩

theorem Started.required (h : Started llm w order env files routes embeds gw)
    (hmode : GuardrailsMode.fromEnv env = .required) : ∃ cfg, files.guardrails = some cfg := by
  have hchecked := h.checked
  cases hcfg : files.guardrails with
  | some cfg => exact ⟨cfg, rfl⟩
  | none =>
    rw [hcfg] at hchecked
    exact absurd hmode (Fallible.refuseIf_ok_iff.mp hchecked)

theorem Started.policy (h : Started llm w order env files routes embeds gw)
    (hmode : GuardrailsMode.fromEnv env = .required) {policy : String}
    (hnamed : (∃ model, gw.routes.policyOf model = some policy) ∨
      (∃ model e, gw.embedRoutes.entry model = some e ∧ e.policy = some policy)) :
    (gw.guard.policy policy).isSome = true := by
  obtain ⟨cfg, hcfg⟩ := h.required hmode
  have hchecked := h.checked
  have hguard := h.guard
  rw [hcfg] at hchecked hguard
  apply buildGuard_policy hguard
  rcases hnamed with ⟨model, hmodel⟩ | ⟨model, e, hentry, hpolicy⟩
  · exact defined_of_validate hchecked hmode (.inl (Assoc.mem_of_lookup hmodel))
  · have hmem : (model, policy) ∈ gw.embedRoutes.policies :=
      List.mem_filterMap.mpr ⟨(model, e), Assoc.mem_of_lookup hentry, by rw [hpolicy]; rfl⟩
    exact defined_of_validate hchecked hmode (.inr hmem)

theorem Started.classifier (h : Started llm w order env files routes embeds gw) {name : String} {p : CompiledPolicy}
    (hp : gw.guard.policy name = some p) (hwants : p.wantsClassifier = true) :
    gw.jevNative.isSome = true ∧ ∃ k, ClassifierReady w gw.routes p k := by
  have hguard := h.guard
  cases hcfg : files.guardrails with
  | none =>
    rw [hcfg] at hguard
    rw [← Except.ok.inj hguard] at hp
    cases hp
  | some cfg =>
    rw [hcfg] at hguard
    rw [h.jevNative]
    exact buildGuard_ready hguard hp hwants

end

/-- Whatever a started gateway names it has: a client or the native lane for each leg,
an embedder for each embedding leg, the policies, and the classifiers they want. -/
theorem boot_serves (h : boot llm w order env files = .ok gw) : Serves w env files gw := by
  obtain ⟨routes, embeds, hs⟩ := boot_started h
  refine {
    legs := fun _ _ _ => hs.leg
    vertex := fun _ => hs.vertex
    jev := fun model route hroute => ?_
    embeddings := fun _ _ => hs.embedding
    required := hs.required
    policies := fun hmode _ => hs.policy hmode
    classifiers := fun _ _ => hs.classifier }
  exact hs.jev (mem_referenced.mpr (.inr ⟨List.ne_nil_of_mem (Assoc.mem_of_lookup hroute), rfl⟩))

/-! ## When it starts -/

theorem boot_of_started {routes : RouteTable} {embeds : EmbeddingRouteTable} {catalog : Catalog}
    {embedders : List (String × BuiltEmbedder)} (hloads : files.Loads)
    (hroutes : RouteTable.fromFile files.routes = .ok routes)
    (hembeds : EmbeddingRouteTable.fromFile files.embeddings = .ok embeds)
    (hguard : GuardBoots llm w env files (servedTables order env routes embeds))
    (hcatalog : Catalog.build env (order.iter (servedTables order env routes embeds).1.referencedProviders) = .ok catalog)
    (hembedders : buildEmbedders env (order.iter (servedTables order env routes embeds).2.referencedProviders) =
      .ok embedders) : ∃ gw, boot llm w order env files = .ok gw := by
  obtain ⟨hchecked, guard, hguard⟩ := hguard
  obtain ⟨hpricing, ⟨taskTypes, htypes⟩, hseed⟩ := hloads
  unfold boot
  rw [hroutes, hembeds]
  simp only [Except.mapError, bind, Except.bind, hpricing, htypes, hchecked, hcatalog, hembedders, hguard, hseed]
  exact ⟨_, rfl⟩

theorem boots_iff_built : (∃ gw, boot llm w order env files = .ok gw) ↔
    files.Loads ∧ ∃ routes embeds, RouteTable.fromFile files.routes = .ok routes ∧
      EmbeddingRouteTable.fromFile files.embeddings = .ok embeds ∧
      GuardBoots llm w env files (servedTables order env routes embeds) ∧
      (∀ p ∈ (servedTables order env routes embeds).1.referencedProviders, Satisfiable env p) ∧
      ∀ p ∈ (servedTables order env routes embeds).2.referencedProviders, Embeds p ∧ Satisfiable env p := by
  constructor
  · rintro ⟨gw, h⟩
    obtain ⟨routes, embeds, hs⟩ := boot_started h
    refine ⟨hs.loads, routes, embeds, hs.readRoutes, hs.readEmbeds, ?_, ?_, ?_⟩
    · rw [← hs.tables]
      exact ⟨hs.checked, gw.guard, hs.guard⟩
    · rw [← hs.tables]
      exact fun p => hs.satisfiable
    · rw [← hs.tables]
      intro p hp
      exact buildEmbedders_ok_iff.mp ⟨gw.embedders, hs.embedders⟩ p ((order.mem_iter _ p).mpr hp)
  · rintro ⟨hloads, routes, embeds, hroutes, hembeds, hguard, hcatalog, hembedders⟩
    obtain ⟨catalog, hcatalog⟩ := build_ok_iff.mpr fun p hp => hcatalog p ((order.mem_iter _ p).mp hp)
    obtain ⟨embedders, hembedders⟩ := buildEmbedders_ok_iff.mpr fun p hp => hembedders p ((order.mem_iter _ p).mp hp)
    exact boot_of_started hloads hroutes hembeds hguard hcatalog hembedders

section
variable {routes : RouteTable} {embeds : EmbeddingRouteTable}

theorem served_strict (h : ProviderValidation.fromEnv env = .strict) :
    servedTables order env routes embeds = (routes, embeds) := by
  unfold servedTables
  rw [h]

theorem served_lenient (h : ProviderValidation.fromEnv env = .lenient) : servedTables order env routes embeds =
    (routes.withoutProviders (dropped order env routes embeds), embeds.withoutProviders (dropped order env routes embeds)) := by
  unfold servedTables
  rw [h]

theorem served_satisfiable (hr : routes.Valid) (h : ProviderValidation.fromEnv env = .lenient)
    (hp : p ∈ (servedTables order env routes embeds).1.referencedProviders) : Satisfiable env p := by
  rw [served_lenient h] at hp
  obtain ⟨hreferenced, hkept⟩ := referenced_withoutProviders hr hp
  by_contra hunsatisfiable
  exact hkept (mem_dropped.mpr ⟨.inl hreferenced, hunsatisfiable⟩)

theorem mem_served_embeds (h : ProviderValidation.fromEnv env = .lenient) :
    p ∈ (servedTables order env routes embeds).2.referencedProviders ↔ p ∈ embeds.referencedProviders ∧ Satisfiable env p := by
  rw [served_lenient h]
  constructor
  · intro hp
    obtain ⟨hreferenced, hkept⟩ := embedReferenced_withoutProviders hp
    refine ⟨hreferenced, ?_⟩
    by_contra hunsatisfiable
    exact hkept (mem_dropped.mpr ⟨.inr hreferenced, hunsatisfiable⟩)
  · rintro ⟨hreferenced, hsatisfiable⟩
    exact embedReferenced_of_kept hreferenced fun hdrop => (mem_dropped.mp hdrop).2 hsatisfiable

end

/-- In whatever order the providers are met: exactly when the files load, the guard can be
built for the tables without what has no key, no embedding leg is of a provider with its
key but without an embedder and, under strict validation, every provider has its key. -/
theorem boots_iff : (∃ gw, boot llm w order env files = .ok gw) ↔
    files.Loads ∧ ∃ routes embeds, RouteTable.fromFile files.routes = .ok routes ∧
      EmbeddingRouteTable.fromFile files.embeddings = .ok embeds ∧
      GuardBoots llm w env files (keptTables env routes embeds) ∧
      (∀ p ∈ embeds.referencedProviders, Satisfiable env p → Embeds p) ∧
      (ProviderValidation.fromEnv env = .strict →
        ∀ p, p ∈ routes.referencedProviders ∨ p ∈ embeds.referencedProviders → Satisfiable env p) := by
  rw [boots_iff_built]
  refine and_congr_right fun _ => exists_congr fun routes => exists_congr fun embeds => ?_
  refine and_congr_right fun hroutes => and_congr_right fun _ => and_congr (servedTables_eq ▸ Iff.rfl) ?_
  cases h : ProviderValidation.fromEnv env with
  | strict =>
    rw [served_strict h]
    constructor
    · rintro ⟨hs, he⟩
      exact ⟨fun p hp _ => (he p hp).1, fun _ p hp => hp.elim (hs p) fun hp => (he p hp).2⟩
    · rintro ⟨he, hs⟩
      have hs := hs rfl
      exact ⟨fun p hp => hs p (.inl hp), fun p hp => ⟨he p hp (hs p (.inr hp)), hs p (.inr hp)⟩⟩
  | lenient =>
    constructor
    · rintro ⟨-, he⟩
      refine ⟨fun p hp hsatisfiable => (he p ((mem_served_embeds h).mpr ⟨hp, hsatisfiable⟩)).1, fun hstrict => ?_⟩
      cases hstrict
    · rintro ⟨he, -⟩
      refine ⟨fun p hp => served_satisfiable (fromFile_valid hroutes) h hp, fun p hp => ?_⟩
      obtain ⟨hreferenced, hsatisfiable⟩ := (mem_served_embeds h).mp hp
      exact ⟨he p hreferenced hsatisfiable, hsatisfiable⟩

/-! ## What is kept -/

/-- The legs that can be served. -/
def servable (env : Env) (legs : List ChainLeg) : List ChainLeg := legs.filter fun leg => Satisfiable env leg.provider

section
variable {routes : RouteTable} {embeds : EmbeddingRouteTable} {legs : List ChainLeg}

theorem servable_eq (h : ∀ leg ∈ legs, Satisfiable env leg.provider) : servable env legs = legs :=
  List.filter_eq_self.mpr fun leg hleg => decide_eq_true (h leg hleg)

theorem filter_dropped (h : ∀ leg ∈ legs, leg.provider ∈ routes.referencedProviders ∨ leg.provider ∈ embeds.referencedProviders) :
    legs.filter (·.provider ∉ dropped order env routes embeds) = servable env legs := by
  apply List.filter_congr
  intro leg hleg
  have hdropped := @mem_dropped env leg.provider order routes embeds
  rw [and_iff_right (h leg hleg)] at hdropped
  by_cases hs : Satisfiable env leg.provider <;> simp [hdropped, hs]

theorem legs_referenced {model : String} (hlegs : routes.legs model = some legs) {leg : ChainLeg} (hleg : leg ∈ legs) :
    leg.provider ∈ routes.referencedProviders :=
  mem_referenced.mpr (.inl ⟨_, Assoc.mem_of_lookup hlegs, leg, hleg, rfl⟩)

theorem entry_referenced {model : String} {e : EmbeddingEntry} (hentry : embeds.entry model = some e) {leg : ChainLeg}
    (hleg : leg ∈ e.legs) : leg.provider ∈ embeds.referencedProviders :=
  mem_embedReferenced.mpr ⟨_, Assoc.mem_of_lookup hentry, leg, hleg, rfl⟩

theorem EmbeddingRouteTable.Valid.entry_withoutProviders (h : embeds.Valid) (drop : Finset String) (model : String) :
    (embeds.withoutProviders drop).entry model =
      ((embeds.entry model).map fun e => { e with legs := e.legs.filter (·.provider ∉ drop) }).filter (!·.legs.isEmpty) := by
  unfold EmbeddingRouteTable.entry EmbeddingRouteTable.withoutProviders
  exact Assoc.lookup_map_filter h.nodup (fun e : EmbeddingEntry => { e with legs := e.legs.filter (·.provider ∉ drop) })
    (fun e : EmbeddingEntry => !e.legs.isEmpty) model

theorem Started.legs_kept (h : Started llm w order env files routes embeds gw) (model : String) :
    (gw.routes.legs model).getD [] = servable env ((routes.legs model).getD []) := by
  have htables := h.tables
  cases hmode : ProviderValidation.fromEnv env with
  | strict =>
    rw [served_strict hmode] at htables
    obtain rfl := congrArg Prod.fst htables
    apply Eq.symm
    apply servable_eq
    intro leg hleg
    cases hlegs : gw.routes.legs model with
    | none =>
      rw [hlegs] at hleg
      cases hleg
    | some legs =>
      rw [hlegs] at hleg
      exact h.satisfiable (legs_referenced hlegs hleg)
  | lenient =>
    rw [served_lenient hmode] at htables
    rw [show gw.routes = _ from congrArg Prod.fst htables, (fromFile_valid h.readRoutes).legs_withoutProviders]
    cases hlegs : routes.legs model with
    | none => rfl
    | some legs =>
      have hkept : legs.filter (·.provider ∉ dropped order env routes embeds) = servable env legs :=
        filter_dropped fun leg hleg => .inl (legs_referenced hlegs hleg)
      simp only [Option.map_some, hkept, Option.getD_some]
      by_cases hnil : servable env legs = [] <;> simp [Option.filter, hnil]

theorem Started.entry_kept (h : Started llm w order env files routes embeds gw) (model : String) :
    gw.embedRoutes.entry model =
      ((embeds.entry model).map fun e => { e with legs := servable env e.legs }).filter (!·.legs.isEmpty) := by
  have htables := h.tables
  cases hmode : ProviderValidation.fromEnv env with
  | strict =>
    rw [served_strict hmode] at htables
    obtain rfl := congrArg Prod.snd htables
    cases hentry : gw.embedRoutes.entry model with
    | none => rfl
    | some e =>
      have hall : servable env e.legs = e.legs := by
        apply servable_eq
        intro leg hleg
        have hp := (order.mem_iter _ _).mpr (entry_referenced hentry hleg)
        exact (buildEmbedders_ok_iff.mp ⟨gw.embedders, h.embedders⟩ _ hp).2
      have hne := (h.valid.2.entries _ (Assoc.mem_of_lookup hentry)).2
      simp [hall, Option.filter, hne]
  | lenient =>
    rw [served_lenient hmode] at htables
    rw [show gw.embedRoutes = _ from congrArg Prod.snd htables, (embedFromFile_valid h.readEmbeds).entry_withoutProviders]
    cases hentry : embeds.entry model with
    | none => rfl
    | some e =>
      have hkept : e.legs.filter (·.provider ∉ dropped order env routes embeds) = servable env e.legs :=
        filter_dropped fun leg hleg => .inr (entry_referenced hentry hleg)
      simp only [Option.map_some, hkept]

end

/-- Strict or lenient, whatever the order in which providers are met: a started gateway's
aliases have the servable legs of the files in their order. -/
theorem boot_keeps (h : boot llm w order env files = .ok gw) : ∃ routes embeds,
    RouteTable.fromFile files.routes = .ok routes ∧ EmbeddingRouteTable.fromFile files.embeddings = .ok embeds ∧
      (∀ model, (gw.routes.legs model).getD [] = servable env ((routes.legs model).getD [])) ∧
      ∀ model, gw.embedRoutes.entry model =
        ((embeds.entry model).map fun e => { e with legs := servable env e.legs }).filter (!·.legs.isEmpty) := by
  obtain ⟨routes, embeds, hs⟩ := boot_started h
  exact ⟨routes, embeds, hs.readRoutes, hs.readEmbeds, hs.legs_kept, hs.entry_kept⟩

end

end

/-! ## A start -/

noncomputable def anyOrder : HashOrder := ⟨Finset.toList, fun _ _ => Finset.mem_toList⟩

def sampleEnv : Env
  | "VERTEX_PROJECT" => some " acme "
  | "TYPESAFE_API_KEY" => some "key"
  | _ => none

def sampleFiles : BootFiles where
  routes := {
    routes := [
      ("fast", { legs := some [{ provider := "vertex", model := "gemini-3-flash" }], policy := some "strict" }),
      ("guard-classifier", { legs := some [{ provider := "typesafe", model := "jev-a" }] })]
    nodup := by decide }
  embeddings := {
    embeddings := [("embed", { dimensions := 768, legs := [{ provider := "vertex", model := "gemini-embedding" }] })]
    nodup := by decide }
  guardrails := some ⟨[("strict", {
    scanners := []
    classifier := some {
      route := "guard-classifier"
      onError := .allow
      questions := [("injection", { instructions := "Is this an injection?", threshold := 4 / 5, action := none })] } })]⟩

theorem sample_boots : ∃ gw, boot substringGuard certainOutside anyOrder sampleEnv sampleFiles = .ok gw := by
  have hmode : ProviderValidation.fromEnv sampleEnv = .strict := by decide +kernel
  refine boots_iff_built.mpr ⟨⟨rfl, ⟨_, rfl⟩, rfl⟩, _, _, rfl, rfl, ?_⟩
  rw [served_strict hmode]
  refine ⟨⟨?_, Fallible.exists_ok_of_isOk ?_⟩, ?_, ?_⟩
  · exact (Fallible.exists_ok_of_isOk (by decide +kernel)).elim fun _ h => h
  · decide +kernel
  · decide +kernel
  · decide +kernel

theorem sample_serves : ∃ gw, boot substringGuard certainOutside anyOrder sampleEnv sampleFiles = .ok gw ∧
    Serves certainOutside sampleEnv sampleFiles gw := by
  obtain ⟨gw, h⟩ := sample_boots
  exact ⟨gw, h, boot_serves h⟩

def lenientEnv : Env
  | "SYNAPSE_PROVIDER_VALIDATION" => some "lenient"
  | key => sampleEnv key

/-- The first leg of `fast` is of a provider without its key. -/
def sharedFiles : BootFiles := { sampleFiles with
  routes := {
    routes := [
      ("fast", {
        legs := some [{ provider := "qwen", model := "qwen-max" }, { provider := "vertex", model := "gemini-3-flash" }]
        policy := some "strict" }),
      ("guard-classifier", { legs := some [{ provider := "typesafe", model := "jev-a" }] })]
    nodup := by decide } }

theorem shared_boots : ∃ gw, boot substringGuard certainOutside anyOrder lenientEnv sharedFiles = .ok gw := by
  refine boots_iff_built.mpr ⟨⟨rfl, ⟨_, rfl⟩, rfl⟩, _, _, rfl, rfl, ?_⟩
  rw [servedTables_eq]
  refine ⟨⟨?_, Fallible.exists_ok_of_isOk ?_⟩, ?_, ?_⟩
  · exact (Fallible.exists_ok_of_isOk (by decide +kernel)).elim fun _ h => h
  · decide +kernel
  · decide +kernel
  · decide +kernel

/-- The leg without its key is gone, the other is served. -/
theorem sample_keeps : ∃ gw routes, boot substringGuard certainOutside anyOrder lenientEnv sharedFiles = .ok gw ∧
    RouteTable.fromFile sharedFiles.routes = .ok routes ∧
    (∀ model, (gw.routes.legs model).getD [] = servable lenientEnv ((routes.legs model).getD [])) ∧
    ((routes.legs "fast").getD []).map (·.provider) = ["qwen", "vertex"] ∧
    ((gw.routes.legs "fast").getD []).map (·.provider) = ["vertex"] := by
  obtain ⟨gw, h⟩ := shared_boots
  obtain ⟨routes, _, hroutes, -, hlegs, -⟩ := boot_keeps h
  obtain rfl := Except.ok.inj (hroutes.symm.trans rfl)
  refine ⟨gw, _, h, hroutes, hlegs, by decide +kernel, ?_⟩
  rw [hlegs]
  decide +kernel

end SynapseGateway
