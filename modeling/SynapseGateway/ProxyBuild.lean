import SynapseGateway.Lib.Inserts
import SynapseGateway.ProxyResponse
import SynapseGateway.ProxySound

/-!
# A proxy from its configuration

A route of the configuration is compiled into its steps. Its static headers are
a hash map, whose order is any, and become the first steps of the request.
-/

namespace SynapseGateway

open Utf8 (Text)

/-! ## The configuration -/

structure InjectSpec where
  header : Option String := none
  body : Option String := none
  fromContext : Option String := none
  constant : Option Json := none

structure WrapSpec where
  under : String
  inject : List InjectSpec := []

inductive RequestStepSpec where
  | inject (s : InjectSpec)
  | wrap (s : WrapSpec)
  | transform (name : String)

structure ErrorRemapSpec where
  whenStatus : Nat
  error : String
  detail : Option String := none

inductive ResponseStepSpec where
  | errorRemap (s : ErrorRemapSpec)
  | transform (name : String)

/-- A route as it is written; `headers` in the order they are met. -/
structure RouteSpec where
  name : Option String := none
  pathPrefix : String
  upstream : String
  stripPrefix : Bool := false
  methods : List String := []
  headers : List (String × String) := []
  requireContext : List String := []
  requestSteps : List RequestStepSpec := []
  responseSteps : List ResponseStepSpec := []

def RouteSpec.label (r : RouteSpec) : String := r.name.getD r.pathPrefix

/-! ## Compiling it -/

def InjectSpec.target (s : InjectSpec) : Except String Target :=
  match s.header, s.body with
  | some h, none => .ok (.header h)
  | none, some b => .ok (.body b)
  | _, _ => .error "inject requires exactly one of `header` or `body`"

def InjectSpec.source (s : InjectSpec) : Except String Source :=
  match s.fromContext, s.constant with
  | some k, none => .ok (.context k)
  | none, some v => .ok (.const v)
  | _, _ => .error "inject requires exactly one of `from_context` or `const`"

def Inject.fromSpec (s : InjectSpec) : Except String Inject := do
  let target ← s.target
  let source ← s.source
  .ok ⟨target, source⟩

def Wrap.fromSpec (s : WrapSpec) : Except String Wrap := do
  let siblings ← s.inject.mapM Inject.fromSpec
  .ok ⟨s.under, siblings⟩

/-- `StatusCode::from_u16` takes three digits. -/
def ErrorRemap.fromSpec (s : ErrorRemapSpec) : Except String ErrorRemap :=
  if 100 ≤ s.whenStatus ∧ s.whenStatus < 1000 then .ok ⟨s.whenStatus, s.error, s.detail⟩
  else .error ("error_remap: invalid when_status " ++ toString s.whenStatus)

/-- The binary registers no transforms, so none is found by name. -/
def RequestStepSpec.compile (label : String) : RequestStepSpec → Except String RequestStep
  | .inject s => (Inject.fromSpec s).map .inject
  | .wrap s => (Wrap.fromSpec s).map .wrap
  | .transform name => .error ("unknown request transform '" ++ name ++ "' on route '" ++ label ++ "'")

def ResponseStepSpec.compile (label : String) : ResponseStepSpec → Except String ErrorRemap
  | .errorRemap s => ErrorRemap.fromSpec s
  | .transform name => .error ("unknown response transform '" ++ name ++ "' on route '" ++ label ++ "'")

def headerSpec (e : String × String) : InjectSpec := { header := some e.1, constant := some (str e.2) }

def compileRoute (r : RouteSpec) : Except String ProxyRoute := do
  let static ← r.headers.mapM fun e => (Inject.fromSpec (headerSpec e)).map .inject
  let request ← r.requestSteps.mapM (·.compile r.label)
  let response ← r.responseSteps.mapM (·.compile r.label)
  .ok {
    name := r.label
    pathPrefix := r.pathPrefix.toList
    upstream := r.upstream.toList
    stripPrefix := r.stripPrefix
    methods := r.methods.map String.toUpper
    requireContext := r.requireContext
    request := static ++ request
    response := response }

/-! ## What is accepted -/

structure InjectSpec.Valid (s : InjectSpec) : Prop where
  target : s.header.isSome ≠ s.body.isSome
  source : s.fromContext.isSome ≠ s.constant.isSome

def RequestStepSpec.Valid : RequestStepSpec → Prop
  | .inject s => s.Valid
  | .wrap s => ∀ i ∈ s.inject, i.Valid
  | .transform _ => False

def ResponseStepSpec.Valid : ResponseStepSpec → Prop
  | .errorRemap s => 100 ≤ s.whenStatus ∧ s.whenStatus < 1000
  | .transform _ => False

structure RouteSpec.Valid (r : RouteSpec) : Prop where
  request : ∀ s ∈ r.requestSteps, s.Valid
  response : ∀ s ∈ r.responseSteps, s.Valid

theorem target_ok_iff {s : InjectSpec} : (∃ t, s.target = .ok t) ↔ s.header.isSome ≠ s.body.isSome := by
  unfold InjectSpec.target
  cases s.header <;> cases s.body <;> simp

theorem source_ok_iff {s : InjectSpec} : (∃ t, s.source = .ok t) ↔ s.fromContext.isSome ≠ s.constant.isSome := by
  unfold InjectSpec.source
  cases s.fromContext <;> cases s.constant <;> simp

theorem inject_ok_iff {s : InjectSpec} : (∃ i, Inject.fromSpec s = .ok i) ↔ s.Valid := by
  constructor
  · rintro ⟨i, h⟩
    obtain ⟨target, htarget, h⟩ := Fallible.of_bind_ok h
    obtain ⟨source, hsource, -⟩ := Fallible.of_bind_ok h
    exact ⟨target_ok_iff.mp ⟨_, htarget⟩, source_ok_iff.mp ⟨_, hsource⟩⟩
  · intro h
    obtain ⟨target, htarget⟩ := target_ok_iff.mpr h.target
    obtain ⟨source, hsource⟩ := source_ok_iff.mpr h.source
    refine ⟨⟨target, source⟩, ?_⟩
    unfold Inject.fromSpec
    rw [htarget, hsource]
    rfl

theorem wrap_ok_iff {s : WrapSpec} : (∃ w, Wrap.fromSpec s = .ok w) ↔ ∀ i ∈ s.inject, i.Valid := by
  have hall : (∃ is, s.inject.mapM Inject.fromSpec = .ok is) ↔ ∀ i ∈ s.inject, i.Valid := by
    rw [Fallible.exists_mapM_ok_iff]
    exact forall₂_congr fun i _ => inject_ok_iff
  rw [← hall]
  constructor
  · rintro ⟨w, h⟩
    obtain ⟨is, his, -⟩ := Fallible.of_bind_ok h
    exact ⟨is, his⟩
  · rintro ⟨is, his⟩
    unfold Wrap.fromSpec
    rw [his]
    exact ⟨_, rfl⟩

theorem requestStep_ok_iff {label : String} {s : RequestStepSpec} : (∃ step, s.compile label = .ok step) ↔ s.Valid := by
  cases s with
  | inject s => exact Fallible.exists_map_ok_iff.trans inject_ok_iff
  | wrap s => exact Fallible.exists_map_ok_iff.trans wrap_ok_iff
  | transform name => simp [RequestStepSpec.compile, RequestStepSpec.Valid]

theorem responseStep_ok_iff {label : String} {s : ResponseStepSpec} : (∃ step, s.compile label = .ok step) ↔ s.Valid := by
  cases s with
  | errorRemap s =>
    unfold ResponseStepSpec.compile ErrorRemap.fromSpec ResponseStepSpec.Valid
    by_cases h : 100 ≤ s.whenStatus ∧ s.whenStatus < 1000 <;> simp [h]
  | transform name => simp [ResponseStepSpec.compile, ResponseStepSpec.Valid]

/-- The steps of the static headers. -/
def staticSteps (headers : List (String × String)) : List RequestStep :=
  headers.map fun e => .inject ⟨.header e.1, .const (str e.2)⟩

theorem static_ok (headers : List (String × String)) :
    headers.mapM (fun e => (Inject.fromSpec (headerSpec e)).map RequestStep.inject) = .ok (staticSteps headers) := by
  induction headers with
  | nil => rfl
  | cons e headers ih =>
    rw [List.mapM_cons, ih]
    rfl

/-- A route of its compiled steps. -/
def RouteSpec.compiled (r : RouteSpec) (request : List RequestStep) (response : List ErrorRemap) : ProxyRoute where
  name := r.label
  pathPrefix := r.pathPrefix.toList
  upstream := r.upstream.toList
  stripPrefix := r.stripPrefix
  methods := r.methods.map String.toUpper
  requireContext := r.requireContext
  request := staticSteps r.headers ++ request
  response := response

theorem compileRoute_eq (r : RouteSpec) :
    compileRoute r = (r.requestSteps.mapM (RequestStepSpec.compile r.label)).bind fun request =>
      (r.responseSteps.mapM (ResponseStepSpec.compile r.label)).bind fun response => .ok (r.compiled request response) := by
  unfold compileRoute
  rw [static_ok]
  rfl

theorem compileRoute_ok_iff (r : RouteSpec) : (∃ c, compileRoute r = .ok c) ↔ r.Valid := by
  have hrequest : (∃ steps, r.requestSteps.mapM (RequestStepSpec.compile r.label) = .ok steps) ↔
      ∀ s ∈ r.requestSteps, s.Valid := by
    rw [Fallible.exists_mapM_ok_iff]
    exact forall₂_congr fun s _ => requestStep_ok_iff
  have hresponse : (∃ steps, r.responseSteps.mapM (ResponseStepSpec.compile r.label) = .ok steps) ↔
      ∀ s ∈ r.responseSteps, s.Valid := by
    rw [Fallible.exists_mapM_ok_iff]
    exact forall₂_congr fun s _ => responseStep_ok_iff
  rw [compileRoute_eq]
  constructor
  · rintro ⟨c, h⟩
    obtain ⟨request, hreq, h⟩ := Fallible.of_bind_ok h
    obtain ⟨response, hresp, -⟩ := Fallible.of_bind_ok h
    exact ⟨hrequest.mp ⟨_, hreq⟩, hresponse.mp ⟨_, hresp⟩⟩
  · intro h
    obtain ⟨request, hreq⟩ := hrequest.mpr h.request
    obtain ⟨response, hresp⟩ := hresponse.mpr h.response
    rw [hreq, hresp]
    exact ⟨_, rfl⟩

/-! ## Requests that are alike -/

/-- The same request but for the order of its headers. -/
structure SameRequest (a b : ProxyRequest) : Prop where
  method : a.method = b.method
  path : a.path = b.path
  query : a.query = b.query
  headers : ∀ n, a.headers.lookup n = b.headers.lookup n
  body : a.body = b.body

def SameResult : Except TransformError ProxyRequest → Except TransformError ProxyRequest → Prop
  | .ok a, .ok b => SameRequest a b
  | .error e, .error e' => e = e'
  | _, _ => False

theorem SameResult.both {x y : Except TransformError ProxyRequest} (h : SameResult x y) :
    (∃ a b, x = .ok a ∧ y = .ok b ∧ SameRequest a b) ∨ ∃ e, x = .error e ∧ y = .error e := by
  cases x with
  | error e =>
    cases y with
    | error e' => exact .inr ⟨e, rfl, congrArg Except.error (Eq.symm h)⟩
    | ok b => exact h.elim
  | ok a =>
    cases y with
    | error e => exact h.elim
    | ok b => exact .inl ⟨a, b, rfl, rfl, h⟩

section
variable {http : HttpCrate} {ctx : ResolvedContext} {a b : ProxyRequest}

theorem bodyJson_same (h : SameRequest a b) : a.bodyJson http = b.bodyJson http := by
  unfold ProxyRequest.bodyJson
  rw [h.body]

theorem setHeader_same (h : SameRequest a b) (name : String) (value : Text) :
    SameRequest (a.setHeader http name value) (b.setHeader http name value) := by
  unfold ProxyRequest.setHeader
  split
  · rename_i n v _ _
    refine ⟨h.method, h.path, h.query, fun k => ?_, h.body⟩
    show (a.headers.insert n v).lookup k = (b.headers.insert n v).lookup k
    by_cases hk : k = n
    · rw [hk, AList.lookup_insert, AList.lookup_insert]
    · rw [AList.lookup_insert_ne hk, AList.lookup_insert_ne hk, h.headers k]
  · exact h

theorem removed_same {h h' : HeaderMap} (hs : ∀ k, h.lookup k = h'.lookup k) (n : String) :
    ∀ k, (h.erase n).lookup k = (h'.erase n).lookup k := by
  intro k
  by_cases hk : k = n
  · rw [hk, AList.lookup_erase, AList.lookup_erase]
  · rw [AList.lookup_erase_ne hk, AList.lookup_erase_ne hk, hs k]

theorem removeHeader_same (h : SameRequest a b) (name : String) :
    SameRequest (a.removeHeader http name) (b.removeHeader http name) := by
  unfold ProxyRequest.removeHeader
  split
  · exact ⟨h.method, h.path, h.query, removed_same h.headers _, h.body⟩
  · exact h

theorem withBody_same (h : SameRequest a b) (f : Json → Json) :
    SameResult ((a.bodyJson http).map fun v => { a with body := .json (f v) })
      ((b.bodyJson http).map fun v => { b with body := .json (f v) }) := by
  rw [bodyJson_same h]
  cases b.bodyJson http with
  | error e => exact rfl
  | ok v => exact ⟨h.method, h.path, h.query, h.headers, rfl⟩

theorem edit_same (h : SameRequest a b) (edit : Edit) : SameResult (edit.apply http ctx a) (edit.apply http ctx b) := by
  cases edit with
  | nest under => exact withBody_same h _
  | inject i =>
    show SameResult (i.apply http ctx a) (i.apply http ctx b)
    unfold Inject.apply
    split
    · exact setHeader_same h _ _
    · exact removeHeader_same h _
    · exact withBody_same h _
    · exact h

theorem edits_same (h : SameRequest a b) (edits : List Edit) :
    SameResult (edits.foldlM (Edit.apply http ctx) a) (edits.foldlM (Edit.apply http ctx) b) := by
  induction edits generalizing a b with
  | nil => exact h
  | cons edit edits ih =>
    rw [List.foldlM_cons, List.foldlM_cons]
    obtain ⟨a', b', ha, hb, hsame⟩ | ⟨e, ha, hb⟩ := (@edit_same http ctx a b h edit).both
    · rw [ha, hb]
      exact ih hsame
    · rw [ha, hb]
      exact rfl

theorem applySteps_same (h : SameRequest a b) (steps : List RequestStep) :
    SameResult (applySteps http ctx steps a) (applySteps http ctx steps b) := by
  rw [applySteps_edits, applySteps_edits]
  exact edits_same h _

end

/-! ## The static headers -/

/-- The header an entry sets, where it is one. -/
def staticHeader (http : HttpCrate) (e : String × String) : Option (String × Bytes) :=
  (http.headerName e.1).bind fun n => (http.headerValue e.2.toList).map fun v => (n, v)

/-- The request the steps of the static headers make. -/
def withStatic (http : HttpCrate) (headers : List (String × String)) (req : ProxyRequest) : ProxyRequest :=
  { req with headers := Inserts.fill req.headers (headers.filterMap (staticHeader http)) }

section
variable (http : HttpCrate) (ctx : ResolvedContext) {headers : List (String × String)}

theorem setHeader_static (e : String × String) (req : ProxyRequest) :
    req.setHeader http e.1 e.2.toList = withStatic http [e] req := by
  unfold ProxyRequest.setHeader withStatic
  cases hn : http.headerName e.1 with
  | none =>
    have he : staticHeader http e = none := by simp [staticHeader, hn]
    rw [List.filterMap_cons_none he]
    rfl
  | some n =>
    cases hv : http.headerValue e.2.toList with
    | none =>
      have he : staticHeader http e = none := by simp [staticHeader, hv]
      rw [List.filterMap_cons_none he]
      rfl
    | some v =>
      have he : staticHeader http e = some (n, v) := by simp [staticHeader, hn, hv]
      rw [List.filterMap_cons_some he]
      rfl

theorem applySteps_static (headers : List (String × String)) (steps : List RequestStep) (req : ProxyRequest) :
    applySteps http ctx (staticSteps headers ++ steps) req = applySteps http ctx steps (withStatic http headers req) := by
  induction headers generalizing req with
  | nil => rfl
  | cons e headers ih =>
    have hstep : applySteps http ctx (staticSteps (e :: headers) ++ steps) req =
        applySteps http ctx (staticSteps headers ++ steps) (req.setHeader http e.1 e.2.toList) := rfl
    have hfill : withStatic http headers (withStatic http [e] req) = withStatic http (e :: headers) req := by
      unfold withStatic Inserts.fill
      simp only
      rw [← List.foldl_append, ← List.filterMap_append]
      rfl
    rw [hstep, ih, setHeader_static, hfill]

end

/-! ## A route and its order -/

/-- No two entries that are one header set it to different values. -/
def RouteSpec.Unambiguous (http : HttpCrate) (r : RouteSpec) : Prop :=
  Inserts.Agree (r.headers.filterMap (staticHeader http))

/-- The route, its static headers met in another order. -/
def RouteSpec.Reordered (r r' : RouteSpec) : Prop :=
  ∃ headers : List (String × String), headers.Perm r.headers ∧ r' = { r with headers := headers }

/-- Routes that match alike and do the same with a request. -/
structure RoutesAlike (http : HttpCrate) (c c' : CompiledRoute) : Prop where
  pathPrefix : c'.pathPrefix = c.pathPrefix
  upstream : c'.upstream = c.upstream
  stripPrefix : c'.stripPrefix = c.stripPrefix
  methods : c'.methods = c.methods
  requireContext : c'.requireContext = c.requireContext
  request : ∀ ctx req, SameResult (applySteps http ctx c.request req) (applySteps http ctx c'.request req)

section
variable {http : HttpCrate} {r r' : RouteSpec} {c c' : ProxyRoute}

theorem withStatic_same_iff : (∀ headers : List (String × String), headers.Perm r.headers → ∀ req,
      SameRequest (withStatic http headers req) (withStatic http r.headers req)) ↔ r.Unambiguous http := by
  unfold RouteSpec.Unambiguous
  rw [← Inserts.fill_perm_iff]
  constructor
  · intro h headers hp m k
    exact (h headers hp ⟨"", [], none, m, .bytes []⟩).headers k
  · intro h headers hp req
    exact ⟨rfl, rfl, rfl, fun n => h headers hp req.headers n, rfl⟩

theorem SameRequest.symm {a b : ProxyRequest} (h : SameRequest a b) : SameRequest b a :=
  ⟨h.method.symm, h.path.symm, h.query.symm, fun n => (h.headers n).symm, h.body.symm⟩

theorem compiled_of_ok (h : compileRoute r = .ok c) : ∃ request response,
    r.requestSteps.mapM (RequestStepSpec.compile r.label) = .ok request ∧
      r.responseSteps.mapM (ResponseStepSpec.compile r.label) = .ok response ∧ c = r.compiled request response := by
  rw [compileRoute_eq] at h
  obtain ⟨request, hreq, h⟩ := Fallible.of_bind_ok h
  obtain ⟨response, hresp, h⟩ := Fallible.of_bind_ok h
  cases h
  exact ⟨request, response, hreq, hresp, rfl⟩

theorem RouteSpec.Reordered.valid (h : r.Reordered r') : r'.Valid ↔ r.Valid := by
  obtain ⟨headers, -, rfl⟩ := h
  exact ⟨fun h => ⟨h.request, h.response⟩, fun h => ⟨h.request, h.response⟩⟩

theorem reordered_alike (h : r.Reordered r') (hu : r.Unambiguous http) (hc : compileRoute r = .ok c)
    (hc' : compileRoute r' = .ok c') : RoutesAlike http c.toCompiledRoute c'.toCompiledRoute := by
  obtain ⟨headers, hp, rfl⟩ := h
  obtain ⟨request, response, hreq, -, rfl⟩ := compiled_of_ok hc
  obtain ⟨request', response', hreq', -, rfl⟩ := compiled_of_ok hc'
  have hsame : request' = request := Except.ok.inj (hreq'.symm.trans hreq)
  refine ⟨rfl, rfl, rfl, rfl, rfl, fun ctx req => ?_⟩
  show SameResult (applySteps http ctx (staticSteps r.headers ++ request) req)
    (applySteps http ctx (staticSteps headers ++ request') req)
  rw [hsame, applySteps_static, applySteps_static]
  exact applySteps_same (withStatic_same_iff.mpr hu headers hp req).symm request

end

/-! ## The proxy -/

def buildProxy (routes : List RouteSpec) : Except String (List ProxyRoute) := routes.mapM compileRoute

/-- The same but for the order of its headers. -/
structure SameForward (a b : Forward) : Prop where
  method : a.method = b.method
  url : a.url = b.url
  headers : ∀ n, a.headers.lookup n = b.headers.lookup n
  body : a.body = b.body

def SameAnswer : Except Refusal Forward → Except Refusal Forward → Prop
  | .ok a, .ok b => SameForward a b
  | .error e, .error e' => e = e'
  | _, _ => False

/-- What a configuration is built into. -/
structure ProxyBuilt (http : HttpCrate) (routes : List RouteSpec) : Prop where
  accepted : ∀ routes', List.Forall₂ RouteSpec.Reordered routes routes' →
    ((∃ cs, buildProxy routes' = .ok cs) ↔ ∀ r ∈ routes, r.Valid)
  first : ∀ r ∈ routes, ∀ c, compileRoute r = .ok c → ∃ steps,
    r.requestSteps.mapM (RequestStepSpec.compile r.label) = .ok steps ∧
      ∀ ctx req, applySteps http ctx c.request req = applySteps http ctx steps (withStatic http r.headers req)
  sets : ∀ r ∈ routes, r.Unambiguous http → ∀ n v, (n, v) ∈ r.headers.filterMap (staticHeader http) →
    ∀ req, (withStatic http r.headers req).headers.lookup n = some v
  keeps : ∀ r ∈ routes, ∀ n, (∀ v, (n, v) ∉ r.headers.filterMap (staticHeader http)) →
    ∀ req, (withStatic http r.headers req).headers.lookup n = req.headers.lookup n
  static : ∀ r ∈ routes, (∀ headers : List (String × String), headers.Perm r.headers → ∀ req,
    SameRequest (withStatic http headers req) (withStatic http r.headers req)) ↔ r.Unambiguous http
  alike : (∀ r ∈ routes, r.Unambiguous http) → ∀ routes' cs cs', List.Forall₂ RouteSpec.Reordered routes routes' →
    buildProxy routes = .ok cs → buildProxy routes' = .ok cs' → ∀ ctx req,
      SameAnswer (handler http (cs.map (·.toCompiledRoute)) ctx req) (handler http (cs'.map (·.toCompiledRoute)) ctx req)

section
variable {http : HttpCrate} {rs rs' : List CompiledRoute} {c c' : CompiledRoute}

theorem filter_alike {p : CompiledRoute → Bool} (hp : ∀ c c', RoutesAlike http c c' → p c' = p c)
    (h : List.Forall₂ (RoutesAlike http) rs rs') : List.Forall₂ (RoutesAlike http) (rs.filter p) (rs'.filter p) := by
  induction h with
  | nil => exact .nil
  | cons hc _ ih =>
    rename_i c c' _ _ _
    rw [List.filter_cons, List.filter_cons, hp c c' hc]
    split
    · exact .cons hc ih
    · exact ih

theorem maxByPrefix_alike (h : List.Forall₂ (RoutesAlike http) rs rs') :
    Option.Rel (RoutesAlike http) (maxByPrefix rs) (maxByPrefix rs') := by
  induction h with
  | nil => exact .none
  | cons hc _ ih =>
    rename_i c c' l l' _
    rw [maxByPrefix, maxByPrefix]
    generalize maxByPrefix l = best at ih
    generalize maxByPrefix l' = best' at ih
    cases ih with
    | none => exact .some hc
    | some hbest =>
      simp only [hc.pathPrefix, hbest.pathPrefix]
      split
      · exact .some hc
      · exact .some hbest

theorem matchRoute_alike (h : List.Forall₂ (RoutesAlike http) rs rs') (path : Text) (method : String) :
    Option.Rel (RoutesAlike http) (matchRoute rs path method) (matchRoute rs' path method) := by
  apply maxByPrefix_alike
  apply filter_alike fun c c' hc => ?_
  · exact filter_alike (fun c c' hc => by rw [hc.pathPrefix]) h
  · rw [hc.methods]

theorem intoForwardParts_same {a b : ProxyRequest} (h : SameRequest a b) :
    (∀ n, a.intoForwardParts.1.lookup n = b.intoForwardParts.1.lookup n) ∧
      a.intoForwardParts.2 = b.intoForwardParts.2 := by
  unfold ProxyRequest.intoForwardParts
  rw [h.body]
  cases b.body with
  | bytes bs => exact ⟨h.headers, rfl⟩
  | json v =>
    have hlength := removed_same h.headers "content-length"
    exact ⟨removed_same hlength "transfer-encoding", rfl⟩

theorem forwardTo_alike (h : RoutesAlike http c c') (ctx : ResolvedContext) (req : IncomingRequest) :
    SameAnswer (forwardTo http c ctx req) (forwardTo http c' ctx req) := by
  unfold forwardTo
  rw [h.requireContext]
  split
  · exact rfl
  · cases req.body with
    | error e => exact rfl
    | ok bytes =>
      let inbound : ProxyRequest := ⟨req.method, req.path, req.query, inboundHeaders req.headers, .bytes bytes⟩
      simp only
      obtain ⟨a, b, ha, hb, hsame⟩ | ⟨e, ha, hb⟩ := (h.request ctx inbound).both
      · obtain ⟨hheaders, hbody⟩ := intoForwardParts_same hsame
        have hurl : upstreamUrl c a.path a.query = upstreamUrl c' b.path b.query := by
          unfold upstreamUrl restOf
          rw [h.upstream, h.stripPrefix, h.pathPrefix, hsame.path, hsame.query]
        rw [ha, hb]
        exact ⟨hsame.method, hurl, hheaders, hbody⟩
      · rw [ha, hb]
        exact rfl

theorem handler_alike (h : List.Forall₂ (RoutesAlike http) rs rs') (ctx : ResolvedContext) (req : IncomingRequest) :
    SameAnswer (handler http rs ctx req) (handler http rs' ctx req) := by
  have hmatch := matchRoute_alike h req.path req.method
  unfold handler
  generalize matchRoute rs req.path req.method = found at hmatch
  generalize matchRoute rs' req.path req.method = found' at hmatch
  cases hmatch with
  | none => exact rfl
  | some hc => exact forwardTo_alike hc ctx req

theorem built_alike {routes routes' : List RouteSpec} {cs cs' : List ProxyRoute}
    (hu : ∀ r ∈ routes, r.Unambiguous http) (hr : List.Forall₂ RouteSpec.Reordered routes routes')
    (h : buildProxy routes = .ok cs) (h' : buildProxy routes' = .ok cs') :
    List.Forall₂ (RoutesAlike http) (cs.map (·.toCompiledRoute)) (cs'.map (·.toCompiledRoute)) := by
  have hall := Fallible.of_mapM_ok h
  have hall' := Fallible.of_mapM_ok h'
  clear h h'
  induction hr generalizing cs cs' with
  | nil =>
    cases hall
    cases hall'
    exact .nil
  | cons hreordered _ ih =>
    cases hall with
    | cons hc hcs =>
      cases hall' with
      | cons hc' hcs' =>
        obtain ⟨hfirst, hrest⟩ := List.forall_mem_cons.mp hu
        exact .cons (reordered_alike hreordered hfirst hc hc') (ih hrest hcs hcs')

end

theorem reordered_valid {routes routes' : List RouteSpec} (h : List.Forall₂ RouteSpec.Reordered routes routes') :
    (∀ r ∈ routes', r.Valid) ↔ ∀ r ∈ routes, r.Valid := by
  induction h with
  | nil => exact Iff.rfl
  | cons hr _ ih => rw [List.forall_mem_cons, List.forall_mem_cons, hr.valid, ih]

/-- In whatever order its static headers are met, a configuration is built
exactly when its steps are valid, and the proxy does the same with every request
where no two entries of a route disagree about a header. -/
theorem proxy_built (http : HttpCrate) (routes : List RouteSpec) : ProxyBuilt http routes := by
  refine ⟨fun routes' hr => ?_, fun r _ c hc => ?_, fun r _ hu n v hmem req => ?_, fun r _ n hnone req => ?_,
    fun r _ => withStatic_same_iff, fun hu routes' cs cs' hr h h' ctx req => ?_⟩
  · rw [buildProxy, Fallible.exists_mapM_ok_iff, ← reordered_valid hr]
    exact forall₂_congr fun r _ => compileRoute_ok_iff r
  · obtain ⟨steps, response, hsteps, -, rfl⟩ := compiled_of_ok hc
    exact ⟨steps, hsteps, fun ctx req => applySteps_static http ctx r.headers steps req⟩
  · exact Inserts.lookup_fill_mem hu hmem _
  · exact Inserts.lookup_fill_none hnone _
  · exact handler_alike (built_alike hu hr h h') ctx req

end SynapseGateway
