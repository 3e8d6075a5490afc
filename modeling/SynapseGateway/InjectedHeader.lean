import SynapseGateway.ProxySound

/-!
# Injected headers

What an upstream gets for a header whose last write injects a context key:
the key's value, whatever the caller sent, unless the header cannot carry it.
-/

namespace SynapseGateway

open Utf8 (Text)

def Edit.Writes (name : String) : Edit → Prop
  | .inject ⟨.header n, _⟩ => n.toLower = name.toLower
  | _ => False

/-- The last edit of the route that writes `name` injects the context key `key`. -/
def LastInjects (route : CompiledRoute) (name key : String) : Prop :=
  ∃ before after, route.edits = before ++ Edit.inject ⟨.header name, .context key⟩ :: after ∧
    ∀ e ∈ after, ¬ e.Writes name

section
variable {http : HttpCrate} {ctx : ResolvedContext} {name key : String}

theorem headerName_some {n : String} (h : http.headerName name = some n) : http.validName name = true ∧ n = name.toLower := by
  unfold HttpCrate.headerName at h
  by_cases hvalid : http.validName name = true
  · rw [if_pos hvalid] at h
    cases h
    exact ⟨hvalid, rfl⟩
  · rw [if_neg hvalid] at h
    cases h

theorem headerValue_some {v : Text} {b : Bytes} (h : http.headerValue v = some b) : http.validValue b = true := by
  unfold HttpCrate.headerValue at h
  by_cases hvalid : http.validValue (utf8Bytes v) = true
  · rw [if_pos hvalid] at h
    cases h
    exact hvalid
  · rw [if_neg hvalid] at h
    cases h

theorem headers_other {e : Edit} (he : ¬ e.Writes name) (h : HeaderMap) :
    (e.headers http ctx h).lookup name.toLower = h.lookup name.toLower := by
  cases e with
  | nest under => rfl
  | inject i =>
    obtain ⟨target, source⟩ := i
    cases target with
    | body path => rfl
    | header n =>
      have hne : name.toLower ≠ n.toLower := fun heq => he heq.symm
      cases hv : Inject.resolveValue ⟨.header n, source⟩ ctx with
      | some v =>
        simp only [Edit.headers, hv]
        cases hn : http.headerName n with
        | none => rfl
        | some m =>
          cases hb : http.headerValue (headerText v) with
          | none => rfl
          | some b =>
            rw [(headerName_some hn).2]
            exact AList.lookup_insert_ne hne
      | none =>
        simp only [Edit.headers, hv]
        cases hn : http.headerName n with
        | none => rfl
        | some m =>
          rw [(headerName_some hn).2]
          exact AList.lookup_erase_ne hne

theorem foldl_headers_other {after : List Edit} (hall : ∀ e ∈ after, ¬ e.Writes name) (h : HeaderMap) :
    (after.foldl (Edit.headers http ctx) h).lookup name.toLower = h.lookup name.toLower := by
  induction after generalizing h with
  | nil => rfl
  | cons e after ih =>
    rw [List.foldl_cons, ih (fun e' he' => hall e' (List.mem_cons_of_mem _ he')),
      headers_other (hall e (List.mem_cons_self ..))]

/-- The header after the route's edits: the injected value, or none, or what
the edits before the injection left when the value cannot be set. -/
theorem lookup_injected (before : List Edit) {after : List Edit} (hafter : ∀ e ∈ after, ¬ e.Writes name)
    (hvalid : http.validName name = true) (h : HeaderMap) :
    ((before ++ Edit.inject ⟨.header name, .context key⟩ :: after).foldl (Edit.headers http ctx) h).lookup name.toLower =
      match ctx.get key with
      | none => none
      | some s =>
        if http.validValue (utf8Bytes s.toList) then some (utf8Bytes s.toList)
        else (before.foldl (Edit.headers http ctx) h).lookup name.toLower := by
  rw [List.foldl_append, List.foldl_cons, foldl_headers_other hafter]
  have hname : http.headerName name = some name.toLower := by rw [HttpCrate.headerName, if_pos hvalid]
  cases hk : ctx.get key with
  | none =>
    simp only [Edit.headers, Inject.resolveValue, hk, Option.map_none, hname]
    exact AList.lookup_erase _ _
  | some s =>
    simp only [Edit.headers, Inject.resolveValue, hk, Option.map_some, hname, headerText, HttpCrate.headerValue]
    by_cases hval : http.validValue (utf8Bytes s.toList) = true
    · simp only [hval, if_true]
      exact AList.lookup_insert _
    · simp only [hval, Bool.false_eq_true, if_false]

def ValidValues (http : HttpCrate) (h : HeaderMap) : Prop := ∀ n b, h.lookup n = some b → http.validValue b = true

theorem headers_valid {e : Edit} {h : HeaderMap} (hv : ValidValues http h) : ValidValues http (e.headers http ctx h) := by
  cases e with
  | nest under => exact hv
  | inject i =>
    obtain ⟨target, source⟩ := i
    cases target with
    | body path => exact hv
    | header name =>
      intro n b hb
      cases hs : Inject.resolveValue ⟨.header name, source⟩ ctx with
      | some v =>
        simp only [Edit.headers, hs] at hb
        cases hname : http.headerName name with
        | none => rw [hname] at hb; exact hv n b hb
        | some m =>
          cases hval : http.headerValue (headerText v) with
          | none => rw [hname, hval] at hb; exact hv n b hb
          | some c =>
            simp only [hname, hval] at hb
            by_cases hn : n = m
            · subst hn
              rw [AList.lookup_insert] at hb
              cases hb
              exact headerValue_some hval
            · rw [AList.lookup_insert_ne hn] at hb
              exact hv n b hb
      | none =>
        simp only [Edit.headers, hs] at hb
        cases hname : http.headerName name with
        | none => rw [hname] at hb; exact hv n b hb
        | some m =>
          simp only [hname] at hb
          by_cases hn : n = m
          · subst hn
            rw [AList.lookup_erase] at hb
            cases hb
          · rw [AList.lookup_erase_ne hn] at hb
            exact hv n b hb

theorem foldl_headers_valid {edits : List Edit} {h : HeaderMap} (hv : ValidValues http h) :
    ValidValues http (edits.foldl (Edit.headers http ctx) h) := by
  induction edits generalizing h with
  | nil => exact hv
  | cons e edits ih =>
    rw [List.foldl_cons]
    exact ih (headers_valid hv)

/-! ## The forwarded header -/

def staleHeaders : List String := ["content-length", "transfer-encoding"]

theorem forwarded_get {route : CompiledRoute} {req : IncomingRequest} {fwd : Forward}
    (hf : Forwarded http ctx route req fwd) (hvalid : http.validName name = true) :
    fwd.headers.get http name =
      if name.toLower ∈ staleHeaders ∧ route.edits.any (Edit.readsBody ctx) = true then none
      else (route.edits.foldl (Edit.headers http ctx) (inboundHeaders req.headers)).lookup name.toLower := by
  have hname : http.headerName name = some name.toLower := by rw [HttpCrate.headerName, if_pos hvalid]
  unfold HeaderMap.get
  rw [hname, Option.bind_some, hf.headers]
  simp only
  cases hr : route.edits.any (Edit.readsBody ctx) with
  | false => simp
  | true =>
    simp only [if_true, and_true]
    by_cases ht : name.toLower = "transfer-encoding"
    · rw [ht, AList.lookup_erase]
      rfl
    rw [AList.lookup_erase_ne ht]
    by_cases hc : name.toLower = "content-length"
    · rw [hc, AList.lookup_erase]
      rfl
    rw [AList.lookup_erase_ne hc, if_neg]
    simp [staleHeaders, ht, hc]

/-- Any two requests to the route that are forwarded carry the same value of
the header: that of the context key, or none when the key is not bound. -/
def CallerIndependent (http : HttpCrate) (routes : List CompiledRoute) (ctx : ResolvedContext) (route : CompiledRoute)
    (name key : String) : Prop :=
  ∀ req₁ req₂ fwd₁ fwd₂, matchRoute routes req₁.path req₁.method = some route →
    matchRoute routes req₂.path req₂.method = some route →
    handler http routes ctx req₁ = .ok fwd₁ → handler http routes ctx req₂ = .ok fwd₂ →
    fwd₁.headers.get http name = fwd₂.headers.get http name ∧
      fwd₁.headers.get http name = (ctx.get key).map fun s => utf8Bytes s.toList

/-- Nothing is forwarded for the route: no request matches it, or a key it
requires is not bound. -/
def Unreached (routes : List CompiledRoute) (ctx : ResolvedContext) (route : CompiledRoute) : Prop :=
  (∀ path method, matchRoute routes path method ≠ some route) ∨ ∃ k ∈ route.requireContext, ctx.contains k = false

theorem handler_matched {routes : List CompiledRoute} {route : CompiledRoute} (req : IncomingRequest)
    (hm : matchRoute routes req.path req.method = some route) :
    handler http routes ctx req = forwardTo http route ctx req := by
  unfold handler
  rw [hm]

variable (http) in
theorem reached_empty {routes : List CompiledRoute} {route : CompiledRoute} (h : ¬ Unreached routes ctx route) :
    ∃ path method fwd, matchRoute routes path method = some route ∧
      forwardTo http route ctx ⟨method, path, none, [], .ok []⟩ = .ok fwd := by
  simp only [Unreached, not_or, not_forall, not_exists, not_and, ne_eq, not_not, Bool.not_eq_false] at h
  obtain ⟨⟨path, method, hm⟩, hgate⟩ := h
  obtain ⟨fwd, hfwd⟩ := forwardTo_empty http hgate method path none []
  exact ⟨path, method, fwd, hm, hfwd⟩

/-- An injected header is independent of the caller exactly when nothing is
forwarded for the route, the key is not bound, or the header can carry the
key's value and is not one a re-encoded body drops. -/
theorem caller_independent_iff {routes : List CompiledRoute} {route : CompiledRoute}
    (hlast : LastInjects route name key) : CallerIndependent http routes ctx route name key ↔
      Unreached routes ctx route ∨ ctx.get key = none ∨
        ∃ s, ctx.get key = some s ∧ http.validName name = true ∧ http.validValue (utf8Bytes s.toList) = true ∧
          ¬ (name.toLower ∈ staleHeaders ∧ route.edits.any (Edit.readsBody ctx) = true) := by
  obtain ⟨before, after, hedits, hafter⟩ := hlast
  constructor
  · intro h
    by_cases hreach : Unreached routes ctx route
    · exact .inl hreach
    refine .inr ?_
    cases hk : ctx.get key with
    | none => exact .inl rfl
    | some s =>
      obtain ⟨path, method, fwd, hm, hfwd⟩ := reached_empty http hreach
      have hhandler := (handler_matched ⟨method, path, none, [], .ok []⟩ hm).trans hfwd
      have hval := (h _ _ _ _ hm hm hhandler hhandler).2
      have hf := forwardTo_forwarded hfwd
      rw [hk, Option.map_some] at hval
      have hname : http.validName name = true := by
        by_contra hn
        rw [HeaderMap.get, HttpCrate.headerName, if_neg hn] at hval
        cases hval
      rw [forwarded_get hf hname] at hval
      split at hval
      · cases hval
      · rename_i hstale
        refine .inr ⟨s, rfl, hname, ?_, hstale⟩
        -- every value the edits leave on a request without headers is valid
        exact foldl_headers_valid (fun n b hb => by cases hb) _ _ hval
  · intro h req₁ req₂ fwd₁ fwd₂ hm₁ hm₂ h₁ h₂
    suffices hall : ∀ req fwd, matchRoute routes req.path req.method = some route →
        handler http routes ctx req = .ok fwd →
        fwd.headers.get http name = (ctx.get key).map fun s => utf8Bytes s.toList from
      ⟨(hall _ _ hm₁ h₁).trans (hall _ _ hm₂ h₂).symm, hall _ _ hm₁ h₁⟩
    intro req fwd hm hfwd
    rw [handler_matched _ hm] at hfwd
    have hf := forwardTo_forwarded hfwd
    rcases h with (hno | ⟨k, hk, hunbound⟩) | hnone | ⟨s, hs, hname, hvalue, hstale⟩
    · exact absurd hm (hno _ _)
    · rw [hf.gate k hk] at hunbound
      cases hunbound
    · by_cases hname : http.validName name = true
      · rw [forwarded_get hf hname, hedits, lookup_injected before hafter hname, hnone]
        exact ite_self _
      · rw [HeaderMap.get, HttpCrate.headerName, if_neg hname, hnone]
        rfl
    · rw [forwarded_get hf hname, if_neg hstale, hedits, lookup_injected before hafter hname, hs]
      simp only [hvalue, if_true, Option.map_some]

end

/-! ## A tenant a header cannot carry -/

def isTchar (c : Char) : Bool := c.isAlphanum || "!#$%&'*+-.^_|~".toList.contains c

/-- The crate's own checks of names and values, and a parser that takes no body. -/
def strictHttp : HttpCrate where
  validName n := !n.toList.isEmpty && n.toList.all isTchar
  validValue b := b.all fun x => (x ≥ 32 && x ≠ 127) || x = 9
  fromSlice _ := .error "expected value at line 1 column 1"

def injectTenant : Inject := ⟨.header "X-Tenant-Id", .context "org"⟩

def tenantRoute : CompiledRoute where
  name := "orders"
  pathPrefix := "/api".toList
  upstream := "http://orders:8080".toList
  stripPrefix := false
  methods := []
  requireContext := ["org"]
  request := [.inject injectTenant]

theorem tenantRoute_lastInjects : LastInjects tenantRoute "X-Tenant-Id" "org" :=
  ⟨[], [], rfl, fun e he => by cases he⟩

theorem caller_independent_iff_acme :
    CallerIndependent strictHttp [tenantRoute] [("org", "acme")] tenantRoute "X-Tenant-Id" "org" :=
  (caller_independent_iff tenantRoute_lastInjects).mpr (.inr (.inr ⟨"acme", rfl, by decide, by decide, by decide +kernel⟩))

def attackerRequest : IncomingRequest :=
  ⟨"GET", "/api/list".toList, none, [("x-tenant-id", utf8Bytes "attacker".toList)], .ok []⟩

theorem attackerRequest_inbound :
    (inboundHeaders attackerRequest.headers).lookup "x-tenant-id" = some (utf8Bytes "attacker".toList) := by
  have hlower : "x-tenant-id".toLower = "x-tenant-id" := by decide +kernel
  have hhop : isHopByHop "x-tenant-id" = false := by decide +kernel
  show ((if isHopByHop "x-tenant-id" then HeaderMap.empty else
    HeaderMap.empty.insert "x-tenant-id".toLower _ : HeaderMap)).lookup "x-tenant-id" = _
  rw [hhop, hlower]
  exact AList.lookup_insert _

/-- A tenant read with its line break is no header value: it is not set, and
the caller's tenant is forwarded. -/
theorem caller_value_forwarded :
    (∃ fwd, handler strictHttp [tenantRoute] [("org", "acme\n")] attackerRequest = .ok fwd ∧
      fwd.headers.get strictHttp "X-Tenant-Id" = some (utf8Bytes "attacker".toList)) ∧
    ¬ CallerIndependent strictHttp [tenantRoute] [("org", "acme\n")] tenantRoute "X-Tenant-Id" "org" := by
  have hm : matchRoute [tenantRoute] attackerRequest.path attackerRequest.method = some tenantRoute := rfl
  have hgate : ∀ k ∈ tenantRoute.requireContext, ResolvedContext.contains [("org", "acme\n")] k = true := by decide
  obtain ⟨fwd, hfwd⟩ := forwardTo_empty strictHttp hgate "GET" "/api/list".toList none attackerRequest.headers
  have hlower : "X-Tenant-Id".toLower = "x-tenant-id" := by decide +kernel
  have hval : fwd.headers.get strictHttp "X-Tenant-Id" = some (utf8Bytes "attacker".toList) := by
    rw [forwarded_get (forwardTo_forwarded hfwd) (by decide), if_neg (fun h => absurd h.2 (by decide))]
    have hafter : ∀ e ∈ ([] : List Edit), ¬ e.Writes "X-Tenant-Id" := fun e he => by cases he
    refine (lookup_injected [] hafter (by decide) _).trans ?_
    rw [show ResolvedContext.get [("org", "acme\n")] "org" = some "acme\n" from rfl]
    show (if strictHttp.validValue (utf8Bytes "acme\n".toList) = true then _ else _) = _
    rw [if_neg (by decide), hlower]
    exact attackerRequest_inbound
  have hhandler := (handler_matched _ hm).trans hfwd
  refine ⟨⟨fwd, hhandler, hval⟩, ?_⟩
  intro h
  have hacme := (h _ _ _ _ hm hm hhandler hhandler).2
  rw [hval] at hacme
  exact absurd hacme (by decide)

end SynapseGateway
