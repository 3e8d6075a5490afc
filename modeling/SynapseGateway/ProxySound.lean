import SynapseGateway.Lib.Fallible
import SynapseGateway.Proxy

/-!
# What a request pipeline does

A pipeline is a list of injections and nestings. Neither reads the headers,
and none but an injection writes one.
-/

namespace SynapseGateway

open Utf8 (Text)

inductive Edit where
  | inject (i : Inject)
  | nest (under : String)

def RequestStep.edits : RequestStep → List Edit
  | .inject i => [.inject i]
  | .wrap w => .nest w.under :: w.siblings.map .inject

variable (http : HttpCrate) (ctx : ResolvedContext)

def Edit.apply (req : ProxyRequest) : Edit → Except TransformError ProxyRequest
  | .inject i => i.apply http ctx req
  | .nest under => SynapseGateway.nest http under req

theorem applySteps_edits (steps : List RequestStep) (req : ProxyRequest) :
    applySteps http ctx steps req = (steps.flatMap RequestStep.edits).foldlM (Edit.apply http ctx) req := by
  induction steps generalizing req with
  | nil => rfl
  | cons step steps ih =>
    have hstep : step.apply http ctx req = step.edits.foldlM (Edit.apply http ctx) req := by
      cases step with
      | inject i => exact (bind_pure (i.apply http ctx req)).symm
      | wrap w =>
        rw [RequestStep.edits, List.foldlM_cons]
        simp only [List.foldlM_map]
        rfl
    have ih : steps.foldlM (fun req step => step.apply http ctx req) =
        fun req => (steps.flatMap RequestStep.edits).foldlM (Edit.apply http ctx) req := funext ih
    rw [List.flatMap_cons, List.foldlM_append, applySteps, List.foldlM_cons, ih, hstep]

def Edit.headers (headers : HeaderMap) : Edit → HeaderMap
  | .nest _ => headers
  | .inject i =>
    match i.target, i.resolveValue ctx with
    | .header name, some v =>
      match http.headerName name, http.headerValue (headerText v) with
      | some n, some b => headers.insert n b
      | _, _ => headers
    | .header name, none =>
      match http.headerName name with
      | some n => headers.erase n
      | none => headers
    | .body _, _ => headers

def Edit.readsBody : Edit → Bool
  | .nest _ => true
  | .inject i =>
    match i.target with
    | .header _ => false
    | .body _ => (i.resolveValue ctx).isSome

def Body.isJson : Body → Bool
  | .json _ => true
  | .bytes _ => false

/-- What an edit that returns did. -/
structure Edit.Did (edit : Edit) (req req' : ProxyRequest) : Prop where
  method : req'.method = req.method
  path : req'.path = req.path
  query : req'.query = req.query
  headers : req'.headers = edit.headers http ctx req.headers
  body : req'.body.isJson = (req.body.isJson || edit.readsBody ctx)

variable {http ctx}

theorem edit_did {edit : Edit} {req req' : ProxyRequest} (h : edit.apply http ctx req = .ok req') :
    edit.Did http ctx req req' := by
  cases edit with
  | nest under =>
    obtain ⟨v, -, rfl⟩ := Fallible.of_map_ok (show SynapseGateway.nest http under req = .ok req' from h)
    exact ⟨rfl, rfl, rfl, rfl, by simp [Body.isJson, Edit.readsBody]⟩
  | inject i =>
    obtain ⟨target, source⟩ := i
    change Inject.apply http ⟨target, source⟩ ctx req = .ok req' at h
    unfold Inject.apply at h
    cases target with
    | header name =>
      cases hv : Inject.resolveValue ⟨.header name, source⟩ ctx with
      | some v =>
        rw [hv] at h
        cases h
        unfold ProxyRequest.setHeader
        cases hn : http.headerName name <;> cases hb : http.headerValue (headerText v) <;>
          exact ⟨rfl, rfl, rfl, by simp [Edit.headers, hv, hn, hb], by simp [Edit.readsBody]⟩
      | none =>
        rw [hv] at h
        cases h
        unfold ProxyRequest.removeHeader
        cases hn : http.headerName name <;>
          exact ⟨rfl, rfl, rfl, by simp [Edit.headers, hv, hn], by simp [Edit.readsBody]⟩
    | body path =>
      cases hv : Inject.resolveValue ⟨.body path, source⟩ ctx with
      | some v =>
        rw [hv] at h
        obtain ⟨body, -, rfl⟩ := Fallible.of_map_ok h
        exact ⟨rfl, rfl, rfl, rfl, by simp [Body.isJson, Edit.readsBody, hv]⟩
      | none =>
        rw [hv] at h
        cases h
        exact ⟨rfl, rfl, rfl, rfl, by simp [Edit.readsBody, hv]⟩

variable (http ctx) in
theorem edit_readable {req : ProxyRequest} (edit : Edit) (h : ∃ v, req.bodyJson http = .ok v) :
    ∃ req', edit.apply http ctx req = .ok req' ∧ ∃ v, req'.bodyJson http = .ok v := by
  obtain ⟨body, hbody⟩ := h
  cases edit with
  | nest under =>
    refine ⟨{ req with body := .json (setBodyPath (.object []) under body) }, ?_, ⟨_, rfl⟩⟩
    show SynapseGateway.nest http under req = _
    unfold SynapseGateway.nest
    rw [hbody]
    rfl
  | inject i =>
    obtain ⟨target, source⟩ := i
    show ∃ req', Inject.apply http ⟨target, source⟩ ctx req = .ok req' ∧ _
    unfold Inject.apply
    cases target with
    | header name =>
      cases Inject.resolveValue ⟨.header name, source⟩ ctx with
      | some v =>
        refine ⟨_, rfl, body, ?_⟩
        unfold ProxyRequest.setHeader
        split <;> exact hbody
      | none =>
        refine ⟨_, rfl, body, ?_⟩
        unfold ProxyRequest.removeHeader
        split <;> exact hbody
    | body path =>
      cases Inject.resolveValue ⟨.body path, source⟩ ctx with
      | some v =>
        refine ⟨{ req with body := .json (setBodyPath body path v) }, ?_, ⟨_, rfl⟩⟩
        simp only [hbody]
        rfl
      | none => exact ⟨req, rfl, body, hbody⟩

/-! ## A pipeline -/

variable (http ctx) in
structure EditsDid (edits : List Edit) (req req' : ProxyRequest) : Prop where
  method : req'.method = req.method
  path : req'.path = req.path
  query : req'.query = req.query
  headers : req'.headers = edits.foldl (Edit.headers http ctx) req.headers
  body : req'.body.isJson = (req.body.isJson || edits.any (Edit.readsBody ctx))

theorem edits_did {edits : List Edit} {req req' : ProxyRequest}
    (h : edits.foldlM (Edit.apply http ctx) req = .ok req') : EditsDid http ctx edits req req' := by
  induction edits generalizing req with
  | nil =>
    cases h
    exact ⟨rfl, rfl, rfl, rfl, by simp⟩
  | cons edit edits ih =>
    rw [List.foldlM_cons] at h
    obtain ⟨req₁, h₁, h⟩ := Fallible.of_bind_ok h
    have hd := edit_did h₁
    have ih := ih h
    refine ⟨ih.method.trans hd.method, ih.path.trans hd.path, ih.query.trans hd.query, ?_, ?_⟩
    · rw [ih.headers, hd.headers, List.foldl_cons]
    · rw [ih.body, hd.body, List.any_cons, Bool.or_assoc]

variable (http ctx) in
theorem edits_readable (edits : List Edit) {req : ProxyRequest} (h : ∃ v, req.bodyJson http = .ok v) :
    ∃ req', edits.foldlM (Edit.apply http ctx) req = .ok req' := by
  induction edits generalizing req with
  | nil => exact ⟨req, rfl⟩
  | cons edit edits ih =>
    obtain ⟨req₁, h₁, hr⟩ := edit_readable http ctx edit h
    obtain ⟨req', h'⟩ := ih hr
    refine ⟨req', ?_⟩
    rw [List.foldlM_cons, h₁]
    exact h'

/-! ## The forwarded request -/

def CompiledRoute.edits (route : CompiledRoute) : List Edit := route.request.flatMap RequestStep.edits

/-- What is forwarded for a request: the URL of its own path and query, and the
edited headers. -/
structure Forwarded (http : HttpCrate) (ctx : ResolvedContext) (route : CompiledRoute) (req : IncomingRequest)
    (fwd : Forward) : Prop where
  method : fwd.method = req.method
  url : fwd.url = upstreamUrl route req.path req.query
  headers : fwd.headers =
    let h := route.edits.foldl (Edit.headers http ctx) (inboundHeaders req.headers)
    if route.edits.any (Edit.readsBody ctx) then (h.erase "content-length").erase "transfer-encoding" else h
  gate : ∀ k ∈ route.requireContext, ctx.contains k = true

theorem forwardTo_forwarded {route : CompiledRoute} {req : IncomingRequest} {fwd : Forward}
    (h : forwardTo http route ctx req = .ok fwd) : Forwarded http ctx route req fwd := by
  unfold forwardTo at h
  by_cases hgate : route.requireContext.any (!ctx.contains ·) = true
  · rw [if_pos hgate] at h
    cases h
  rw [if_neg hgate] at h
  cases hread : req.body with
  | error e => rw [hread] at h; cases h
  | ok bytes =>
    rw [hread] at h
    dsimp only at h
    cases hsteps : applySteps http ctx route.request
        ⟨req.method, req.path, req.query, inboundHeaders req.headers, .bytes bytes⟩ with
    | error e => rw [hsteps] at h; cases h
    | ok preq =>
      rw [hsteps] at h
      rw [applySteps_edits] at hsteps
      have hd := edits_did hsteps
      have hbody := hd.body
      cases h
      refine ⟨hd.method, ?_, ?_, ?_⟩
      · show upstreamUrl route preq.path preq.query = _
        rw [hd.path, hd.query]
      · unfold ProxyRequest.intoForwardParts CompiledRoute.edits
        simp only [← hd.headers]
        cases hb : preq.body with
        | bytes b =>
          rw [hb] at hbody
          simp only [Body.isJson, Bool.false_or] at hbody
          rw [← hbody]
          rfl
        | json v =>
          rw [hb] at hbody
          simp only [Body.isJson, Bool.false_or] at hbody
          rw [← hbody]
          rfl
      · intro k hk
        have := hgate
        simp only [List.any_eq_true, Bool.not_eq_true', not_exists, not_and, Bool.not_eq_false] at this
        exact this k hk

variable (http) in
theorem forwardTo_empty {route : CompiledRoute} (hgate : ∀ k ∈ route.requireContext, ctx.contains k = true)
    (method : String) (path : Text) (query : Option Text) (headers : List (String × Bytes)) :
    ∃ fwd, forwardTo http route ctx ⟨method, path, query, headers, .ok []⟩ = .ok fwd := by
  have hreadable : ∃ v, ProxyRequest.bodyJson http ⟨method, path, query, inboundHeaders headers, .bytes []⟩ = .ok v :=
    ⟨_, rfl⟩
  obtain ⟨preq, hpreq⟩ := edits_readable http ctx route.edits hreadable
  have hsteps : applySteps http ctx route.request ⟨method, path, query, inboundHeaders headers, .bytes []⟩ = .ok preq := by
    rw [applySteps_edits]
    exact hpreq
  have hg : route.requireContext.any (!ctx.contains ·) = false := by
    rw [List.any_eq_false]
    intro k hk
    simp [hgate k hk]
  unfold forwardTo
  rw [hg]
  simp only [Bool.false_eq_true, if_false, hsteps]
  exact ⟨_, rfl⟩

end SynapseGateway
