import Mathlib.Data.List.DropRight
import SynapseGateway.ProxyTransform

/-!
# The reverse proxy

A request is matched to a route, gated on its required context, edited by the
route's request steps, and forwarded to the URL built from the route's upstream
and the request's path.
-/

namespace SynapseGateway

open String (utf8Len)
open Utf8 (Text)

def HOP_BY_HOP : List String :=
  ["connection", "keep-alive", "proxy-connection", "transfer-encoding", "upgrade", "te", "trailer", "host"]

def isHopByHop (name : String) : Bool := HOP_BY_HOP.contains name.toLower

structure CompiledRoute where
  name : String
  pathPrefix : Text
  upstream : Text
  stripPrefix : Bool
  /-- Upper-case; empty is any. -/
  methods : List String
  requireContext : List String
  request : List RequestStep

/-- `max_by_key` on the prefix's length: of several longest, the last. -/
def maxByPrefix : List CompiledRoute → Option CompiledRoute
  | [] => none
  | r :: routes =>
    match maxByPrefix routes with
    | none => some r
    | some best => some (if utf8Len r.pathPrefix > utf8Len best.pathPrefix then r else best)

def matchRoute (routes : List CompiledRoute) (path : Text) (method : String) : Option CompiledRoute :=
  maxByPrefix ((routes.filter fun r => r.pathPrefix.isPrefixOf path).filter fun r =>
    r.methods.isEmpty || r.methods.any (· == method))

/-- A request as it arrives; `body` is what reading it within the size limit gives. -/
structure IncomingRequest where
  method : String
  path : Text
  query : Option Text
  headers : List (String × Bytes)
  body : Except String Bytes

/-- Inbound headers minus hop-by-hop ones; of several of one name, the last. -/
def inboundHeaders (headers : List (String × Bytes)) : HeaderMap :=
  headers.foldl (fun h (n, v) => if isHopByHop n then h else h.insert n.toLower v) HeaderMap.empty

def restOf (route : CompiledRoute) (path : Text) : Text :=
  if route.stripPrefix then (stripPrefix route.pathPrefix path).getD path else path

def upstreamUrl (route : CompiledRoute) (path : Text) (query : Option Text) : Text :=
  let base := route.upstream.rdropWhile (· == '/')
  let url := base ++ restOf route path
  match query.filter (!·.isEmpty) with
  | some q => url ++ ['?'] ++ q
  | none => url

structure Forward where
  method : String
  url : Text
  headers : HeaderMap
  body : Bytes

structure Refusal where
  status : Nat
  error : String
  detail : String
deriving DecidableEq, Repr

variable (http : HttpCrate)

def forwardTo (route : CompiledRoute) (ctx : ResolvedContext) (req : IncomingRequest) : Except Refusal Forward :=
  if route.requireContext.any (!ctx.contains ·) then .error ⟨503, "request_failed", "context not bound"⟩
  else
    match req.body with
    | .error e => .error ⟨413, "body_too_large", e⟩
    | .ok bytes =>
      let preq : ProxyRequest := ⟨req.method, req.path, req.query, inboundHeaders req.headers, .bytes bytes⟩
      match applySteps http ctx route.request preq with
      | .error (.reject status error detail) => .error ⟨status, error, detail⟩
      | .ok preq =>
        let (headers, body) := preq.intoForwardParts
        .ok ⟨preq.method, upstreamUrl route preq.path preq.query, headers, body⟩

def handler (routes : List CompiledRoute) (ctx : ResolvedContext) (req : IncomingRequest) : Except Refusal Forward :=
  match matchRoute routes req.path req.method with
  | none => .error ⟨404, "no_route", "no route matches '" ++ req.method ++ " " ++ String.ofList req.path ++ "'"⟩
  | some route => forwardTo http route ctx req

/-! ## Matching -/

theorem mem_maxByPrefix {routes : List CompiledRoute} {r : CompiledRoute} (h : maxByPrefix routes = some r) :
    r ∈ routes := by
  induction routes generalizing r with
  | nil => cases h
  | cons r₀ routes ih =>
    rw [maxByPrefix] at h
    cases hbest : maxByPrefix routes with
    | none =>
      rw [hbest] at h
      cases h
      exact List.mem_cons_self ..
    | some best =>
      rw [hbest] at h
      simp only at h
      split at h <;> cases h
      · exact List.mem_cons_self ..
      · exact List.mem_cons_of_mem _ (ih hbest)

theorem matchRoute_some {routes : List CompiledRoute} {path : Text} {method : String} {r : CompiledRoute}
    (h : matchRoute routes path method = some r) :
    r ∈ routes ∧ r.pathPrefix <+: path ∧ (r.methods = [] ∨ method ∈ r.methods) := by
  have hmem := mem_maxByPrefix h
  simp only [List.mem_filter, Bool.or_eq_true, List.isEmpty_iff, List.any_eq_true, beq_iff_eq, exists_eq_right] at hmem
  exact ⟨hmem.1.1, List.isPrefixOf_iff_prefix.mp hmem.1.2, hmem.2⟩

end SynapseGateway
