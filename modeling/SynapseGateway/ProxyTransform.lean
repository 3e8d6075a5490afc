import Mathlib.Data.List.AList
import SynapseGateway.Json
import SynapseGateway.Sse

/-!
# The proxy's request transforms

The request view a pipeline of built-in steps edits before it is forwarded.
Header names are kept in lower case, as `HeaderName` keeps them.
-/

namespace SynapseGateway

open Utf8 (Text)

/-- The parts of the `http` and `serde_json` crates the transforms rely on:
which names and values a header can have, and the parser of a JSON body. -/
structure HttpCrate where
  validName : String → Bool
  validValue : Bytes → Bool
  fromSlice : Bytes → Except String Json

abbrev HeaderMap := AList fun _ : String => Bytes

def HeaderMap.empty : HeaderMap := ∅

inductive Body where
  | bytes (b : Bytes)
  | json (v : Json)

structure ProxyRequest where
  method : String
  path : Text
  query : Option Text
  headers : HeaderMap
  body : Body

inductive TransformError where
  | reject (status : Nat) (error detail : String)
deriving DecidableEq, Repr

abbrev ResolvedContext := List (String × String)

def ResolvedContext.get (ctx : ResolvedContext) (key : String) : Option String := ctx.lookup key

def ResolvedContext.contains (ctx : ResolvedContext) (key : String) : Bool := (ctx.get key).isSome

variable (http : HttpCrate)

def HttpCrate.headerName (name : String) : Option String := if http.validName name then some name.toLower else none

def HttpCrate.headerValue (value : Text) : Option Bytes :=
  if http.validValue (utf8Bytes value) then some (utf8Bytes value) else none

def HeaderMap.get (headers : HeaderMap) (name : String) : Option Bytes := (http.headerName name).bind headers.lookup

/-- Overwrite a header (skips silently if name or value is invalid). -/
def ProxyRequest.setHeader (req : ProxyRequest) (name : String) (value : Text) : ProxyRequest :=
  match http.headerName name, http.headerValue value with
  | some n, some v => { req with headers := req.headers.insert n v }
  | _, _ => req

def ProxyRequest.removeHeader (req : ProxyRequest) (name : String) : ProxyRequest :=
  match http.headerName name with
  | some n => { req with headers := req.headers.erase n }
  | none => req

/-- The JSON body, parsing the raw bytes on first access; an empty body is an
empty object. -/
def ProxyRequest.bodyJson (req : ProxyRequest) : Except TransformError Json :=
  match req.body with
  | .json v => .ok v
  | .bytes [] => .ok (.object [])
  | .bytes b =>
    match http.fromSlice b with
    | .ok v => .ok v
    | .error e => .error (.reject 400 "invalid_body" ("expected JSON body: " ++ e))

/-- Headers and body of the upstream call. A re-encoded body drops the length
and encoding the caller declared. -/
def ProxyRequest.intoForwardParts (req : ProxyRequest) : HeaderMap × Bytes :=
  match req.body with
  | .bytes b => (req.headers, b)
  | .json v => ((req.headers.erase "content-length").erase "transfer-encoding", utf8Bytes v.toText)

/-! ## `inject` -/

inductive Target where
  | header (name : String)
  | body (path : String)

inductive Source where
  | context (key : String)
  | const (v : Json)

structure Inject where
  target : Target
  source : Source

def Inject.resolveValue (i : Inject) (ctx : ResolvedContext) : Option Json :=
  match i.source with
  | .const v => some v
  | .context k => (ctx.get k).map fun s => .string s.toList

def setPath (root : Json) : List String → Json → Json
  | [], _ => root
  | [part], value => .object (Json.insertMember part value root.membersOf)
  | part :: parts, value =>
    .object (Json.insertMember part (setPath ((root.membersOf.lookup part).getD (.object [])) parts value) root.membersOf)

def setBodyPath (root : Json) (path : String) (value : Json) : Json :=
  setPath root ((path.toList.splitOn '.').map String.ofList) value

def headerText : Json → Text
  | .string s => s
  | other => other.toText

def Inject.apply (i : Inject) (ctx : ResolvedContext) (req : ProxyRequest) : Except TransformError ProxyRequest :=
  match i.target, i.resolveValue ctx with
  | .header name, some v => .ok (req.setHeader http name (headerText v))
  -- fail-safe: a caller's value does not stand in for a context key that is not bound
  | .header name, none => .ok (req.removeHeader http name)
  | .body path, some v => (req.bodyJson http).map fun body => { req with body := .json (setBodyPath body path v) }
  | .body _, none => .ok req

/-! ## `wrap` -/

structure Wrap where
  under : String
  siblings : List Inject

def nest (under : String) (req : ProxyRequest) : Except TransformError ProxyRequest :=
  (req.bodyJson http).map fun original => { req with body := .json (setBodyPath (.object []) under original) }

def Wrap.apply (w : Wrap) (ctx : ResolvedContext) (req : ProxyRequest) : Except TransformError ProxyRequest := do
  let req ← nest http w.under req
  w.siblings.foldlM (fun req i => i.apply http ctx req) req

inductive RequestStep where
  | inject (i : Inject)
  | wrap (w : Wrap)

def RequestStep.apply (step : RequestStep) (ctx : ResolvedContext) (req : ProxyRequest) :
    Except TransformError ProxyRequest :=
  match step with
  | .inject i => i.apply http ctx req
  | .wrap w => w.apply http ctx req

def applySteps (ctx : ResolvedContext) (steps : List RequestStep) (req : ProxyRequest) :
    Except TransformError ProxyRequest :=
  steps.foldlM (fun req step => step.apply http ctx req) req

end SynapseGateway
