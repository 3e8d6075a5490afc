import Mathlib.Data.List.Sort
import SynapseGateway.ProxyTransform

/-!
# The MCP gateway

Calls name a registered upstream server and carry the bound identity to it as
headers. A client is built for a server, a URL and an identity, and cached. Any
number of calls run at once: each is a row of steps on what they share.
-/

namespace SynapseGateway

/-! ## The registry -/

/-- `expiresAt` and `now` are instants on one clock. -/
structure RegisteredUpstream where
  name : String
  url : String
  expiresAt : Option Nat
deriving DecidableEq, Repr

abbrev McpRegistry := AList fun _ : String => RegisteredUpstream

namespace McpRegistry

def register (r : McpRegistry) (now : Nat) (name url : String) (ttl : Option Nat) : McpRegistry :=
  r.insert name ⟨name, url, ttl.map (now + ·)⟩

def deregister (r : McpRegistry) (name : String) : McpRegistry := r.erase name

/-- The URL of a server, if it is there and has not expired. An expired entry is dropped. -/
def resolveAt (r : McpRegistry) (name : String) (now : Nat) : Option String × McpRegistry :=
  match r.lookup name with
  | some entry => if entry.expiresAt.any (· ≤ now) then (none, r.erase name) else (some entry.url, r)
  | none => (none, r)

def Resolves (r : McpRegistry) (name : String) (now : Nat) : Prop := ((r.resolveAt name now).1).isSome = true

end McpRegistry

/-! ## The bound context -/

structure Overlay where
  values : ResolvedContext
  expiresAt : Option Nat

structure ContextStore where
  base : ResolvedContext
  overlay : Option Overlay := none

namespace ContextStore

def push (c : ContextStore) (now : Nat) (values : ResolvedContext) (ttl : Option Nat) : ContextStore :=
  { c with overlay := some ⟨values, ttl.map (now + ·)⟩ }

def clear (c : ContextStore) : ContextStore := { c with overlay := none }

/-- The base under a live overlay. An expired overlay is dropped. -/
def resolveAt (c : ContextStore) (now : Nat) : ResolvedContext × ContextStore :=
  match c.overlay with
  | some o => if o.expiresAt.any (· ≤ now) then (c.base, c.clear) else (o.values ++ c.base, c)
  | none => (c.base, c)

end ContextStore

/-! ## Identity -/

structure IdentityHeaderRule where
  contextKey : String
  header : String
  required : Bool := false
deriving DecidableEq, Repr

structure McpGatewayConfig where
  inject : List IdentityHeaderRule := []
deriving DecidableEq, Repr

inductive McpGatewayError where
  | unknownServer (name : String)
  | unbound (key : String)
  | internal (message : String)
deriving DecidableEq, Repr

def pairLe (a b : String × String) : Prop := a.1 < b.1 ∨ (a.1 = b.1 ∧ a.2 ≤ b.2)

instance : DecidableRel pairLe := fun _ _ => inferInstanceAs (Decidable (_ ∨ _))

/-- The header pairs of a call, sorted: two calls have the same identity if and only if
they have the same pairs. -/
structure ResolvedInjection where
  pairs : List (String × String)
deriving DecidableEq, Repr

def injectedPairs (ctx : ResolvedContext) : List IdentityHeaderRule → Except McpGatewayError (List (String × String))
  | [] => .ok []
  | rule :: rules =>
    match ctx.get rule.contextKey with
    | some value => (injectedPairs ctx rules).map ((rule.header, value) :: ·)
    | none => if rule.required then .error (.unbound rule.contextKey) else injectedPairs ctx rules

def ResolvedInjection.resolve (config : McpGatewayConfig) (ctx : ResolvedContext) :
    Except McpGatewayError ResolvedInjection :=
  (injectedPairs ctx config.inject).map fun pairs => ⟨pairs.insertionSort pairLe⟩

section
variable (http : HttpCrate)

def headerMapFrom (headers : HeaderMap) : List (String × String) → Except McpGatewayError HeaderMap
  | [] => .ok headers
  | (name, value) :: pairs =>
    match http.headerName name with
    | none => .error (.internal ("invalid header name '" ++ name ++ "': invalid HTTP header name"))
    | some n =>
      match http.headerValue value.toList with
      | none => .error (.internal "invalid identity header value: failed to parse header value")
      | some v => headerMapFrom (headers.insert n v) pairs

def ResolvedInjection.headerMap (i : ResolvedInjection) : Except McpGatewayError HeaderMap :=
  headerMapFrom http HeaderMap.empty i.pairs

/-! ## Clients -/

def UPSTREAM_TIMEOUT_MESSAGE : String := "upstream MCP call timed out"

structure UpstreamClient where
  url : String
  injection : ResolvedInjection
  headers : HeaderMap

inductive Connect where
  | connected
  | failed (e : String)
  | timedOut

def buildUpstreamClient (url : String) (injection : ResolvedInjection) (connect : Connect) :
    Except McpGatewayError UpstreamClient := do
  let headers ← injection.headerMap http
  match connect with
  | .connected => .ok ⟨url, injection, headers⟩
  | .failed e => .error (.internal ("connecting upstream mcp server at '" ++ url ++ "': " ++ e))
  | .timedOut => .error (.internal UPSTREAM_TIMEOUT_MESSAGE)

end

structure CachedClient where
  server : String
  injection : ResolvedInjection
  client : UpstreamClient
  url : String

def sweepDeregistered (now : Nat) : List CachedClient → McpRegistry → List CachedClient × McpRegistry
  | [], registry => ([], registry)
  | e :: entries, registry =>
    let (url, registry) := registry.resolveAt e.server now
    let (entries, registry) := sweepDeregistered now entries registry
    (if url.isSome then e :: entries else entries, registry)

/-- The cached client of a call, if there is one for its URL; the cache is swept then. -/
def lookupClient (now : Nat) (entries : List CachedClient) (registry : McpRegistry) (server url : String)
    (injection : ResolvedInjection) : Option UpstreamClient × List CachedClient × McpRegistry :=
  match entries.find? fun e => e.server = server ∧ e.injection = injection with
  | some e => if e.url = url then (some e.client, sweepDeregistered now entries registry) else (none, entries, registry)
  | none => (none, entries, registry)

/-- Caches a client in place of those the server has for other identities. -/
def insertClient (now : Nat) (entries : List CachedClient) (registry : McpRegistry) (server url : String)
    (injection : ResolvedInjection) (client : UpstreamClient) : List CachedClient × McpRegistry :=
  let kept := entries.filter fun e => e.server ≠ server ∨ e.injection = injection
  let entries := ⟨server, injection, client, url⟩ :: kept.filter fun e => ¬ (e.server = server ∧ e.injection = injection)
  sweepDeregistered now entries registry

/-! ## Calls -/

/-- How far a call has got, with what it has resolved. -/
inductive Phase where
  | started
  | resolved (url : String)
  | injected (url : String) (injection : ResolvedInjection)
  | missed (url : String) (injection : ResolvedInjection)
  | built (url : String) (injection : ResolvedInjection) (client : UpstreamClient)
  | returned (url : String) (injection : ResolvedInjection) (client : UpstreamClient)
  | failed (e : McpGatewayError)
  | dropped

structure McpCall where
  server : String
  phase : Phase

structure Build where
  call : Nat
  url : String
  injection : ResolvedInjection

structure McpState where
  now : Nat := 0
  registry : McpRegistry := ∅
  context : ContextStore
  entries : List CachedClient := []
  calls : List McpCall := []
  builds : List Build := []

def McpState.put (s : McpState) (c : Nat) (server : String) (phase : Phase) : McpState :=
  { s with calls := s.calls.set c ⟨server, phase⟩ }

inductive McpAction where
  | register (name url : String) (ttl : Option Nat)
  | deregister (name : String)
  | push (values : ResolvedContext) (ttl : Option Nat)
  | clear
  | pass (time : Nat)
  | call (server : String)
  | resolveRegistry (c : Nat)
  | resolveContext (c : Nat)
  | lookup (c : Nat)
  | build (c : Nat) (connect : Connect)
  | insert (c : Nat)
  | drop (c : Nat)

def McpAction.caller : McpAction → Option Nat
  | .resolveRegistry c | .resolveContext c | .lookup c | .build c _ | .insert c | .drop c => some c
  | _ => none

def Phase.ofRegistry (server : String) : Option String → Phase
  | none => .failed (.unknownServer server)
  | some url => .resolved url

def Phase.ofContext (url : String) : Except McpGatewayError ResolvedInjection → Phase
  | .error e => .failed e
  | .ok injection => .injected url injection

def Phase.ofLookup (url : String) (injection : ResolvedInjection) : Option UpstreamClient → Phase
  | none => .missed url injection
  | some client => .returned url injection client

def Phase.ofBuild (url : String) (injection : ResolvedInjection) : Except McpGatewayError UpstreamClient → Phase
  | .error e => .failed e
  | .ok client => .built url injection client

def Phase.live : Phase → Bool
  | .returned .. | .failed _ | .dropped => false
  | _ => true

/-- What may happen next: the registry or the context changes, time passes, or one call takes
its next step. A call whose caller has timed out is dropped where it is. -/
inductive McpStep (config : McpGatewayConfig) (http : HttpCrate) : McpState → McpAction → McpState → Prop where
  | register {s : McpState} (name url ttl) :
      McpStep config http s (.register name url ttl) { s with registry := s.registry.register s.now name url ttl }
  | deregister {s : McpState} (name) :
      McpStep config http s (.deregister name) { s with registry := s.registry.deregister name }
  | push {s : McpState} (values ttl) :
      McpStep config http s (.push values ttl) { s with context := s.context.push s.now values ttl }
  | clear {s : McpState} : McpStep config http s .clear { s with context := s.context.clear }
  | pass {s : McpState} (time) : McpStep config http s (.pass time) { s with now := s.now + time }
  | call {s : McpState} (server) : McpStep config http s (.call server) { s with calls := s.calls ++ [⟨server, .started⟩] }
  | resolveRegistry {s : McpState} {c server} (hc : s.calls[c]? = some ⟨server, .started⟩) :
      McpStep config http s (.resolveRegistry c)
        (McpState.put { s with registry := (s.registry.resolveAt server s.now).2 } c server
          (.ofRegistry server (s.registry.resolveAt server s.now).1))
  | resolveContext {s : McpState} {c server url} (hc : s.calls[c]? = some ⟨server, .resolved url⟩) :
      McpStep config http s (.resolveContext c)
        (McpState.put { s with context := (s.context.resolveAt s.now).2 } c server
          (.ofContext url (ResolvedInjection.resolve config (s.context.resolveAt s.now).1)))
  | lookup {s : McpState} {c server url injection} (hc : s.calls[c]? = some ⟨server, .injected url injection⟩) :
      McpStep config http s (.lookup c)
        (McpState.put
          { s with
            entries := (lookupClient s.now s.entries s.registry server url injection).2.1
            registry := (lookupClient s.now s.entries s.registry server url injection).2.2 } c server
          (.ofLookup url injection (lookupClient s.now s.entries s.registry server url injection).1))
  | build {s : McpState} {c server url injection} (hc : s.calls[c]? = some ⟨server, .missed url injection⟩) (connect) :
      McpStep config http s (.build c connect)
        (McpState.put { s with builds := s.builds ++ [⟨c, url, injection⟩] } c server
          (.ofBuild url injection (buildUpstreamClient http url injection connect)))
  | insert {s : McpState} {c server url injection client} (hc : s.calls[c]? = some ⟨server, .built url injection client⟩) :
      McpStep config http s (.insert c)
        (McpState.put
          { s with
            entries := (insertClient s.now s.entries s.registry server url injection client).1
            registry := (insertClient s.now s.entries s.registry server url injection client).2 } c server
          (.returned url injection client))
  | drop {s : McpState} {c server phase} (hc : s.calls[c]? = some ⟨server, phase⟩) (hlive : phase.live = true) :
      McpStep config http s (.drop c) (s.put c server .dropped)

end SynapseGateway
