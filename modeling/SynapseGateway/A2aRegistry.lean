import Mathlib.Data.List.AList
import SynapseGateway.Json

/-!
# The A2A registry

Agents by id. A registration of an id that is there is ignored. An agent that
has expired stays until a read finds it, and is dropped then.
-/

namespace SynapseGateway

structure A2aAgentInfo where
  id : String
  name : String
  description : String
  endpointUrl : String
  cardUrl : String
  tags : List String
  card : Json

structure RegisterA2aAgentRequest extends A2aAgentInfo where
  ttlSeconds : Option Nat := none

structure A2aRegistration extends A2aAgentInfo where
  ttl : Option Nat

/-- Instants are nanoseconds on one clock. -/
structure RegisteredA2aAgent extends A2aAgentInfo where
  expiresAt : Option Nat

structure A2aCatalogEntry where
  id : String
  name : String
  description : String
  cardUrl : String
  endpointUrl : String
  tags : List String
deriving DecidableEq, Repr

structure A2aCatalog where
  version : String
  agents : List A2aCatalogEntry

structure A2aResolveResponse where
  id : String
  endpointUrl : String
  cardUrl : String
  card : Json

/-! ## The registry -/

def fromSecs (secs : Nat) : Nat := secs * 1000000000

/-- An expiry after `latest` cannot be represented: adding to the instant panics. -/
def expiryFromTtl (latest now : Nat) : Option Nat → Option (Option Nat)
  | none => some none
  | some ttl => if now + ttl ≤ latest then some (some (now + ttl)) else none

def isExpired (agent : RegisteredA2aAgent) (now : Nat) : Bool := agent.expiresAt.any (· ≤ now)

abbrev A2aAgents := AList fun _ : String => RegisteredA2aAgent

/-- The map behind its lock. A panic while the lock is held poisons it. -/
structure A2aRegistry where
  inner : A2aAgents := ∅
  poisoned : Bool := false

namespace A2aRegistry

/-- What a method gives under the lock, `none` being a panic. -/
def locked {β : Type} (r : A2aRegistry) (f : A2aAgents → Option (β × A2aAgents)) : Option β × A2aRegistry :=
  if r.poisoned then (none, r)
  else
    match f r.inner with
    | some (b, inner) => (some b, { r with inner := inner })
    | none => (none, { r with poisoned := true })

def tryRegister (latest now : Nat) (reg : A2aRegistration) (r : A2aRegistry) : Option Bool × A2aRegistry :=
  r.locked fun inner =>
    if reg.id ∈ inner then some (false, inner)
    else
      (expiryFromTtl latest now reg.ttl).map fun expiresAt =>
        (true, inner.insert reg.id { reg.toA2aAgentInfo with expiresAt := expiresAt })

def deregister (id : String) (r : A2aRegistry) : Option Unit × A2aRegistry :=
  r.locked fun inner => some ((), inner.erase id)

def resolveAt (id : String) (now : Nat) (r : A2aRegistry) : Option (Option RegisteredA2aAgent) × A2aRegistry :=
  r.locked fun inner =>
    match inner.lookup id with
    | some entry => if isExpired entry now then some (none, inner.erase id) else some (some entry, inner)
    | none => some (none, inner)

def retain (keep : RegisteredA2aAgent → Bool) (inner : A2aAgents) : A2aAgents :=
  ⟨inner.entries.filter fun e => keep e.2, inner.nodupKeys.sublist List.filter_sublist⟩

def listAt (now : Nat) (r : A2aRegistry) : Option (List RegisteredA2aAgent) × A2aRegistry :=
  r.locked fun inner =>
    let kept := retain (fun agent => !isExpired agent now) inner
    some (kept.entries.map fun e => e.2, kept)

end A2aRegistry

/-! ## The routes -/

inductive A2aRequest where
  | registerAgent (req : RegisterA2aAgentRequest)
  | deregisterAgent (id : String)
  | listCatalog
  | getAgentCard (id : String)
  | resolveAgent (id : String)

inductive A2aResponse where
  | noContent
  | notFound
  | catalog (c : A2aCatalog)
  | card (card : Json)
  | resolved (r : A2aResolveResponse)

def toCatalogEntry (agent : RegisteredA2aAgent) : A2aCatalogEntry where
  id := agent.id
  name := agent.name
  description := agent.description
  cardUrl := agent.cardUrl
  endpointUrl := agent.endpointUrl
  tags := agent.tags

def toResolveResponse (agent : RegisteredA2aAgent) : A2aResolveResponse where
  id := agent.id
  endpointUrl := agent.endpointUrl
  cardUrl := agent.cardUrl
  card := agent.card

def RegisterA2aAgentRequest.registration (req : RegisterA2aAgentRequest) : A2aRegistration :=
  { req.toA2aAgentInfo with ttl := req.ttlSeconds.map fromSecs }

/-- A call, at the instant it reads from the clock. -/
structure A2aCall where
  now : Nat
  request : A2aRequest

/-- The response, or none where the handler panics. -/
def A2aRegistry.serve (latest : Nat) (r : A2aRegistry) (c : A2aCall) : Option A2aResponse × A2aRegistry :=
  match c.request with
  | .registerAgent req =>
    let (inserted, r) := r.tryRegister latest c.now req.registration
    (inserted.map fun _ => .noContent, r)
  | .deregisterAgent id =>
    let (removed, r) := r.deregister id
    (removed.map fun _ => .noContent, r)
  | .listCatalog =>
    let (agents, r) := r.listAt c.now
    (agents.map fun agents => .catalog ⟨"1.0", agents.map toCatalogEntry⟩, r)
  | .getAgentCard id =>
    let (agent, r) := r.resolveAt id c.now
    (agent.map fun agent => (agent.map fun agent => A2aResponse.card agent.card).getD .notFound, r)
  | .resolveAgent id =>
    let (agent, r) := r.resolveAt id c.now
    (agent.map fun agent => (agent.map fun agent => A2aResponse.resolved (toResolveResponse agent)).getD .notFound, r)

/-- The responses to calls that take the lock in this order. -/
def A2aRegistry.serveAll (latest : Nat) (r : A2aRegistry) : List A2aCall → List (Option A2aResponse) × A2aRegistry
  | [] => ([], r)
  | c :: calls =>
    let (response, r) := r.serve latest c
    let (responses, r) := r.serveAll latest calls
    (response :: responses, r)

end SynapseGateway
