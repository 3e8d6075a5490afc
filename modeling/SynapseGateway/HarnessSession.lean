import SynapseGateway.HarnessPlanner
import SynapseGateway.Lib.Steps

/-!
# Harness turns side by side

A call of `uhp_response` reads its prior response, takes its session, plans and runs,
records, and lets the session go. Calls take these steps in any order.
-/

namespace SynapseGateway

open Utf8 (Text)

/-! ## One call -/

structure Answers where
  jev : JevNativeProvider
  runner : UhpRunner

def Gateway.under (g : Gateway) (a : Answers) : Gateway :=
  { g with
    jevNative := g.jevNative.map fun _ => a.jev
    uhpRunner := g.uhpRunner.map fun _ => a.runner }

/-- What a call does while it holds its session. -/
def Gateway.runTurn (g : Gateway) (t : Turn) : TurnM (Json × HarnessRoutingReport) := do
  let plan ← g.planHarnessRoute t
  match g.uhpRunner with
  | none => Trace.fail (.harnessUnavailable "no UHP runner configured on gateway")
  | some runner => g.walkLegs t plan runner 0 [] plan.legs

def storedBy (events : List TurnEvent) : Option StoredUhpResponse :=
  events.findSome? fun
    | .recordResponse stored => some stored
    | _ => none

/-! ## The store -/

def UhpSessionStore.acquire (store : UhpSessionStore) (id : String) : UhpSessionStore :=
  { store with busySessions := id :: store.busySessions }

def UhpSessionStore.release (store : UhpSessionStore) (id : String) : UhpSessionStore :=
  { store with busySessions := store.busySessions.filter (· != id) }

/-- The newest entry of an id is the one that is found. -/
def UhpSessionStore.recordResponse (store : UhpSessionStore) (stored : StoredUhpResponse) : UhpSessionStore :=
  { store with responses := (stored.responseId, stored) :: store.responses }

/-! ## Calls -/

/-- How far a call has got. A call whose caller has gone is dropped while it plans or
runs, the only places where it waits. -/
inductive TurnPhase where
  | resolved (t : Turn)
  | acquired (t : Turn)
  | ran (t : Turn) (stored : StoredUhpResponse) (result : Except GatewayError (Json × HarnessRoutingReport))
  | closing (t : Turn) (result : Except GatewayError (Json × HarnessRoutingReport))
  | rejected (e : GatewayError)
  | ended (result : Except GatewayError (Json × HarnessRoutingReport))
  | dropped

/-- The turn of a call between its acquire and its release. -/
def TurnPhase.holds : TurnPhase → Option Turn
  | .acquired t | .ran t _ _ | .closing t _ => some t
  | _ => none

/-- The turn of a call that may still record. -/
def TurnPhase.pending : TurnPhase → Option Turn
  | .resolved t | .acquired t | .ran t _ _ => some t
  | _ => none

def TurnPhase.ofLookup : Except GatewayError Turn → TurnPhase
  | .ok t => .resolved t
  | .error e => .ended (.error e)

def TurnPhase.ofRun (t : Turn) (r : TurnM (Json × HarnessRoutingReport)) : TurnPhase :=
  match storedBy r.events with
  | some stored => .ran t stored r.result
  | none => .closing t r.result

/-- The calls by index, the response ids generated so far, and the turns that recorded,
newest first. No step reads what has recorded. -/
structure UhpState where
  store : UhpSessionStore := {}
  calls : List TurnPhase := []
  responseIds : List String := []
  recorded : List (Turn × StoredUhpResponse) := []

def UhpState.put (s : UhpState) (c : Nat) (phase : TurnPhase) : UhpState := { s with calls := s.calls.set c phase }

inductive UhpAction where
  | lookup (ctx : RequestCtx) (ids : FreshIds) (req : UhpCreateRequest)
  | acquire (c : Nat)
  | run (c : Nat) (answers : Answers)
  | record (c : Nat)
  | release (c : Nat)
  | drop (c : Nat)

/-- The call whose step an action is; a lookup starts one. -/
def UhpAction.caller : UhpAction → Option Nat
  | .lookup .. => none
  | .acquire c | .run c _ | .record c | .release c | .drop c => some c

/-- What may happen next: a call starts, or one call takes its next step. A response id
that is generated is new. -/
inductive UhpStep (g : Gateway) : UhpState → UhpAction → UhpState → Prop where
  | lookup {s : UhpState} (ctx : RequestCtx) (ids : FreshIds) (req : UhpCreateRequest)
      (hr : ids.response ∉ s.responseIds) :
      UhpStep g s (.lookup ctx ids req)
        { s with
          calls := s.calls ++ [.ofLookup (g.resolveTurn s.store ctx ids req)]
          responseIds := ids.response :: s.responseIds }
  | acquire {s : UhpState} {c t} (hc : s.calls[c]? = some (.resolved t))
      (hfree : s.store.tryAcquireSession t.sessionId = .ok ()) :
      UhpStep g s (.acquire c) (UhpState.put { s with store := s.store.acquire t.sessionId } c (.acquired t))
  | reject {s : UhpState} {c t e} (hc : s.calls[c]? = some (.resolved t))
      (hbusy : s.store.tryAcquireSession t.sessionId = .error e) :
      UhpStep g s (.acquire c) (s.put c (.rejected e))
  | run {s : UhpState} {c t} (hc : s.calls[c]? = some (.acquired t)) (answers : Answers) :
      UhpStep g s (.run c answers) (s.put c (.ofRun t ((g.under answers).runTurn t)))
  | record {s : UhpState} {c t stored result} (hc : s.calls[c]? = some (.ran t stored result)) :
      UhpStep g s (.record c)
        (UhpState.put
          { s with
            store := s.store.recordResponse stored
            recorded := (t, stored) :: s.recorded } c (.closing t result))
  | release {s : UhpState} {c t result} (hc : s.calls[c]? = some (.closing t result)) :
      UhpStep g s (.release c) (UhpState.put { s with store := s.store.release t.sessionId } c (.ended result))
  | drop {s : UhpState} {c t} (hc : s.calls[c]? = some (.acquired t)) :
      UhpStep g s (.drop c) (UhpState.put { s with store := s.store.release t.sessionId } c .dropped)

/-! ## Chains of responses -/

def StoredUhpResponse.previous (r : StoredUhpResponse) : Option String :=
  ((r.body.get? "previous_response_id").bind Json.asStr).map String.ofList

def StoredUhpResponse.outputText (r : StoredUhpResponse) : Text :=
  (((((((r.body.get? "output").bind Json.asArray).bind List.head?).bind (·.get? "content")).bind Json.asArray).bind
    List.head?).bind fun part => (part.get? "text").bind Json.asStr).getD []

/-- Stored responses, each naming the one before as its previous response. -/
inductive UhpSessionStore.Chain (store : UhpSessionStore) : List StoredUhpResponse → StoredUhpResponse → Prop where
  | first {id r} (hr : store.getResponse id = some r) (hprev : r.previous = none) : Chain store [r] r
  | next {rs p id r} (hchain : Chain store rs p) (hr : store.getResponse id = some r)
      (hprev : r.previous = some p.responseId) : Chain store (rs ++ [r]) r

/-- What a stored response adds to its session: what the user asked and what the
assistant answered. -/
def UhpState.exchange (s : UhpState) (r : StoredUhpResponse) : List (String × Text) :=
  ((s.recorded.find? fun c => c.2.responseId == r.responseId).map fun c =>
    [("user", c.1.req.promptText), ("assistant", r.outputText)]).getD []

end SynapseGateway
