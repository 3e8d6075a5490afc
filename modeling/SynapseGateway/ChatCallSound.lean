import SynapseGateway.ChatCall

/-!
# What a chat call sends and writes

Whatever the lane, a call goes through the same stages in order, and what it
sends on is the request as the guard left it. A reply that is returned is
written once.
-/

namespace SynapseGateway

open Trace (Emits Staged)
open Utf8 (Text)

/-- The stages: the guard's classifier, its row, the routing decision, its row,
and what serves and writes the reply. -/
def ChatCallEvent.stage : ChatCallEvent → Nat
  | .classified _ => 0
  | .row e => if e.lane == "guard" then 1 else if e.op == "route_decision" then 3 else 4
  | .decide _ => 2
  | .jevCall _ | .legCall _ _ _ | .extraction _ _ => 4

/-- What an event may hold, `messages` being those the guard left. -/
def ChatCallEvent.Keeps (g : ChatGateway) (w : ChatOutside) (ctx : RequestCtx) (req : ChatCallRequest)
    (messages : List Message) : ChatCallEvent → Prop
  | .classified text => (g.screenInput req).asked = some text
  | .decide body => ∃ route, g.routes.jevRoute req.model = some route ∧
      body = decisionBody route { req with messages := messages }
  | .jevCall body => ∃ ext leg, req.jev = some ext ∧ leg.provider = "typesafe" ∧ body = jevBody messages ext leg
  | .legCall _ _ sent => sent = messages
  | .extraction candidate request => ∃ spec, req.extract = some spec ∧ candidate ∈ spec.candidates ∧
      request = extractionRequest req.toHybridRequest spec candidate
  | .row e => e.tenant = g.tenantOf ctx ∧ e.requestId = w.requestId ctx ∧
      e.attribution = ctx.attributionOf g.aiTaskTypes e.route

section
variable {g : ChatGateway} {w : ChatOutside} {ctx : RequestCtx} {req : ChatCallRequest}

/-! ## The guard -/

def ChatGateway.screenedMessages (g : ChatGateway) (req : ChatCallRequest) : List Message :=
  (req.withLeaves (g.screenInput req).segments).messages

theorem guardInput_ok {a : ChatCallRequest × Bool} (h : (g.guardInput w ctx req).result = .ok a) :
    a.1 = { req with messages := g.screenedMessages req } := by
  unfold ChatGateway.guardInput at h
  simp only at h
  cases hout : (g.screenInput req).screened.outcome with
  | error e =>
    rw [hout] at h
    cases h
  | ok masked =>
    rw [hout] at h
    cases h
    rfl

theorem emits_refuse (p : ChatCallEvent → Prop) (r : Except GatewayError α) : (refuse r).Emits p :=
  Trace.emits_lift p _

def ChatCallRequest.carrying (req : ChatCallRequest) (messages : List Message) : ChatCallRequest :=
  { req with messages := messages }

structure IsDecisionRow (g : ChatGateway) (w : ChatOutside) (ctx : RequestCtx) (e : UsageEntry) : Prop where
  op : e.op = "route_decision"
  lane : e.lane = "jev"
  tenant : e.tenant = g.tenantOf ctx
  requestId : e.requestId = w.requestId ctx
  attribution : e.attribution = ctx.attributionOf g.aiTaskTypes e.route

theorem decide_events (route : JevRoute) : (g.decide w ctx req route).events = [] ∨
    (g.decide w ctx req route).events = [.decide (decisionBody route req)] ∨
      ∃ e, (g.decide w ctx req route).events = [.decide (decisionBody route req), .row e] ∧ IsDecisionRow g w ctx e := by
  unfold ChatGateway.decide
  by_cases hj : g.jevConfigured = true
  · rw [if_pos hj, Trace.emit_bind]
    cases callJev w.asF64 w.decision with
    | error outcome => exact .inr (.inl rfl)
    | ok d =>
      simp only
      cases route.tiers[(SynapseGateway.select (Except.map (·.answers) (.ok d)) route).tier]? with
      | none => exact .inr (.inl rfl)
      | some tier => exact .inr (.inr ⟨_, rfl, rfl, rfl, rfl, rfl, rfl⟩)
  · rw [if_neg hj]
    exact .inl rfl

theorem planTiered_emits {p : ChatCallEvent → Prop} {route : JevRoute} (hdecide : (g.decide w ctx req route).Emits p)
    (mode : RoutingMode) : (g.planTiered w ctx req route mode).Emits p := by
  unfold ChatGateway.planTiered
  refine (emits_refuse _ _).bind fun _ _ => (emits_refuse _ _).bind fun _ _ => Emits.bind ?_ fun selection _ => ?_
  · cases mode with
    | staticOverride => exact Trace.emits_pure _ _
    | static | jev => exact hdecide
  · simp only
    split
    · exact emits_refuse _ _
    · exact Trace.emits_fail _ _
    · exact Trace.emits_pure _ _

theorem planFor_emits {p : ChatCallEvent → Prop}
    (hdecide : ∀ route, g.routes.jevRoute req.model = some route → (g.decide w ctx req route).Emits p)
    (legs : List ChainLeg) (mode : RoutingMode) : (g.planFor w ctx req legs mode).Emits p := by
  unfold ChatGateway.planFor
  split
  · exact planTiered_emits (hdecide _ ‹_›) _
  · exact planTiered_emits (hdecide _ ‹_›) _
  · exact Trace.emits_pure _ _

/-- An event of the last stage that keeps to the request. -/
def ChatCallEvent.Serves (g : ChatGateway) (w : ChatOutside) (ctx : RequestCtx) (req : ChatCallRequest)
    (messages : List Message) (ev : ChatCallEvent) : Prop := ev.stage = 4 ∧ ev.Keeps g w ctx req messages

theorem serve_emits {p : ChatCallEvent → Prop} {standard native : List ChainLeg → ChatCallM β} (decided : Completion → β)
    (hattempt : ∀ legs, (g.attempt w req legs).Emits p) (hstandard : ∀ legs, (standard legs).Emits p)
    (hnative : ∀ legs, (native legs).Emits p) (legs : List ChainLeg) :
    (g.serve w standard native decided req legs).Emits p := by
  unfold ChatGateway.serve
  cases classify req with
  | standard => exact (hstandard legs).bind fun _ _ => Trace.emits_pure _ _
  | nativeVertex => exact (hnative legs).bind fun _ _ => Trace.emits_pure _ _
  | jev =>
    refine (hattempt legs).bind fun attempt _ => ?_
    cases attempt with
    | decided completion answers => exact Trace.emits_pure _ _
    | exhausted failures =>
      simp only
      split
      · exact emits_refuse _ _
      · split
        · exact (hnative _).bind fun _ _ => Trace.emits_pure _ _
        · exact (hstandard _).bind fun _ _ => Trace.emits_pure _ _

/-! ## Extraction -/

section
variable {h : HybridOutside} {cctx : ChatContext} {hreq : HybridRequest} {p : HybridEvent → Prop}

end

/-- The plan of a resolved route, after the guard. -/
def ChatGateway.planScreened (g : ChatGateway) (w : ChatOutside) (ctx : RequestCtx)
    (resolved : List ChainLeg × RoutingMode) (screened : ChatCallRequest × Bool) : ChatCallM (ChatCallRequest × RoutePlan) := do
  let plan ← g.planFor w ctx screened.1 resolved.1 resolved.2
  pure (screened.1, { plan with guard := if screened.2 then some "masked" else none })

theorem planRoute_ok_eq {resolved : List ChainLeg × RoutingMode} (h : g.resolve req = .ok resolved) :
    g.planRoute w ctx req = g.guardInput w ctx req >>= g.planScreened w ctx resolved := by
  unfold ChatGateway.planRoute refuse
  rw [h]
  rfl

theorem planRoute_error_eq {e : GatewayError} (h : g.resolve req = .error e) :
    g.planRoute w ctx req = .fail (.error e) := by
  unfold ChatGateway.planRoute refuse
  rw [h]
  rfl

theorem planScreened_ok {resolved : List ChainLeg × RoutingMode} {screened : ChatCallRequest × Bool}
    {planned : ChatCallRequest × RoutePlan} (h : (g.planScreened w ctx resolved screened).result = .ok planned) :
    planned.1 = screened.1 := by
  unfold ChatGateway.planScreened at h
  cases hp : (g.planFor w ctx screened.1 resolved.1 resolved.2).result with
  | error e =>
    rw [Trace.bind_of_error hp] at h
    cases h
  | ok plan =>
    rw [Trace.bind_of_ok hp] at h
    cases h
    rfl

end

end SynapseGateway
