import SynapseGateway.GuardLane
import SynapseGateway.PassthroughRows

/-!
# The Gemini passthrough as a lane

A body is screened under every policy of its model, each on what the one before
left, and only then goes to the legs. A call is sent once its token has come,
and every leg that is asked to generate is written once, whether it came or not.
-/

namespace SynapseGateway

open Utf8 (Text)

/-! ## The request to Vertex -/

/-- How the token fetch before each call ends, and what a call that is sent is answered with. -/
structure VertexTransport where
  token : Nat → Except String Unit
  post : Nat → VertexCall → Except String VertexReply

def VertexTransport.passthroughRequest (wire : VertexTransport) (i : Nat) (call : VertexCall) :
    Except GatewayError VertexReply :=
  match wire.token i with
  | .error e => .error (.upstream 401 ("vertex auth: " ++ e))
  | .ok () =>
    match wire.post i call with
    | .error e => .error (.upstream 502 e)
    | .ok reply => .ok reply

/-- Without a token nothing is sent. -/
def VertexTransport.posted (wire : VertexTransport) (i : Nat) (call : VertexCall) : List VertexCall :=
  match wire.token i with
  | .error _ => []
  | .ok () => [call]

theorem mem_posted {wire : VertexTransport} {i : Nat} {call c : VertexCall} (h : c ∈ wire.posted i call) : c = call := by
  unfold VertexTransport.posted at h
  split at h
  · cases h
  · exact List.mem_singleton.mp h

/-! ## The lane -/

def GuardEngine.screenBodyLane {κ : Type} (llm : LlmGuard) (eng : GuardEngine) (c : LaneCtx)
    (action routeAlias : String) : List String → Json → Bool → LaneM κ (Json × Bool)
  | [], body, masked => pure (body, masked)
  | policy :: policies, body, masked => do
    let d ← eng.guardLane llm c routeAlias (some policy) .passthrough [(leavesFor action).read body]
    eng.screenBodyLane llm c action routeAlias policies ((leavesFor action).write body (d.1.headD [])) (masked || d.2)

def PassthroughOut.outcome : PassthroughOut → Except GatewayError PassthroughOut
  | .failed e => .error e
  | out => .ok out

section
variable (serde : SerdeJson)

/-- What a leg with this answer leaves: the call, if it was sent, and then its rows. -/
def GeminiCall.legEvents (c : GeminiCall) (wire : VertexTransport) (i : Nat) (leg : ChainLeg) (rows : List UsageEntry) :
    List (LaneEvent VertexCall) := (wire.posted i (c.ask leg)).map .sent ++ rows.map .row

/-- The legs from number `i` on, each asked and then written. -/
def GeminiCall.walkLegs (c : GeminiCall) (wire : VertexTransport) (uuid : Nat → String) (i : Nat)
    (lastFailure : Option (Nat × Bytes)) (legs : List ChainLeg) : LaneM VertexCall PassthroughOut :=
  let (steps, out) := c.legSteps serde wire.passthroughRequest uuid i lastFailure legs
  ⟨out.outcome, steps.flatMap fun s => c.legEvents wire s.1 s.2.1 s.2.2⟩

end

section
variable (serde : SerdeJson) (wire : VertexTransport) (uuid : Nat → String)

/-- The request with its body as it came. -/
def GeminiGateway.addressGemini (g : GeminiGateway) (req : GeminiRequest) : Except GatewayError AdmittedGemini :=
  g.admitGemini (fun _ _ _ body => .ok (body, false)) req

def GeminiGateway.laneCtx (g : GeminiGateway) (ctx : RequestCtx) : LaneCtx where
  tenant := ctx.tenant.getD g.defaultTenant
  attribution := ctx.attributionOf g.taskTypeOf
  requestId := ctx.requestIdOr (uuid 0)

/-- The one call of an action that does not generate. -/
def AdmittedGemini.asked (a : AdmittedGemini) : VertexCall := ⟨a.first.model, a.action, false, a.body, a.first.region⟩

def AdmittedGemini.calls (a : AdmittedGemini) (g : GeminiGateway) (ctx : RequestCtx) (query : Option Text) :
    LaneM VertexCall PassthroughOut :=
  if isMetered a.action then
    (a.call g (ctx.stamped (uuid 0)) query).walkLegs serde wire (fun i => uuid (i + 1)) 0 none a.chain.legs
  else ⟨(a.forwardOnce wire.passthroughRequest).outcome, (wire.posted 0 a.asked).map .sent⟩

def GeminiGateway.screenLane (llm : LlmGuard) (eng : GuardEngine) (g : GeminiGateway) (ctx : RequestCtx)
    (a : AdmittedGemini) : LaneM VertexCall (Json × Bool) :=
  if a.action ∈ NON_CONTENT_ACTIONS then pure (a.body, false)
  else eng.screenBodyLane llm (g.laneCtx uuid ctx) a.action (a.chain.route.getD a.model)
    (g.routes.passthroughPolicies a.model) a.body false

def GeminiGateway.geminiLane (llm : LlmGuard) (eng : GuardEngine) (g : GeminiGateway) (ctx : RequestCtx)
    (req : GeminiRequest) : LaneM VertexCall PassthroughOut := do
  let a ← Trace.lift (g.addressGemini req)
  let screened ← g.screenLane uuid llm eng ctx a
  let out ← { a with body := screened.1 : AdmittedGemini }.calls serde wire uuid g ctx req.query
  pure (out.withGuardHeader screened.2)

end

/-! ## What a call keeps to -/

/-- What policies, one after the other, leave of a body. -/
structure LeavesBody (llm : LlmGuard) (eng : GuardEngine) (action : String) (policies : List String)
    (body body' : Json) : Prop where
  leaves : (leavesFor action).read body' = eng.shown llm policies ((leavesFor action).read body)
  rest : RewritesLeaves (leavesFor action) body body'

/-- The row of a stream that is dropped after `n` polls. -/
def streamRow (serde : SerdeJson) (n : Nat) : Except GatewayError PassthroughOut → Option UsageEntry
  | .ok (.streamed _ stream) => some (stream.polls serde n).guard.row
  | _ => none

/-- The rows of a call, but for the guard's, when its response is dropped after `n` polls. -/
def usageRows (serde : SerdeJson) (n : Nat) (x : LaneM VertexCall PassthroughOut) : List UsageEntry :=
  x.events.filterMap LaneEvent.usage? ++ (streamRow serde n x.result).toList

/-- A call that generates asks the attempted legs in order, each sent where its
token came and written either way; any other asks the first leg and writes nothing. -/
structure AdmittedGemini.Asks (a : AdmittedGemini) (serde : SerdeJson) (wire : VertexTransport) (g : GeminiGateway)
    (ctx : RequestCtx) (query : Option Text) (x : LaneM VertexCall PassthroughOut) : Prop where
  metered : isMetered a.action = true →
    x.sends = ((a.call g ctx query).attempted wire.passthroughRequest 0 a.chain.legs).flatMap
        (fun leg => wire.posted leg.1 ((a.call g ctx query).ask leg.2)) ∧
      ∀ n, (usageRows serde n x).map (·.model) =
        ((a.call g ctx query).attempted wire.passthroughRequest 0 a.chain.legs).map (·.2.model)
  once : isMetered a.action = false → x.sends = wire.posted 0 a.asked ∧ ∀ n, usageRows serde n x = []

structure GeminiKept (serde : SerdeJson) (wire : VertexTransport) (uuid : Nat → String) (llm : LlmGuard)
    (eng : GuardEngine) (g : GeminiGateway) (ctx : RequestCtx) (req : GeminiRequest)
    (x : LaneM VertexCall PassthroughOut) : Prop where
  unaddressed : ∀ e, g.addressGemini req = .error e → x = ⟨.error e, []⟩
  guardFirst : x.events.Pairwise fun ev later => later.IsGuard → ev.IsGuard
  owned : ∀ n, ∀ e ∈ x.events.filterMap LaneEvent.row? ++ (streamRow serde n x.result).toList,
    (g.laneCtx uuid ctx).Owns e
  refused : ∀ a, g.addressGemini req = .ok a → a.action ∉ NON_CONTENT_ACTIONS →
    eng.RejectsInTurn llm (g.routes.passthroughPolicies a.model) ((leavesFor a.action).read req.body) →
    (∃ e, x.result = .error e) ∧ x.Emits (·.IsGuard) ∧ ∀ n, usageRows serde n x = []
  asked : ∀ a, g.addressGemini req = .ok a → (a.action ∉ NON_CONTENT_ACTIONS →
      ¬ eng.RejectsInTurn llm (g.routes.passthroughPolicies a.model) ((leavesFor a.action).read req.body)) →
    ∃ body, (a.action ∈ NON_CONTENT_ACTIONS → body = req.body) ∧
      (a.action ∉ NON_CONTENT_ACTIONS →
        LeavesBody llm eng a.action (g.routes.passthroughPolicies a.model) req.body body) ∧
      { a with body := body : AdmittedGemini }.Asks serde wire g (ctx.stamped (uuid 0)) req.query x

/-! ## The guard -/

section
variable {llm : LlmGuard} {eng : GuardEngine} {c : LaneCtx} {κ : Type} {action routeAlias : String}

theorem screenBodyLane_guard (policies : List String) (body : Json) (masked : Bool) :
    (eng.screenBodyLane llm c action routeAlias policies body masked : LaneM κ _).Emits (·.IsGuard) := by
  induction policies generalizing body masked with
  | nil => exact Trace.emits_pure _ _
  | cons policy policies ih => exact Trace.Emits.bind guardLane_guard fun d _ => ih _ _

theorem screenBodyLane_owned (policies : List String) (body : Json) (masked : Bool) :
    (eng.screenBodyLane llm c action routeAlias policies body masked : LaneM κ _).Emits
      fun ev => ∀ e, ev = .row e → c.Owns e := by
  induction policies generalizing body masked with
  | nil => exact Trace.emits_pure _ _
  | cons policy policies ih =>
    refine Trace.Emits.bind (fun ev hev e he => ?_) fun d _ => ih _ _
    subst he
    exact guardLane_owned hev

theorem LeavesBody.cons {policy : String} {policies : List String} {body body' : Json} {ts : List Text}
    (hts : ts = eng.leaves llm policy ((leavesFor action).read body))
    (h : LeavesBody llm eng action policies ((leavesFor action).write body ts) body') :
    LeavesBody llm eng action (policy :: policies) body body' := by
  have hlen : ts.length = ((leavesFor action).read body).length := by rw [hts, shownLeaves_length]
  constructor
  · rw [h.leaves, (leavesFor action).read_write body ts hlen, hts]
    rfl
  · exact .head ⟨ts, hlen, rfl⟩ h.rest

/-- A request that some policy in its turn rejects ends there; of any other the
body is what the policies leave. -/
theorem screenBodyLane_result (policies : List String) (body : Json) (masked : Bool) :
    ((∃ e, (eng.screenBodyLane llm c action routeAlias policies body masked : LaneM κ _).result = .error e) ↔
        eng.RejectsInTurn llm policies ((leavesFor action).read body)) ∧
      ∀ a, (eng.screenBodyLane llm c action routeAlias policies body masked : LaneM κ _).result = .ok a →
        LeavesBody llm eng action policies body a.1 := by
  induction policies generalizing body masked with
  | nil =>
    refine ⟨?_, fun a ha => ?_⟩
    · refine iff_of_false (fun h => ?_) fun h => ?_
      · obtain ⟨e, he⟩ := h
        cases he
      · obtain ⟨before, policy, after, heq, -⟩ := h
        simp at heq
    · cases ha
      exact ⟨rfl, .refl⟩
  | cons policy policies ih =>
    have herror : (∃ e, (eng.guardLane llm c routeAlias (some policy) .passthrough [(leavesFor action).read body] :
        LaneM κ _).result = .error e) ↔ eng.RejectsSegment llm policy ((leavesFor action).read body) := guardLane_error_iff
    unfold GuardEngine.screenBodyLane
    rw [rejectsInTurn_cons, ← herror]
    cases hd : (eng.guardLane llm c routeAlias (some policy) .passthrough [(leavesFor action).read body] :
        LaneM κ _).result with
    | error e =>
      rw [Trace.bind_of_error hd]
      exact ⟨iff_of_true ⟨e, rfl⟩ (.inl ⟨e, rfl⟩), fun a ha => by cases ha⟩
    | ok d =>
      have hleaves : d.1.headD [] = eng.leaves llm policy ((leavesFor action).read body) := by
        rw [guardLane_ok hd]
        rfl
      obtain ⟨ihError, ihOk⟩ := ih ((leavesFor action).write body (d.1.headD [])) (masked || d.2)
      rw [Trace.bind_of_ok hd]
      refine ⟨?_, fun a ha => (ihOk a ha).cons hleaves⟩
      rw [or_iff_right (by simp), ihError, hleaves,
        (leavesFor action).read_write body _ (shownLeaves_length llm eng policy _)]

end

/-! ## The legs -/

/-- The counts and the status may differ, and nothing else. -/
def PassthroughUsageGuard.Continues (u u' : PassthroughUsageGuard) : Prop :=
  u' = { u with inputTokens := u'.inputTokens, outputTokens := u'.outputTokens, status := u'.status }

section
variable {serde : SerdeJson}

theorem PassthroughUsageGuard.Continues.trans {u v w : PassthroughUsageGuard} (h : u.Continues v) (h' : v.Continues w) :
    u.Continues w := by
  unfold PassthroughUsageGuard.Continues at h h' ⊢
  rw [h'] at ⊢
  rw [h]

theorem observeSseLine_continues (u : PassthroughUsageGuard) (line : Text) : u.Continues (u.observeSseLine serde line) := by
  unfold PassthroughUsageGuard.observeSseLine
  split
  · rfl
  · split <;> rfl

theorem observeLines_continues (u : PassthroughUsageGuard) (lines : List Text) :
    u.Continues (u.observeLines serde lines) := by
  unfold PassthroughUsageGuard.observeLines
  induction lines generalizing u with
  | nil => rfl
  | cons line lines ih => exact (observeSseLine_continues u (trimEnd line)).trans (ih _)

theorem observeBody_continues (u : PassthroughUsageGuard) (bytes : Bytes) : u.Continues (u.observeBody serde bytes) := by
  unfold PassthroughUsageGuard.observeBody
  split <;> rfl

theorem polls_continues (n : Nat) (s : MeteredSseStream) : s.guard.Continues (s.polls serde n).guard := by
  induction n generalizing s with
  | zero => rfl
  | succ n ih =>
    refine PassthroughUsageGuard.Continues.trans ?_ (ih _)
    obtain ⟨inner, guard, buf⟩ := s
    cases inner with
    | nil => exact observeSseLine_continues guard _
    | cons item inner =>
      cases item with
      | error e => rfl
      | ok bytes => exact observeLines_continues guard _

end

section
variable {serde : SerdeJson} {c : GeminiCall} {wire : VertexTransport} {uuid : Nat → String}

theorem succeed_row (n i : Nat) (leg : ChainLeg) (reply : VertexReply) :
    ∃ u, (c.usageGuard (uuid i) leg.model).Continues u ∧
      (c.succeed serde uuid i leg reply).rows ++
        (streamRow serde n (c.succeed serde uuid i leg reply).out.outcome).toList = [u.row] := by
  unfold GeminiCall.succeed
  by_cases hs : (c.streaming && c.altSse) = true
  · rw [if_pos hs]
    exact ⟨_, polls_continues n _, rfl⟩
  · rw [if_neg hs]
    cases readBytes reply.body with
    | error e => exact ⟨c.usageGuard (uuid i) leg.model, rfl, rfl⟩
    | ok bytes => exact ⟨_, observeBody_continues _ bytes, rfl⟩

/-- The row is one the guard of a leg for `model` writes. -/
def GeminiCall.Writes (c : GeminiCall) (uuid : Nat → String) (model : String) (e : UsageEntry) : Prop :=
  ∃ i u, (c.usageGuard (uuid i) model).Continues u ∧ e = u.row

theorem GeminiCall.Writes.lane {model : String} {e : UsageEntry} (h : c.Writes uuid model e) : e.lane ≠ "guard" := by
  obtain ⟨i, u, -, rfl⟩ := h
  exact show "passthrough" ≠ "guard" by decide

theorem GeminiCall.Writes.model {model : String} {e : UsageEntry} (h : c.Writes uuid model e) : e.model = model := by
  obtain ⟨i, u, hu, rfl⟩ := h
  exact congrArg PassthroughUsageGuard.model hu

theorem errorRow_writes (i : Nat) (model : String) : c.Writes uuid model (c.errorRow (uuid i) model) :=
  ⟨i, { c.usageGuard (uuid i) model with status := "error" }, rfl, rfl⟩

theorem succeed_writes (n i : Nat) (leg : ChainLeg) (reply : VertexReply) : ∃ e, c.Writes uuid leg.model e ∧
    (c.succeed serde uuid i leg reply).rows ++
      (streamRow serde n (c.succeed serde uuid i leg reply).out.outcome).toList = [e] := by
  obtain ⟨u, hu, hrow⟩ := @succeed_row serde c uuid n i leg reply
  exact ⟨u.row, ⟨i, u, hu, rfl⟩, hrow⟩

theorem walkLegs_ends {i : Nat} {last : Option (Nat × Bytes)} {leg : ChainLeg} {legs : List ChainLeg}
    {rows : List UsageEntry} {out : PassthroughOut} (h : c.answered serde uuid i last leg (!legs.isEmpty)
      (wire.passthroughRequest i (c.ask leg)) = (rows, .ends out)) :
    c.walkLegs serde wire uuid i last (leg :: legs) = ⟨out.outcome, c.legEvents wire i leg rows⟩ := by
  unfold GeminiCall.walkLegs
  rw [GeminiCall.legSteps, h]
  simp

theorem walkLegs_next {i : Nat} {last failure : Option (Nat × Bytes)} {leg : ChainLeg} {legs : List ChainLeg}
    {rows : List UsageEntry} (h : c.answered serde uuid i last leg (!legs.isEmpty)
      (wire.passthroughRequest i (c.ask leg)) = (rows, .next failure)) :
    c.walkLegs serde wire uuid i last (leg :: legs) = ⟨(c.walkLegs serde wire uuid (i + 1) failure legs).result,
      c.legEvents wire i leg rows ++ (c.walkLegs serde wire uuid (i + 1) failure legs).events⟩ := by
  unfold GeminiCall.walkLegs
  rw [GeminiCall.legSteps, h]
  simp

/-- What a walk does with its next leg: it ends there, with one row written now
or when the response is dropped, or writes the leg's error and goes on. -/
theorem walkLegs_cons (serde : SerdeJson) (wire : VertexTransport) (uuid : Nat → String) (i : Nat)
    (last : Option (Nat × Bytes)) (leg : ChainLeg) (legs : List ChainLeg) :
    (∃ (rows : List UsageEntry) (out : PassthroughOut),
        c.attempted wire.passthroughRequest i (leg :: legs) = [(i, leg)] ∧
        (∀ n, ∃ e, c.Writes uuid leg.model e ∧ rows ++ (streamRow serde n out.outcome).toList = [e]) ∧
        c.walkLegs serde wire uuid i last (leg :: legs) = ⟨out.outcome, c.legEvents wire i leg rows⟩) ∨
      ∃ last', c.attempted wire.passthroughRequest i (leg :: legs) =
          (i, leg) :: c.attempted wire.passthroughRequest (i + 1) legs ∧
        c.walkLegs serde wire uuid i last (leg :: legs) = ⟨(c.walkLegs serde wire uuid (i + 1) last' legs).result,
          c.legEvents wire i leg [c.errorRow (uuid i) leg.model] ++
            (c.walkLegs serde wire uuid (i + 1) last' legs).events⟩ := by
  by_cases hsucc : ∃ reply, wire.passthroughRequest i (c.ask leg) = .ok reply ∧ isSuccess reply.status = true
  · obtain ⟨reply, hsend, hok⟩ := hsucc
    refine .inl ⟨_, _, attempted_last ?_, fun n => succeed_writes n i leg reply, walkLegs_ends ?_⟩
    · rw [hsend, retried, hok]
      rfl
    · rw [hsend, answered_succeed hok]
  · have hfails : ∀ reply, wire.passthroughRequest i (c.ask leg) = .ok reply → isSuccess reply.status = false := by
      intro reply hr
      exact eq_false_of_ne_true fun hok => hsucc ⟨reply, hr, hok⟩
    obtain ⟨failure, hnext, hretry, -⟩ | ⟨out, hout, hends, hlast⟩ :=
      @answered_failed serde c uuid _ last i leg (!legs.isEmpty) hfails
    · exact .inr ⟨failure, attempted_retried (.inl hretry), walkLegs_next hnext⟩
    · refine .inl ⟨[c.errorRow (uuid i) leg.model], out, ?_, fun n => ⟨_, errorRow_writes i leg.model, ?_⟩, ?_⟩
      · rcases hlast with hretry | hmore
        · exact attempted_last hretry
        · have hnil : legs = [] := by simpa using hmore
          rw [attempted_retried (.inr hnil), hnil]
          rfl
      · cases out with
        | streamed head stream => exact absurd rfl (hout head stream)
        | _ => rfl
      · exact walkLegs_ends hends

theorem written_lane {model : String} {e : UsageEntry} {rows later : List UsageEntry} (he : c.Writes uuid model e)
    (h : rows ++ later = [e]) : ∀ r ∈ rows, r.lane ≠ "guard" := by
  intro r hr
  have hmem : r ∈ [e] := h ▸ List.mem_append_left _ hr
  rw [List.mem_singleton.mp hmem]
  exact he.lane

theorem answered_lane {answer : Except GatewayError VertexReply} {i : Nat} {last : Option (Nat × Bytes)} {leg : ChainLeg}
    {more : Bool} : ∀ e ∈ (c.answered serde uuid i last leg more answer).1, e.lane ≠ "guard" := by
  by_cases hsucc : ∃ reply, answer = .ok reply ∧ isSuccess reply.status = true
  · obtain ⟨reply, rfl, hok⟩ := hsucc
    obtain ⟨e, he, hrow⟩ := @succeed_writes serde c uuid 0 i leg reply
    rw [answered_succeed hok]
    exact written_lane he hrow
  · have herror := @errorRow_writes c uuid i leg.model
    obtain ⟨failure, hnext, -⟩ | ⟨out, -, hends, -⟩ := @answered_failed serde c uuid answer last i leg more
      fun reply hr => eq_false_of_ne_true fun hok => hsucc ⟨reply, hr, hok⟩
    · rw [hnext]
      exact List.forall_mem_singleton.mpr herror.lane
    · rw [hends]
      exact List.forall_mem_singleton.mpr herror.lane

theorem sends_legEvents {i : Nat} {leg : ChainLeg} {rows : List UsageEntry} :
    (c.legEvents wire i leg rows).filterMap LaneEvent.sent? = wire.posted i (c.ask leg) := by
  unfold GeminiCall.legEvents
  rw [List.filterMap_append, LaneEvent.sends_sent, LaneEvent.sent_rows, List.append_nil]

theorem usage_legEvents {i : Nat} {leg : ChainLeg} {rows : List UsageEntry} (h : ∀ e ∈ rows, e.lane ≠ "guard") :
    (c.legEvents wire i leg rows).filterMap LaneEvent.usage? = rows := by
  unfold GeminiCall.legEvents
  rw [List.filterMap_append, LaneEvent.usage_sent, LaneEvent.usage_rows h, List.nil_append]

theorem sends_walkLegs (i : Nat) (last : Option (Nat × Bytes)) (legs : List ChainLeg) :
    (c.walkLegs serde wire uuid i last legs).sends =
      (c.attempted wire.passthroughRequest i legs).flatMap fun x => wire.posted x.1 (c.ask x.2) := by
  unfold LaneM.sends
  induction legs generalizing i last with
  | nil => rfl
  | cons leg legs ih =>
    obtain ⟨rows, out, ha, -, hw⟩ | ⟨last', ha, hw⟩ := walkLegs_cons serde wire uuid i last leg legs
    · rw [ha, hw, sends_legEvents, List.flatMap_singleton]
    · rw [ha, hw, List.filterMap_append, sends_legEvents, ih, List.flatMap_cons]

/-- An event of the legs. -/
def GeminiCall.LegEvent (c : GeminiCall) (uuid : Nat → String) : LaneEvent VertexCall → Prop
  | .classified _ => False
  | .sent _ => True
  | .row e => ∃ model, c.Writes uuid model e

theorem GeminiCall.LegEvent.not_guard {ev : LaneEvent VertexCall} (h : c.LegEvent uuid ev) : ¬ ev.IsGuard := by
  cases ev with
  | classified text => exact h.elim
  | sent call => exact id
  | row e =>
    obtain ⟨model, he⟩ := h
    exact he.lane

theorem legEvents_emits {i : Nat} {leg : ChainLeg} {rows : List UsageEntry}
    (h : ∀ e ∈ rows, c.Writes uuid leg.model e) : ∀ ev ∈ c.legEvents wire i leg rows, c.LegEvent uuid ev := by
  intro ev hev
  rcases List.mem_append.mp hev with hev | hev
  · obtain ⟨call, -, rfl⟩ := List.mem_map.mp hev
    trivial
  · obtain ⟨e, he, rfl⟩ := List.mem_map.mp hev
    exact ⟨leg.model, h e he⟩

theorem walkLegs_emits (i : Nat) (last : Option (Nat × Bytes)) (legs : List ChainLeg) :
    (c.walkLegs serde wire uuid i last legs).Emits (c.LegEvent uuid) := by
  unfold Trace.Emits
  induction legs generalizing i last with
  | nil =>
    intro ev hev
    cases hev
  | cons leg legs ih =>
    obtain ⟨rows, out, -, hwrites, hw⟩ | ⟨last', -, hw⟩ := walkLegs_cons serde wire uuid i last leg legs
    · obtain ⟨e, he, hrow⟩ := hwrites 0
      rw [hw]
      refine legEvents_emits fun e' he' => ?_
      have hmem : e' ∈ [e] := hrow ▸ List.mem_append_left _ he'
      rwa [List.mem_singleton.mp hmem]
    · rw [hw]
      intro ev hev
      rcases List.mem_append.mp hev with hev | hev
      · refine legEvents_emits (fun e' he' => ?_) ev hev
        rw [List.mem_singleton.mp he']
        exact errorRow_writes i leg.model
      · exact ih (i + 1) last' ev hev

/-- The rows of a walk are those of its attempted legs. -/
theorem usageRows_walkLegs (n i : Nat) (last : Option (Nat × Bytes)) (legs : List ChainLeg) :
    List.Forall₂ (fun x e => c.Writes uuid x.2.model e) (c.attempted wire.passthroughRequest i legs)
      (usageRows serde n (c.walkLegs serde wire uuid i last legs)) := by
  unfold usageRows
  induction legs generalizing i last with
  | nil => cases last <;> exact .nil
  | cons leg legs ih =>
    obtain ⟨rows, out, ha, hwrites, hw⟩ | ⟨last', ha, hw⟩ := walkLegs_cons serde wire uuid i last leg legs
    · obtain ⟨e, he, hrow⟩ := hwrites n
      rw [ha, hw, usage_legEvents (written_lane he hrow), hrow]
      exact .cons he .nil
    · have herror := @errorRow_writes c uuid i leg.model
      rw [ha, hw, List.filterMap_append,
        usage_legEvents (List.forall_mem_singleton.mpr herror.lane), List.append_assoc]
      exact .cons herror (ih (i + 1) last')

theorem streamRow_walkLegs {n i : Nat} {last : Option (Nat × Bytes)} {legs : List ChainLeg} {e : UsageEntry}
    (h : streamRow serde n (c.walkLegs serde wire uuid i last legs).result = some e) : ∃ model, c.Writes uuid model e := by
  have hmem : e ∈ usageRows serde n (c.walkLegs serde wire uuid i last legs) :=
    List.mem_append_right _ (by rw [h]; exact List.mem_singleton_self e)
  have hall := @usageRows_walkLegs serde c wire uuid n i last legs
  generalize c.attempted wire.passthroughRequest i legs = xs at hall
  generalize usageRows serde n (c.walkLegs serde wire uuid i last legs) = es at hmem hall
  induction hall with
  | nil => cases hmem
  | cons hx _ ih =>
    rcases List.mem_cons.mp hmem with rfl | hmem
    · exact ⟨_, hx⟩
    · exact ih hmem

theorem models_walkLegs (n i : Nat) (last : Option (Nat × Bytes)) (legs : List ChainLeg) :
    (usageRows serde n (c.walkLegs serde wire uuid i last legs)).map (·.model) =
      (c.attempted wire.passthroughRequest i legs).map (·.2.model) := by
  refine (List.forall₂_eq_eq_eq ▸ List.forall₂_map_left_iff.mpr (List.forall₂_map_right_iff.mpr ?_)).symm
  exact (usageRows_walkLegs n i last legs).imp fun x e he => he.model.symm

end

/-! ## The call -/

section
variable {serde : SerdeJson} {wire : VertexTransport} {uuid : Nat → String}
  {llm : LlmGuard} {eng : GuardEngine} {g : GeminiGateway} {ctx : RequestCtx} {req : GeminiRequest}
  {a : AdmittedGemini} {query : Option Text}

theorem GeminiCall.Writes.owned (huuid : uuid 0 ≠ "") {ids : Nat → String} {model : String} {e : UsageEntry}
    (h : (a.call g (ctx.stamped (uuid 0)) query).Writes ids model e) : (g.laneCtx uuid ctx).Owns e := by
  obtain ⟨i, u, hu, rfl⟩ := h
  rw [hu]
  exact ⟨rfl, stamped_resolved huuid (ids i), rfl⟩

theorem forwardOnce_streamRow (send : Nat → VertexCall → Except GatewayError VertexReply) (n : Nat) :
    streamRow serde n (a.forwardOnce send).outcome = none := by
  unfold AdmittedGemini.forwardOnce
  split
  · rfl
  · split <;> rfl

theorem calls_emits : (a.calls serde wire uuid g ctx query).Emits
    ((a.call g (ctx.stamped (uuid 0)) query).LegEvent fun i => uuid (i + 1)) := by
  unfold AdmittedGemini.calls
  by_cases hm : isMetered a.action = true
  · rw [if_pos hm]
    exact walkLegs_emits 0 none a.chain.legs
  · rw [if_neg hm]
    intro ev hev
    obtain ⟨call, -, rfl⟩ := List.mem_map.mp hev
    trivial

theorem calls_asks : a.Asks serde wire g (ctx.stamped (uuid 0)) query (a.calls serde wire uuid g ctx query) := by
  unfold AdmittedGemini.calls
  refine ⟨fun hm => ?_, fun hm => ?_⟩
  · rw [if_pos hm]
    exact ⟨sends_walkLegs 0 none a.chain.legs, fun n => models_walkLegs n 0 none a.chain.legs⟩
  · rw [if_neg (by simp [hm])]
    refine ⟨LaneEvent.sends_sent _, fun n => ?_⟩
    rw [usageRows, forwardOnce_streamRow, LaneEvent.usage_sent]
    rfl

theorem calls_streamRow (huuid : uuid 0 ≠ "") {n : Nat} {e : UsageEntry}
    (h : streamRow serde n (a.calls serde wire uuid g ctx query).result = some e) : (g.laneCtx uuid ctx).Owns e := by
  unfold AdmittedGemini.calls at h
  by_cases hm : isMetered a.action = true
  · rw [if_pos hm] at h
    obtain ⟨model, he⟩ := streamRow_walkLegs h
    exact he.owned huuid
  · rw [if_neg hm, forwardOnce_streamRow] at h
    cases h

/-! The guard comes first. -/

theorem addressGemini_unscreened (h : g.addressGemini req = .ok a) : a.body = req.body ∧ a.masked = false := by
  unfold GeminiGateway.addressGemini GeminiGateway.admitGemini at h
  split at h
  · split at h
    · cases h
    · obtain ⟨u, -, h⟩ := Fallible.of_bind_ok h
      simp only at h
      split at h
      · cases h
      · split at h
        · cases h
        · split at h
          · cases h
            exact ⟨rfl, rfl⟩
          · cases h
            exact ⟨rfl, rfl⟩
  · cases h

theorem screenLane_guard : (g.screenLane uuid llm eng ctx a).Emits (·.IsGuard) := by
  unfold GeminiGateway.screenLane
  split
  · exact Trace.emits_pure _ _
  · exact screenBodyLane_guard _ _ _

theorem screenLane_owned : (g.screenLane uuid llm eng ctx a).Emits
    fun ev => ∀ e, ev = .row e → (g.laneCtx uuid ctx).Owns e := by
  unfold GeminiGateway.screenLane
  split
  · exact Trace.emits_pure _ _
  · exact screenBodyLane_owned _ _ _

theorem streamRow_withGuardHeader (n : Nat) (masked : Bool) (r : Except GatewayError PassthroughOut) :
    streamRow serde n (r.map (PassthroughOut.withGuardHeader masked)) = streamRow serde n r := by
  cases r with
  | error e => rfl
  | ok out => cases out <;> rfl

/-- An addressed request ends with the guard's refusal, or is sent as the guard left it. -/
theorem geminiLane_cases (h : g.addressGemini req = .ok a) :
    (∃ e, (g.screenLane uuid llm eng ctx a).result = .error e ∧ g.geminiLane serde wire uuid llm eng ctx req =
        ⟨.error e, (g.screenLane uuid llm eng ctx a).events⟩) ∨
      ∃ s, (g.screenLane uuid llm eng ctx a).result = .ok s ∧
        g.geminiLane serde wire uuid llm eng ctx req =
          ⟨(({ a with body := s.1 : AdmittedGemini }.calls serde wire uuid g ctx req.query).result.map
              (PassthroughOut.withGuardHeader s.2)),
            (g.screenLane uuid llm eng ctx a).events ++
              ({ a with body := s.1 : AdmittedGemini }.calls serde wire uuid g ctx req.query).events⟩ := by
  unfold GeminiGateway.geminiLane
  rw [h, Trace.lift_bind_ok]
  cases hs : (g.screenLane uuid llm eng ctx a).result with
  | error e => exact .inl ⟨e, rfl, Trace.bind_of_error hs _⟩
  | ok s =>
    refine .inr ⟨s, rfl, ?_⟩
    rw [Trace.bind_of_ok hs, Trace.bind_pure]

theorem screenLane_refused (hcontent : a.action ∉ NON_CONTENT_ACTIONS) :
    (∃ e, (g.screenLane uuid llm eng ctx a).result = .error e) ↔
      eng.RejectsInTurn llm (g.routes.passthroughPolicies a.model) ((leavesFor a.action).read a.body) := by
  unfold GeminiGateway.screenLane
  rw [if_neg hcontent]
  exact (screenBodyLane_result _ _ _).1

theorem screenLane_body {s : Json × Bool} (h : (g.screenLane uuid llm eng ctx a).result = .ok s) :
    (a.action ∈ NON_CONTENT_ACTIONS → s.1 = a.body) ∧ (a.action ∉ NON_CONTENT_ACTIONS →
      LeavesBody llm eng a.action (g.routes.passthroughPolicies a.model) a.body s.1) := by
  unfold GeminiGateway.screenLane at h
  by_cases hcontent : a.action ∈ NON_CONTENT_ACTIONS
  · rw [if_pos hcontent] at h
    cases h
    exact ⟨fun _ => rfl, fun hn => absurd hcontent hn⟩
  · rw [if_neg hcontent] at h
    exact ⟨fun hp => absurd hp hcontent, fun _ => (screenBodyLane_result _ _ _).2 s h⟩

/-- A call that the guard refused has neither sent nor written anything of its own. -/
theorem refused_silent {x : LaneM VertexCall PassthroughOut} {e : GatewayError} (hr : x.result = .error e)
    (hg : x.Emits (·.IsGuard)) (n : Nat) : x.sends = [] ∧ usageRows serde n x = [] := by
  unfold LaneM.sends usageRows
  rw [LaneEvent.filterMap_guard (fun _ h => h.sent) hg, LaneEvent.filterMap_guard (fun _ h => h.usage) hg, hr]
  exact ⟨rfl, rfl⟩

theorem guarded_owned (huuid : uuid 0 ≠ "") {e : UsageEntry} {legs : List (LaneEvent VertexCall)} {ids : Nat → String}
    (hlegs : ∀ ev ∈ legs, (a.call g (ctx.stamped (uuid 0)) query).LegEvent ids ev) {b : AdmittedGemini}
    (he : e ∈ ((g.screenLane uuid llm eng ctx b).events ++ legs).filterMap LaneEvent.row?) :
    (g.laneCtx uuid ctx).Owns e := by
  obtain ⟨ev, hev, hrow⟩ := List.mem_filterMap.mp he
  cases ev with
  | row e' =>
    cases hrow
    rcases List.mem_append.mp hev with hev | hev
    · exact screenLane_owned _ hev e rfl
    · obtain ⟨model, hwrites⟩ := hlegs _ hev
      exact hwrites.owned huuid
  | classified text => cases hrow
  | sent call => cases hrow

/-- The guard refused the request. -/
theorem refused_kept (huuid : uuid 0 ≠ "") (h : g.addressGemini req = .ok a) {e : GatewayError}
    (hs : (g.screenLane uuid llm eng ctx a).result = .error e) :
    GeminiKept serde wire uuid llm eng g ctx req ⟨.error e, (g.screenLane uuid llm eng ctx a).events⟩ := by
  have hguard : ∀ ev ∈ (g.screenLane uuid llm eng ctx a).events, ev.IsGuard := screenLane_guard
  have hsilent := fun n => @refused_silent serde ⟨.error e, (g.screenLane uuid llm eng ctx a).events⟩ e rfl hguard n
  refine ⟨fun e' h' => ?_, ?_, fun n e' he => ?_,
    fun b hb hcontent hrej => ⟨⟨e, rfl⟩, hguard, fun n => (hsilent n).2⟩, fun b hb hpass => ?_⟩
  · rw [h] at h'
    cases h'
  · exact List.pairwise_of_forall_mem_list fun ev hev _ _ _ => hguard ev hev
  · refine @guarded_owned uuid llm eng g ctx a none huuid e' [] (fun _ => "") (fun ev hev => by cases hev) a ?_
    simpa [streamRow] using he
  · obtain rfl := Except.ok.inj (h.symm.trans hb)
    by_cases hcontent : a.action ∈ NON_CONTENT_ACTIONS
    · unfold GeminiGateway.screenLane at hs
      rw [if_pos hcontent] at hs
      cases hs
    · have hrej := (screenLane_refused hcontent).mp ⟨e, hs⟩
      rw [(addressGemini_unscreened h).1] at hrej
      exact absurd hrej (hpass hcontent)

theorem sends_append {r : Except GatewayError PassthroughOut} {guards : List (LaneEvent VertexCall)}
    {x : LaneM VertexCall PassthroughOut} (hg : ∀ ev ∈ guards, ev.IsGuard) : LaneM.sends ⟨r, guards ++ x.events⟩ = x.sends := by
  unfold LaneM.sends
  rw [List.filterMap_append, LaneEvent.filterMap_guard (fun _ h => h.sent) hg, List.nil_append]

theorem usageRows_append {n : Nat} {masked : Bool} {guards : List (LaneEvent VertexCall)}
    {x : LaneM VertexCall PassthroughOut} (hg : ∀ ev ∈ guards, ev.IsGuard) :
    usageRows serde n ⟨x.result.map (PassthroughOut.withGuardHeader masked), guards ++ x.events⟩ =
      usageRows serde n x := by
  unfold usageRows
  rw [List.filterMap_append, LaneEvent.filterMap_guard (fun _ h => h.usage) hg, List.nil_append, streamRow_withGuardHeader]

theorem AdmittedGemini.Asks.append {ctx : RequestCtx} {masked : Bool} {guards : List (LaneEvent VertexCall)}
    {x : LaneM VertexCall PassthroughOut} (h : a.Asks serde wire g ctx query x) (hg : ∀ ev ∈ guards, ev.IsGuard) :
    a.Asks serde wire g ctx query ⟨x.result.map (PassthroughOut.withGuardHeader masked), guards ++ x.events⟩ := by
  constructor
  · intro hm
    rw [sends_append hg]
    exact ⟨(h.metered hm).1, fun n => by rw [usageRows_append hg]; exact (h.metered hm).2 n⟩
  · intro hm
    rw [sends_append hg]
    exact ⟨(h.once hm).1, fun n => by rw [usageRows_append hg]; exact (h.once hm).2 n⟩

/-- The guard let the request pass. -/
theorem passed_kept (huuid : uuid 0 ≠ "") (h : g.addressGemini req = .ok a) {s : Json × Bool}
    (hs : (g.screenLane uuid llm eng ctx a).result = .ok s) {x : LaneM VertexCall PassthroughOut}
    (hx : x = { a with body := s.1 : AdmittedGemini }.calls serde wire uuid g ctx req.query) :
    GeminiKept serde wire uuid llm eng g ctx req
      ⟨x.result.map (PassthroughOut.withGuardHeader s.2), (g.screenLane uuid llm eng ctx a).events ++ x.events⟩ := by
  have hguard : ∀ ev ∈ (g.screenLane uuid llm eng ctx a).events, ev.IsGuard := screenLane_guard
  have hlegs : ∀ ev ∈ x.events,
      ({ a with body := s.1 : AdmittedGemini }.call g (ctx.stamped (uuid 0)) req.query).LegEvent
        (fun i => uuid (i + 1)) ev := by
    rw [hx]
    exact calls_emits
  refine ⟨fun e' h' => ?_, LaneEvent.pairwise_guard hguard fun ev hev => (hlegs ev hev).not_guard, fun n e' he => ?_,
    fun b hb hcontent hrej => ?_, fun b hb hpass => ⟨s.1, ?_⟩⟩
  · rw [h] at h'
    cases h'
  · rcases List.mem_append.mp he with he | he
    · exact guarded_owned huuid hlegs he
    · rw [streamRow_withGuardHeader, hx] at he
      exact calls_streamRow huuid (Option.mem_toList.mp he)
  · obtain rfl := Except.ok.inj (h.symm.trans hb)
    rw [← (addressGemini_unscreened h).1, ← screenLane_refused hcontent] at hrej
    obtain ⟨e, he⟩ := hrej
    rw [hs] at he
    cases he
  · obtain rfl := Except.ok.inj (h.symm.trans hb)
    obtain ⟨hplain, hleft⟩ := screenLane_body hs
    rw [(addressGemini_unscreened h).1] at hplain hleft
    exact ⟨hplain, hleft, (hx ▸ calls_asks).append hguard⟩

/-- What every call of the Gemini passthrough keeps to. -/
theorem gemini_call_kept (serde : SerdeJson) (wire : VertexTransport) {uuid : Nat → String} (huuid : uuid 0 ≠ "")
    (llm : LlmGuard) (eng : GuardEngine) (g : GeminiGateway)
    (ctx : RequestCtx) (req : GeminiRequest) :
    GeminiKept serde wire uuid llm eng g ctx req (g.geminiLane serde wire uuid llm eng ctx req) := by
  cases h : g.addressGemini req with
  | ok a =>
    obtain ⟨e, hs, hx⟩ | ⟨s, hs, hx⟩ := @geminiLane_cases serde wire uuid llm eng g ctx req a h
    · rw [hx]
      exact refused_kept huuid h hs
    · rw [hx]
      exact passed_kept huuid h hs rfl
  | error e =>
    have hx : g.geminiLane serde wire uuid llm eng ctx req = ⟨.error e, []⟩ := by
      unfold GeminiGateway.geminiLane
      rw [h]
      rfl
    rw [hx]
    refine ⟨fun e' h' => ?_, .nil, fun n e' he => ?_, fun a ha => ?_, fun a ha => ?_⟩
    · rw [Except.error.inj (h'.symm.trans h)]
    · cases he
    all_goals
      rw [h] at ha
      cases ha

/-- Every token comes, and every answer is empty. -/
def flashWire : VertexTransport := ⟨fun _ => .ok (), fun _ _ => .ok ⟨200, none, []⟩⟩

theorem flash_call_kept : ∃ x, x = flashGateway.geminiLane (tableSerde []) flashWire (fun _ => "req-1")
      substringGuard ⟨[]⟩ {} (streamRequest none) ∧
    GeminiKept (tableSerde []) flashWire (fun _ => "req-1") substringGuard ⟨[]⟩ flashGateway {} (streamRequest none) x ∧
      x.sends.map (·.model) = ["gemini-2.5-flash"] :=
  ⟨_, rfl, gemini_call_kept _ _ (by decide) _ _ _ _ _, rfl⟩

end

/-! ## The lane and the plain run -/

/-- A lane's run without the guard's part. -/
def LaneM.passthroughRun (x : LaneM VertexCall PassthroughOut) : PassthroughRun where
  rows := x.events.filterMap LaneEvent.usage?
  out := match x.result with
    | .error e => .failed e
    | .ok out => out

section
variable {serde : SerdeJson} {wire : VertexTransport} {uuid : Nat → String} {llm : LlmGuard} {eng : GuardEngine}
  {g : GeminiGateway} {ctx : RequestCtx} {req : GeminiRequest}

theorem outcome_passthroughRun (out : PassthroughOut) (events : List (LaneEvent VertexCall)) :
    LaneM.passthroughRun ⟨out.outcome, events⟩ = ⟨events.filterMap LaneEvent.usage?, out⟩ := by
  cases out <;> rfl

theorem walkLegs_passthroughRun (c : GeminiCall) (i : Nat) (last : Option (Nat × Bytes)) (legs : List ChainLeg) :
    (c.walkLegs serde wire uuid i last legs).passthroughRun =
      c.forwardGeminiLegs serde wire.passthroughRequest uuid i last legs := by
  induction legs generalizing i last with
  | nil => exact outcome_passthroughRun _ _
  | cons leg legs ih =>
    have hlane := @answered_lane serde c uuid (wire.passthroughRequest i (c.ask leg)) i last leg (!legs.isEmpty)
    obtain ⟨⟨rows, step⟩, hr⟩ : ∃ r, c.answered serde uuid i last leg (!legs.isEmpty)
      (wire.passthroughRequest i (c.ask leg)) = r := ⟨_, rfl⟩
    rw [hr] at hlane
    cases step with
    | ends out =>
      rw [walkLegs_ends hr, forwardGeminiLegs_ends hr, outcome_passthroughRun, usage_legEvents hlane]
    | next failure =>
      rw [walkLegs_next hr, forwardGeminiLegs_next hr, ← ih]
      show PassthroughRun.mk _ _ = _
      rw [List.filterMap_append, usage_legEvents hlane]
      rfl

theorem screenBodyLane_plain {κ : Type} {c : LaneCtx} {action routeAlias : String} (policies : List String) (body : Json)
    (masked : Bool) : (eng.screenBodyLane llm c action routeAlias policies body masked : LaneM κ _).result =
      screenUnder llm eng action policies body masked := by
  induction policies generalizing body masked with
  | nil => rfl
  | cons policy policies ih =>
    have hscreen : eng.screen llm policy .passthrough [(leavesFor action).read body] = _ := screen_eq_screenRun
    unfold GuardEngine.screenBodyLane screenUnder screenBody
    rw [hscreen]
    cases hout : (eng.screenRun llm policy .passthrough [(leavesFor action).read body]).screened.outcome with
    | error e =>
      have hresult : (eng.guardLane llm c routeAlias (some policy) .passthrough [(leavesFor action).read body] :
          LaneM κ _).result = .error e := congrArg (Except.map _) hout
      rw [Trace.bind_of_error hresult]
      simp only [hout]
    | ok d =>
      have hresult : (eng.guardLane llm c routeAlias (some policy) .passthrough [(leavesFor action).read body] :
          LaneM κ _).result = .ok (_, d) := congrArg (Except.map _) hout
      rw [Trace.bind_of_ok hresult]
      simp only [hout]
      exact ih _ _

theorem admitGemini_eq (screen : (model route action : String) → Json → Except GatewayError (Json × Bool)) :
    g.admitGemini screen req = (g.addressGemini req).bind fun a =>
      if a.action ∈ NON_CONTENT_ACTIONS then .ok a
      else (screen a.model (a.chain.route.getD a.model) a.action a.body).map fun s =>
        { a with body := s.1, masked := s.2 } := by
  unfold GeminiGateway.addressGemini GeminiGateway.admitGemini
  split
  · split
    · rfl
    · rename_i modelText actionText _
      cases checkModelAction modelText actionText with
      | error e => rfl
      | ok u =>
        show ite _ _ _ = Except.bind (ite _ _ _) _
        split
        · rfl
        · split
          · rfl
          · split
            · rename_i hcontent
              exact (if_pos hcontent).symm
            · rename_i hcontent
              refine Eq.trans ?_ (if_neg hcontent).symm
              cases screen _ _ _ _ <;> rfl
  · rfl

theorem screenLane_plain (a : AdmittedGemini) : (g.screenLane uuid llm eng ctx a).result =
    if a.action ∈ NON_CONTENT_ACTIONS then .ok (a.body, false)
    else screenGemini llm eng g.routes a.model a.action a.body := by
  unfold GeminiGateway.screenLane
  split
  · rfl
  · exact screenBodyLane_plain _ _ _

theorem calls_passthroughRun (a : AdmittedGemini) (query : Option Text) :
    (a.calls serde wire uuid g ctx query).passthroughRun =
      if isMetered a.action then (a.call g (ctx.stamped (uuid 0)) query).forwardGeminiLegs serde wire.passthroughRequest
        (fun i => uuid (i + 1)) 0 none a.chain.legs
      else ⟨[], a.forwardOnce wire.passthroughRequest⟩ := by
  unfold AdmittedGemini.calls
  split
  · exact walkLegs_passthroughRun _ 0 none a.chain.legs
  · exact (outcome_passthroughRun _ _).trans (by rw [LaneEvent.usage_sent])

theorem passthroughRun_append {guards : List (LaneEvent VertexCall)} {x : LaneM VertexCall PassthroughOut} {masked : Bool}
    (hg : ∀ ev ∈ guards, ev.IsGuard) :
    LaneM.passthroughRun ⟨x.result.map (PassthroughOut.withGuardHeader masked), guards ++ x.events⟩ =
      { x.passthroughRun with out := x.passthroughRun.out.withGuardHeader masked } := by
  unfold LaneM.passthroughRun
  rw [List.filterMap_append, LaneEvent.filterMap_guard (fun _ h => h.usage) hg]
  cases x.result <;> rfl

theorem admitGemini_screened {a : AdmittedGemini} (h : g.addressGemini req = .ok a) :
    g.admitGemini (fun model _ action body => screenGemini llm eng g.routes model action body) req =
      (g.screenLane uuid llm eng ctx a).result.map fun s => { a with body := s.1, masked := s.2 } := by
  rw [admitGemini_eq, h, screenLane_plain]
  show ite _ _ _ = _
  split
  · obtain ⟨model, action, chain, first, body, masked⟩ := a
    obtain ⟨-, rfl⟩ := addressGemini_unscreened h
    rfl
  · rfl

/-- The lane forwards the request as it is forwarded without the guard's rows. -/
theorem forwardGemini_lane : g.forwardGemini serde
      (fun model _ action body => screenGemini llm eng g.routes model action body) wire.passthroughRequest uuid ctx req =
    (g.geminiLane serde wire uuid llm eng ctx req).passthroughRun := by
  unfold GeminiGateway.forwardGemini
  cases h : g.addressGemini req with
  | error e =>
    rw [admitGemini_eq, h]
    unfold GeminiGateway.geminiLane
    rw [h]
    rfl
  | ok a =>
    rw [@admitGemini_screened uuid llm eng g ctx req a h]
    obtain ⟨e, hs, hx⟩ | ⟨s, hs, hx⟩ := @geminiLane_cases serde wire uuid llm eng g ctx req a h
    · rw [hx, hs]
      unfold LaneM.passthroughRun
      rw [LaneEvent.filterMap_guard (fun _ h => h.usage) screenLane_guard]
      rfl
    · rw [hx, hs, passthroughRun_append screenLane_guard, calls_passthroughRun]
      simp only [Except.map]
      split <;> rfl

end

end SynapseGateway
