import SynapseGateway.GuardLane
import SynapseGateway.JevLane
import SynapseGateway.PassthroughSound
import SynapseGateway.StreamAgree

/-!
# The Jev passthrough

A System One body is forwarded as it came but for its masked leaves and a model
where it names none, in one call. The row of a call is written when its guard is
dropped, however the call ends.
-/

namespace SynapseGateway

open Traversal (Fields)
open Utf8 (Text)

/-! ## The lane -/

/-- The body of an answer: the client may go away, or the read may fail. -/
inductive JevBodyRead where
  | left
  | failed (message : String)
  | bytes (bs : Bytes)

/-- What becomes of the call to System One. -/
inductive JevSent where
  | left
  | failed (message : String)
  | answered (status : Nat) (body : JevBodyRead)

structure JevGateway extends GeminiGateway where
  jevNative : Bool

def jevText : Fields String Json Text :=
  (Fields.member "state" stringLeaves).and (Fields.member "questions" stringLeaves) (by decide)

/-- One segment for a System One body: every string leaf of `state` and `questions`. -/
def jevLeaves : Traversal Json Text := asObjectMut jevText.toTraversal

def isObject : Json → Bool
  | .object _ => true
  | _ => false

/-- The body with the default model where it names none. A `null` is a name. -/
def withModel (body : Json) : Json :=
  match body.get? "model" with
  | none => body.set "model" (str DEFAULT_MODEL)
  | some _ => body

/-- The model on the rows. -/
def modelOf (body : Json) : String := (((body.key "model").asStr).map String.ofList).getD DEFAULT_MODEL

section
variable (serde : SerdeJson) (sent : JevSent) (g : JevGateway)

def JevGateway.usageGuard (ctx : RequestCtx) (uuid model : String) : PassthroughUsageGuard :=
  .new g.toGeminiGateway ctx uuid model none "typesafe" "systemone"

/-- What the guard has when it is dropped, and what the client gets: nothing when it has gone. -/
def JevSent.settle (u : PassthroughUsageGuard) : PassthroughUsageGuard × Except GatewayError (Option PassthroughOut) :=
  match sent with
  | .left => (u, .ok none)
  | .failed message => ({ u with status := "error" }, .error (.upstream 502 message))
  | .answered status body =>
    let answer bytes : PassthroughOut := .buffered ⟨status, "application/json", none, none, none⟩ bytes
    if isSuccess status then
      match body with
      | .left => (u, .ok none)
      | .failed message => ({ u with status := "error" }, .error (.upstream 502 message))
      | .bytes bs => (u.observeBody serde bs, .ok (some (answer bs)))
    else
      match body with
      | .left => (u, .ok none)
      -- a body that cannot be read is an empty one
      | .failed _ => ({ u with status := "error" }, .ok (some (answer [])))
      | .bytes bs => ({ u with status := "error" }, .ok (some (answer bs)))

def JevGateway.forwardJev (ctx : RequestCtx) (uuid model : String) (body : Json) : LaneM Json (Option PassthroughOut) :=
  let settled := sent.settle serde (g.usageGuard ctx uuid model)
  ⟨settled.2, [.sent body, .row settled.1.row]⟩

def JevGateway.laneCtx (ctx : RequestCtx) (uuid : String) : LaneCtx where
  tenant := ctx.tenant.getD g.defaultTenant
  attribution := ctx.attributionOf g.taskTypeOf
  requestId := ctx.requestIdOr uuid

/-- `uuid 0` stamps the request and `uuid 1` is there for its row. -/
def JevGateway.jevPassthrough (llm : LlmGuard) (eng : GuardEngine) (uuid : Nat → String) (ctx : RequestCtx) (body : Json) :
    LaneM Json (Option PassthroughOut) :=
  if !g.jevNative then .fail (.badRequest "jev passthrough requires TYPESAFE_API_KEY to be configured")
  else if !isObject body then .fail (.badRequest "expected a JSON object body")
  else do
    let body := withModel body
    let screened ← eng.guardLane llm (g.laneCtx ctx (uuid 0)) (modelOf body) none .jev [jevLeaves.read body]
    let out ← g.forwardJev serde sent (ctx.stamped (uuid 0)) (uuid 1) (modelOf body)
      (jevLeaves.write body (screened.1.headD []))
    pure (out.map (PassthroughOut.withGuardHeader screened.2))

end

/-! ## What a call keeps to -/

/-- The call failed, as its row says: it was not sent, or was answered with an
error status, or the body of its success could not be read. -/
def JevSent.Failed : JevSent → Prop
  | .left => False
  | .failed _ => True
  | .answered status body =>
    match body with
    | .left => False
    | .failed _ => True
    | .bytes _ => isSuccess status = false

/-- The counts of a success. -/
def JevSent.counts (serde : SerdeJson) : JevSent → Nat × Nat
  | .answered status (.bytes bs) =>
    match isSuccess status, serde.fromSlice bs with
    | true, .ok v =>
      ((usageCount "usageMetadata" "promptTokenCount" v).getD ((usageCount "usage" "input_tokens" v).getD 0),
        (usageCount "usageMetadata" "candidatesTokenCount" v).getD ((usageCount "usage" "output_tokens" v).getD 0))
    | _, _ => (0, 0)
  | _ => (0, 0)

/-- The one row of a call. -/
structure JevRow (serde : SerdeJson) (sent : JevSent) (c : LaneCtx) (model : String) (e : UsageEntry) : Prop where
  owned : c.Owns e
  route : e.route = model
  provider : e.provider = "typesafe"
  model : e.model = model
  lane : e.lane = "passthrough"
  op : e.op = "systemone"
  status : (e.status = "error" ∧ sent.Failed) ∨ (e.status = "ok" ∧ ¬ sent.Failed)
  counts : (e.inputTokens, e.outputTokens) = sent.counts serde

/-- The body that is sent: what the guard leaves of the texts, written into the body
as it came, with a model. -/
structure JevForwards (llm : LlmGuard) (eng : GuardEngine) (body sentBody : Json) : Prop where
  written : sentBody = jevLeaves.write (withModel body) (eng.leaves llm "default" (jevLeaves.read body))
  leaves : jevLeaves.read sentBody = eng.leaves llm "default" (jevLeaves.read body)
  rest : ∀ k, k ≠ "state" → k ≠ "questions" → k ≠ "model" → sentBody.get? k = body.get? k
  model : sentBody.get? "model" = some ((body.get? "model").getD (str DEFAULT_MODEL))

structure JevKept (serde : SerdeJson) (sent : JevSent) (llm : LlmGuard) (eng : GuardEngine) (g : JevGateway)
    (c : LaneCtx) (body : Json) (x : LaneM Json (Option PassthroughOut)) : Prop where
  refused : g.jevNative = false ∨ isObject body = false → (∃ message, x = ⟨.error (.badRequest message), []⟩)
  rejected : g.jevNative = true → isObject body = true → eng.RejectsSegment llm "default" (jevLeaves.read body) →
    (∃ e, x.result = .error e) ∧ x.Emits (·.IsGuard)
  forwarded : g.jevNative = true → isObject body = true → ¬ eng.RejectsSegment llm "default" (jevLeaves.read body) →
    ∃ guards sentBody row, x.events = guards ++ [.sent sentBody, .row row] ∧ (∀ ev ∈ guards, ev.IsGuard) ∧
      JevForwards llm eng body sentBody ∧ JevRow serde sent c (modelOf (withModel body)) row ∧
      ((∃ e, x.result = .error e) → row.status = "error")
  owned : ∀ e, .row e ∈ x.events → c.Owns e

section
variable {serde : SerdeJson} {sent : JevSent} {llm : LlmGuard} {eng : GuardEngine} {g : JevGateway} {ctx : RequestCtx}
  {uuid : Nat → String} {body : Json}

theorem settle_row (u : PassthroughUsageGuard) (hu : u.status = "ok") (hin : u.inputTokens = 0) (hout : u.outputTokens = 0) :
    ∃ status, (sent.settle serde u).1 =
        { u with inputTokens := (sent.counts serde).1, outputTokens := (sent.counts serde).2, status := status } ∧
      ((status = "error" ∧ sent.Failed) ∨ (status = "ok" ∧ ¬ sent.Failed)) := by
  have hsame : ∀ status, { u with status := status } =
      { u with inputTokens := 0, outputTokens := 0, status := status } := by
    intro status
    rw [hin, hout]
  have hself : u = { u with inputTokens := 0, outputTokens := 0, status := "ok" } := by
    rw [← hsame, ← hu]
  cases sent with
  | left => exact ⟨"ok", hself, .inr ⟨rfl, id⟩⟩
  | failed message => exact ⟨"error", hsame _, .inl ⟨rfl, trivial⟩⟩
  | answered status body =>
    cases hsucc : isSuccess status with
    | false =>
      simp only [JevSent.settle, hsucc, Bool.false_eq_true, if_false]
      cases body with
      | left => exact ⟨"ok", hself, .inr ⟨rfl, id⟩⟩
      | failed message => exact ⟨"error", hsame _, .inl ⟨rfl, trivial⟩⟩
      | bytes bs =>
        refine ⟨"error", ?_, .inl ⟨rfl, hsucc⟩⟩
        simp only [JevSent.counts, hsucc]
        exact hsame _
    | true =>
      simp only [JevSent.settle, hsucc, if_true]
      have hkept : ∀ bs, ¬ (JevSent.answered status (.bytes bs)).Failed := fun bs h => by simp [JevSent.Failed, hsucc] at h
      cases body with
      | left => exact ⟨"ok", hself, .inr ⟨rfl, id⟩⟩
      | failed message => exact ⟨"error", hsame _, .inl ⟨rfl, trivial⟩⟩
      | bytes bs =>
        refine ⟨"ok", ?_, .inr ⟨rfl, hkept bs⟩⟩
        simp only [JevSent.counts, hsucc, PassthroughUsageGuard.observeBody]
        cases serde.fromSlice bs with
        | error e => exact hself
        | ok v => simp only [PassthroughUsageGuard.observeUsageMetadata, hin, hout, hu]

theorem settle_error (u : PassthroughUsageGuard) {e : GatewayError} (h : (sent.settle serde u).2 = .error e) :
    (sent.settle serde u).1.status = "error" := by
  unfold JevSent.settle at h ⊢
  cases sent with
  | left => cases h
  | failed message => rfl
  | answered status body =>
    simp only at h ⊢
    split at h
    · rename_i hsucc
      rw [if_pos hsucc]
      cases body with
      | left => cases h
      | failed message => rfl
      | bytes bs => cases h
    · cases body <;> cases h

theorem forwardJev_row (huuid : uuid 0 ≠ "") (model : String) :
    JevRow serde sent (g.laneCtx ctx (uuid 0)) model
      (sent.settle serde (g.usageGuard (ctx.stamped (uuid 0)) (uuid 1) model)).1.row := by
  obtain ⟨status, hu, hstatus⟩ :=
    @settle_row serde sent (g.usageGuard (ctx.stamped (uuid 0)) (uuid 1) model) rfl rfl rfl
  rw [hu]
  exact ⟨⟨rfl, stamped_resolved huuid (uuid 1), rfl⟩, rfl, rfl, rfl, rfl, rfl, hstatus, rfl⟩

/-! ## The body -/

theorem withModel_object (h : isObject body = true) : isObject (withModel body) = true := by
  unfold withModel
  split
  · rfl
  · exact h

theorem withModel_get? {k : String} (hk : k ≠ "model") : (withModel body).get? k = body.get? k := by
  unfold withModel
  split
  · show (Json.insertMember "model" _ body.membersOf).lookup k = _
    rw [Json.lookup_insertMember_ne hk]
    cases body <;> rfl
  · rfl

theorem withModel_model : (withModel body).get? "model" = some ((body.get? "model").getD (str DEFAULT_MODEL)) := by
  unfold withModel
  cases h : body.get? "model" with
  | none => exact Json.lookup_insertMember _ _ _
  | some v => exact h

theorem jevLeaves_read_congr {v w : Json} (hv : isObject v = true) (hw : isObject w = true)
    (hstate : v.get? "state" = w.get? "state") (hquestions : v.get? "questions" = w.get? "questions") :
    jevLeaves.read v = jevLeaves.read w := by
  cases v with
  | object ms =>
    cases w with
    | object ms' =>
      refine jevText.reads fun k hk => ?_
      rcases List.mem_cons.mp hk with rfl | hk
      · exact hstate
      · obtain rfl := List.mem_singleton.mp hk
        exact hquestions
    | _ => cases hw
  | _ => cases hv

theorem jevLeaves_write_get? {k : String} (hstate : k ≠ "state") (hquestions : k ≠ "questions") (v : Json)
    (ts : List Text) : (jevLeaves.write v ts).get? k = v.get? k := by
  cases v with
  | object ms =>
    have hkeys : k ∉ jevText.keys := by simp [jevText, Fields.and, Fields.member, hstate, hquestions]
    exact jevText.frame hkeys ms ts
  | _ => rfl

theorem jevForwards (h : isObject body = true) : JevForwards llm eng body
    (jevLeaves.write (withModel body) (eng.leaves llm "default" (jevLeaves.read (withModel body)))) := by
  have hread : jevLeaves.read (withModel body) = jevLeaves.read body :=
    jevLeaves_read_congr (withModel_object h) h (withModel_get? (by decide)) (withModel_get? (by decide))
  constructor
  · rw [hread]
  · rw [jevLeaves.read_write _ _ (shownLeaves_length llm eng "default" _), hread]
  · intro k hstate hquestions hmodel
    rw [jevLeaves_write_get? hstate hquestions, withModel_get? hmodel]
  · rw [jevLeaves_write_get? (by decide) (by decide), withModel_model]

/-! ## The call -/

theorem forwarded_kept {masked : Bool} {guards : List (LaneEvent Json)} (huuid : uuid 0 ≠ "") (hnative : g.jevNative = true)
    (hobject : isObject body = true) (hpass : ¬ eng.RejectsSegment llm "default" (jevLeaves.read body))
    (hguards : ∀ ev ∈ guards, ev.IsGuard) (howned : ∀ e, .row e ∈ guards → (g.laneCtx ctx (uuid 0)).Owns e)
    {sentBody : Json} (hsent : JevForwards llm eng body sentBody) :
    JevKept serde sent llm eng g (g.laneCtx ctx (uuid 0)) body
      ⟨(g.forwardJev serde sent (ctx.stamped (uuid 0)) (uuid 1) (modelOf (withModel body)) sentBody).result.map
          (Option.map (PassthroughOut.withGuardHeader masked)),
        guards ++ (g.forwardJev serde sent (ctx.stamped (uuid 0)) (uuid 1) (modelOf (withModel body)) sentBody).events⟩ := by
  have hrow := @forwardJev_row serde sent g ctx uuid huuid (modelOf (withModel body))
  refine ⟨fun h => ?_, fun _ _ h => absurd h hpass, fun _ _ _ => ?_, fun e he => ?_⟩
  · rw [hnative, hobject] at h
    simp at h
  · refine ⟨guards, sentBody, _, rfl, hguards, hsent, hrow, fun ⟨e, he⟩ => ?_⟩
    exact settle_error _ (Fallible.of_map_error he)
  · rcases List.mem_append.mp he with he | he
    · exact howned e he
    · rcases List.mem_cons.mp he with he | he
      · cases he
      · cases List.mem_singleton.mp he
        exact hrow.owned

/-- What every call of the Jev passthrough keeps to. -/
theorem jev_call_kept (serde : SerdeJson) (sent : JevSent) (llm : LlmGuard) (eng : GuardEngine) (g : JevGateway)
    {uuid : Nat → String} (huuid : uuid 0 ≠ "") (ctx : RequestCtx) (body : Json) :
    JevKept serde sent llm eng g (g.laneCtx ctx (uuid 0)) body
      (g.jevPassthrough serde sent llm eng uuid ctx body) := by
  have refused : ∀ message, (g.jevNative = false ∨ isObject body = false) →
      JevKept serde sent llm eng g (g.laneCtx ctx (uuid 0)) body (.fail (.badRequest message)) := by
    intro message h
    refine ⟨fun _ => ⟨message, rfl⟩, fun hnative hobject _ => ?_, fun hnative hobject _ => ?_, fun e he => by cases he⟩
    all_goals
      rw [hnative, hobject] at h
      simp at h
  unfold JevGateway.jevPassthrough
  cases hnative : g.jevNative with
  | false => exact refused _ (.inl hnative)
  | true =>
    cases hobject : isObject body with
    | false => exact refused _ (.inr hobject)
    | true =>
      simp only [Bool.not_true, Bool.false_eq_true, if_false]
      have hread : jevLeaves.read (withModel body) = jevLeaves.read body :=
        jevLeaves_read_congr (withModel_object hobject) hobject (withModel_get? (by decide)) (withModel_get? (by decide))
      have hrejects := @guardLane_error_iff llm eng (g.laneCtx ctx (uuid 0)) (modelOf (withModel body)) none .jev
        [jevLeaves.read (withModel body)] Json
      rw [hread] at hrejects ⊢
      have hguards := @guardLane_guard llm eng (g.laneCtx ctx (uuid 0)) (modelOf (withModel body)) none .jev
        [jevLeaves.read body] Json
      have howned : ∀ e, .row e ∈ (eng.guardLane llm (g.laneCtx ctx (uuid 0)) (modelOf (withModel body)) none .jev
          [jevLeaves.read body] : LaneM Json _).events → (g.laneCtx ctx (uuid 0)).Owns e := fun e => guardLane_owned
      cases hresult : (eng.guardLane llm (g.laneCtx ctx (uuid 0)) (modelOf (withModel body)) none .jev
          [jevLeaves.read body] : LaneM Json _).result with
      | error e =>
        rw [Trace.bind_of_error hresult]
        refine ⟨fun h => ?_, fun _ _ _ => ⟨⟨e, rfl⟩, hguards⟩, fun _ _ h => absurd (hrejects.mp ⟨e, hresult⟩) h, howned⟩
        rw [hnative, hobject] at h
        simp at h
      | ok screened =>
        rw [Trace.bind_of_ok hresult]
        have hpass : ¬ eng.RejectsSegment llm "default" (jevLeaves.read body) := fun h => by
          obtain ⟨e, he⟩ := hrejects.mpr h
          rw [hresult] at he
          cases he
        have hleaves : screened.1.headD [] = eng.leaves llm "default" (jevLeaves.read (withModel body)) := by
          rw [guardLane_ok hresult, hread]
          rfl
        rw [hleaves, Trace.bind_pure]
        exact forwarded_kept huuid hnative hobject hpass hguards howned (jevForwards hobject)

def jevGateway : JevGateway where
  vertexNative := false
  routes := ⟨[], [], [], []⟩
  jevNative := true

/-- Names no model and has one leaf. -/
def tableBody : Json := .object [("state", str "Table 7 is free.")]

theorem table_call_kept : ∃ x, x = jevGateway.jevPassthrough (tableSerde []) (.answered 200 (.bytes [])) substringGuard ⟨[]⟩
      (fun _ => "req-1") {} tableBody ∧
    JevKept (tableSerde []) (.answered 200 (.bytes [])) substringGuard ⟨[]⟩ jevGateway
      (jevGateway.laneCtx {} "req-1") tableBody x ∧
    x.sends.length = 1 :=
  ⟨_, rfl, @jev_call_kept _ _ _ _ _ (fun _ => "req-1") (by decide) _ _, rfl⟩

end

end SynapseGateway
