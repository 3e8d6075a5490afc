import SynapseGateway.Ledger
import SynapseGateway.Lib.Trace
import SynapseGateway.PassthroughScreen

/-!
# Guarded lanes

Every lane screens its text before it sends any of it, and the guard writes its
row with what the lane's own rows have. A lane is a run that leaves what it
sends and writes, in order.
-/

namespace SynapseGateway

open Utf8 (Text)

/-- What the rows of a request share. -/
structure LaneCtx where
  tenant : String
  attribution : String → Attribution
  requestId : String

def LaneCtx.usage (c : LaneCtx) (routeAlias provider model lane : String) (inputTokens outputTokens : Nat)
    (status op : String) : UsageEntry where
  tenant := c.tenant
  attribution := c.attribution routeAlias
  route := routeAlias
  provider := provider
  model := model
  lane := lane
  inputTokens := inputTokens
  outputTokens := outputTokens
  requestId := c.requestId
  status := status
  op := op

/-- The row carries what the rows of its request share. -/
structure LaneCtx.Owns (c : LaneCtx) (e : UsageEntry) : Prop where
  tenant : e.tenant = c.tenant
  requestId : e.requestId = c.requestId
  attribution : e.attribution = c.attribution e.route

/-- The id a request is stamped with. -/
def RequestCtx.requestIdOr (ctx : RequestCtx) (uuid : String) : String := ctx.resolvedRequestId.getD uuid

theorem resolved_ne {ctx : RequestCtx} {s : String} (h : ctx.resolvedRequestId = some s) : s ≠ "" := by
  have hne := (Option.filter_eq_some_iff.mp h).2
  simpa using hne

/-- A stamped request keeps its id. -/
theorem stamped_resolved {ctx : RequestCtx} {uuid : String} (huuid : uuid ≠ "") (other : String) :
    (ctx.stamped uuid).resolvedRequestId.getD other = ctx.requestIdOr uuid := by
  have hne : ctx.requestIdOr uuid ≠ "" := by
    unfold RequestCtx.requestIdOr
    cases h : ctx.resolvedRequestId with
    | none => exact huuid
    | some s => exact resolved_ne h
  show ((some (ctx.requestIdOr uuid)).filter (· != "")).getD other = _
  rw [Option.filter_some, if_pos (by simpa using hne)]
  rfl

inductive LaneEvent (κ : Type) where
  | classified (text : Text)
  | sent (call : κ)
  | row (e : UsageEntry)

abbrev LaneM (κ : Type) := Trace (LaneEvent κ) GatewayError

namespace LaneEvent

variable {κ : Type}

/-- The guard's own: what its classifier is asked, and its rows. -/
def IsGuard : LaneEvent κ → Prop
  | .classified _ => True
  | .sent _ => False
  | .row e => e.lane = "guard"

def sent? : LaneEvent κ → Option κ
  | .sent call => some call
  | _ => none

def row? : LaneEvent κ → Option UsageEntry
  | .row e => some e
  | _ => none

def usage? : LaneEvent κ → Option UsageEntry
  | .row e => if e.lane = "guard" then none else some e
  | _ => none

@[simp] theorem sent?_sent (call : κ) : (LaneEvent.sent call).sent? = some call := rfl

@[simp] theorem sent?_row (e : UsageEntry) : (LaneEvent.row e : LaneEvent κ).sent? = none := rfl

@[simp] theorem usage?_sent (call : κ) : (LaneEvent.sent call).usage? = none := rfl

theorem usage?_row {e : UsageEntry} (h : e.lane ≠ "guard") : (LaneEvent.row e : LaneEvent κ).usage? = some e := if_neg h

theorem sent_rows (rows : List UsageEntry) : (rows.map (LaneEvent.row : _ → LaneEvent κ)).filterMap sent? = [] := by
  rw [List.filterMap_map]
  exact List.filterMap_eq_nil_iff.mpr fun e _ => rfl

theorem usage_rows {rows : List UsageEntry} (h : ∀ e ∈ rows, e.lane ≠ "guard") :
    (rows.map (LaneEvent.row : _ → LaneEvent κ)).filterMap usage? = rows := by
  induction rows with
  | nil => rfl
  | cons e rows ih =>
    obtain ⟨he, hrows⟩ := List.forall_mem_cons.mp h
    rw [List.map_cons, List.filterMap_cons_some (usage?_row he), ih hrows]

theorem sends_sent (calls : List κ) : (calls.map LaneEvent.sent).filterMap sent? = calls := by
  rw [List.filterMap_map]
  exact List.filterMap_some

theorem usage_sent (calls : List κ) : (calls.map LaneEvent.sent).filterMap usage? = [] := by
  rw [List.filterMap_map]
  exact List.filterMap_eq_nil_iff.mpr fun call _ => rfl

theorem IsGuard.sent {ev : LaneEvent κ} (h : ev.IsGuard) : ev.sent? = none := by
  cases ev with
  | sent call => exact h.elim
  | _ => rfl

theorem IsGuard.usage {ev : LaneEvent κ} (h : ev.IsGuard) : ev.usage? = none := by
  cases ev with
  | row e => exact if_pos h
  | _ => rfl

theorem filterMap_guard {β : Type} {f : LaneEvent κ → Option β} (hf : ∀ ev, LaneEvent.IsGuard ev → f ev = none)
    {guards : List (LaneEvent κ)} (hg : ∀ ev ∈ guards, ev.IsGuard) : guards.filterMap f = [] :=
  List.filterMap_eq_nil_iff.mpr fun ev hev => hf ev (hg ev hev)

/-- A lane that is screened, makes its calls and then writes its rows. -/
theorem filterMap_lane {guards : List (LaneEvent κ)} (hg : ∀ ev ∈ guards, ev.IsGuard) (calls : List κ)
    {rows : List UsageEntry} (hrows : ∀ e ∈ rows, e.lane ≠ "guard") :
    (guards ++ calls.map LaneEvent.sent ++ rows.map LaneEvent.row).filterMap sent? = calls ∧
      (guards ++ calls.map LaneEvent.sent ++ rows.map LaneEvent.row).filterMap usage? = rows := by
  simp only [List.filterMap_append]
  rw [filterMap_guard (fun _ hev => hev.sent) hg, filterMap_guard (fun _ hev => hev.usage) hg, sends_sent, usage_sent,
    sent_rows, usage_rows hrows, List.nil_append, List.append_nil, List.nil_append]
  exact ⟨rfl, rfl⟩

theorem pairwise_guard {guards own : List (LaneEvent κ)} (hg : ∀ ev ∈ guards, ev.IsGuard)
    (hown : ∀ ev ∈ own, ¬ ev.IsGuard) : (guards ++ own).Pairwise fun ev later => later.IsGuard → ev.IsGuard := by
  refine List.pairwise_append.mpr ⟨?_, ?_, fun ev hev later hlater hguard => absurd hguard (hown later hlater)⟩
  · exact List.pairwise_of_forall_mem_list fun ev hev _ _ _ => hg ev hev
  · exact List.pairwise_of_forall_mem_list fun _ _ later hlater hguard => absurd hguard (hown later hlater)

end LaneEvent

/-- What a lane sends, in order. -/
def LaneM.sends {κ α : Type} (x : LaneM κ α) : List κ := x.events.filterMap LaneEvent.sent?

/-- A body is changed in its leaves only. -/
def RewritesLeaves (T : Traversal Json Text) : Json → Json → Prop :=
  Relation.ReflTransGen fun body body' => ∃ ts, ts.length = (T.read body).length ∧ body' = T.write body ts

/-! ## The guard of a lane -/

def isContentBlocked : Except GatewayError Bool → Bool
  | .error (.contentBlocked _ _ _) => true
  | _ => false

section
variable (llm : LlmGuard) (eng : GuardEngine) (c : LaneCtx)

/-- A row for a classifier's answer, or for a block without one. -/
def GuardEngine.guardRows (routeAlias policy : String) (screened : Screened) : List UsageEntry :=
  let blocked := isContentBlocked screened.outcome
  match screened.classifier, ((eng.policy policy).bind (·.classifier)).map (·.route) with
  | some s, some classifierRoute =>
    [c.usage classifierRoute "typesafe" s.model "guard" s.inputTokens s.outputTokens
      (if blocked then "blocked" else "ok") "guard_classifier"]
  | _, _ => if blocked then [c.usage routeAlias "synapse" policy "guard" 0 0 "blocked" "guard_input"] else []

/-- Screens a lane's text under `policy`, else `default`: the segments as they are
left, and whether any was masked. -/
def GuardEngine.guardLane {κ : Type} (routeAlias : String) (policy : Option String) (lane : GuardLane)
    (segments : List Segment) : LaneM κ (List Segment × Bool) :=
  let name := policy.getD "default"
  let run := eng.screenRun llm name lane segments
  ⟨run.screened.outcome.map fun masked => (run.segments, masked),
    run.asked.toList.map .classified ++ (eng.guardRows c routeAlias name run.screened).map .row⟩

/-- The policy rejects the segments, scanned together. -/
def GuardEngine.RejectsAll (policy : String) (segments : List Segment) : Prop :=
  ∃ p, eng.policy policy = some p ∧ p.Rejects llm segments

end

section
variable {llm : LlmGuard} {eng : GuardEngine} {c : LaneCtx} {routeAlias name : String} {policy : Option String}
  {lane : GuardLane} {segments : List Segment}

theorem usage_owned (routeAlias provider model lane : String) (inputTokens outputTokens : Nat) (status op : String) :
    c.Owns (c.usage routeAlias provider model lane inputTokens outputTokens status op) := ⟨rfl, rfl, rfl⟩

theorem guardRows_owned {s : Screened} {e : UsageEntry} (h : e ∈ eng.guardRows c routeAlias name s) :
    e.lane = "guard" ∧ e.op ≠ "chat" ∧ c.Owns e := by
  unfold GuardEngine.guardRows at h
  simp only at h
  split at h
  · obtain rfl := List.mem_singleton.mp h
    exact ⟨rfl, show "guard_classifier" ≠ "chat" by decide, usage_owned ..⟩
  · split at h
    · obtain rfl := List.mem_singleton.mp h
      exact ⟨rfl, show "guard_input" ≠ "chat" by decide, usage_owned ..⟩
    · cases h

theorem screenRun_leaves : (eng.screenRun llm name lane segments).segments = segments.map (eng.leaves llm name) := by
  unfold GuardEngine.leaves
  cases hp : eng.policy name with
  | none =>
    unfold GuardEngine.screenRun
    rw [hp]
    simp
  | some p =>
    rw [screenRun_segments hp]
    unfold scannedSegments scanSegments
    rw [List.map_map]
    exact List.map_congr_left fun seg _ => scan_leaves

theorem screenRun_rejects_iff : (∃ e, (eng.screenRun llm name lane segments).screened.outcome = .error e) ↔
    eng.RejectsAll llm name segments := by
  unfold GuardEngine.RejectsAll
  cases hp : eng.policy name with
  | none =>
    unfold GuardEngine.screenRun
    rw [hp]
    simp
  | some p =>
    rw [screenRun_error_iff hp]
    simp

section
variable {κ : Type}

theorem guardLane_guard : (eng.guardLane llm c routeAlias policy lane segments : LaneM κ _).Emits (·.IsGuard) := by
  intro ev hev
  rcases List.mem_append.mp hev with hev | hev
  · obtain ⟨text, -, rfl⟩ := List.mem_map.mp hev
    trivial
  · obtain ⟨e, he, rfl⟩ := List.mem_map.mp hev
    exact (guardRows_owned he).1

theorem guardLane_owned {e : UsageEntry}
    (h : .row e ∈ (eng.guardLane llm c routeAlias policy lane segments : LaneM κ _).events) : c.Owns e := by
  rcases List.mem_append.mp h with h | h
  · obtain ⟨text, -, htext⟩ := List.mem_map.mp h
    cases htext
  · obtain ⟨e', he, hrow⟩ := List.mem_map.mp h
    cases hrow
    exact (guardRows_owned he).2.2

theorem guardLane_error_iff : (∃ e, (eng.guardLane llm c routeAlias policy lane segments : LaneM κ _).result = .error e) ↔
    eng.RejectsAll llm (policy.getD "default") segments := by
  rw [← screenRun_rejects_iff]
  show (∃ e, Except.map _ _ = .error e) ↔ _
  cases (eng.screenRun llm (policy.getD "default") lane segments).screened.outcome with
  | ok masked => simp [Except.map]
  | error e => simp [Except.map]

theorem guardLane_ok {a : List Segment × Bool}
    (h : (eng.guardLane llm c routeAlias policy lane segments : LaneM κ _).result = .ok a) :
    a.1 = segments.map (eng.leaves llm (policy.getD "default")) := by
  obtain ⟨masked, -, rfl⟩ := Fallible.of_map_ok h
  exact screenRun_leaves

end

end

end SynapseGateway
