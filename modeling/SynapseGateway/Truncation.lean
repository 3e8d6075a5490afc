import SynapseGateway.Chat
import SynapseGateway.GuardedStreamSound
import SynapseGateway.StandardStream
import SynapseGateway.StreamAgree
import SynapseGateway.VertexNativeSound

/-!
# Truncated replies

When a committed stream that ends without a terminal item is reported as an
error, by the buffered consumers of either lane and by the streamed row.
-/

namespace SynapseGateway

open Utf8 (Text)

/-! ## Upstream bodies -/

inductive UpstreamBody where
  | standard (events : List (Except String ChatStreamEvent))
  | native (chunks : List (Except String Bytes))

def UpstreamBody.lane : UpstreamBody → Lane
  | .standard _ => .standard
  | .native _ => .nativeVertex

section
variable (parse : Text → Except String Json)

def UpstreamBody.items : UpstreamBody → List (Except LegError StreamItem)
  | .standard events => normalizedStream events
  | .native chunks => streamGenerate parse chunks

/-- The upstream sent its terminal event completely. -/
def UpstreamBody.Terminal : UpstreamBody → Prop
  | .standard events => ∃ ev, .ok ev ∈ events ∧ ev.isFinish = true
  | .native chunks => ∃ data ∈ bodyData chunks, Finishes parse data

/-- The upstream failed: an error among the events or chunks, or a complete
native event whose data is not JSON. -/
def UpstreamBody.Broken : UpstreamBody → Prop
  | .standard events => ∃ e, .error e ∈ events
  | .native chunks => (∃ e, .error e ∈ chunks) ∨ ∃ data ∈ bodyData chunks, ∃ e, parse data = .error e

variable {parse}

theorem UpstreamBody.done_iff (body : UpstreamBody) : (body.items parse).any isDoneItem = true ↔ body.Terminal parse := by
  cases body with
  | standard events => exact normalizedFrom_done events {}
  | native chunks => exact streamGenerate_done parse chunks

theorem UpstreamBody.error_iff (body : UpstreamBody) : (body.items parse).any isErrorItem = true ↔ body.Broken parse := by
  cases body with
  | standard events => exact normalizedFrom_error events {}
  | native chunks => exact streamGenerate_error parse chunks

end

/-! ## The buffered consumers -/

theorem drain_gotDone {provider model : String} {c : Completion} : ∀ {chunks : List Chunk} {acc : Accumulator},
    drain provider model acc chunks = .ok c →
      acc.gotDone = true ∨ ∃ item, Chunk.item (.ok item) ∈ chunks ∧ item.isDone = true
  | [], acc, h => by
    rw [drain, drained] at h
    split at h
    · exact .inl ‹_›
    · cases h
  | .idleTimeout :: chunks, acc, h => by cases h
  | .finished :: chunks, acc, h => by
    have h' : drained provider model acc = .ok c := h
    rw [drained] at h'
    split at h'
    · exact .inl ‹_›
    · cases h'
  | .item (.error e) :: chunks, acc, h => by cases h
  | .item (.ok item) :: chunks, acc, h => by
    rcases drain_gotDone (show drain provider model (acc.push item) chunks = .ok c from h) with hd | ⟨x, hx, hd⟩
    · rw [push_gotDone, Bool.or_eq_true] at hd
      rcases hd with hd | hd
      · exact .inl hd
      · exact .inr ⟨item, List.mem_cons_self .., hd⟩
    · exact .inr ⟨x, List.mem_cons_of_mem _ hx, hd⟩

theorem bufferOneLegTimed_done {leg : ChainLeg} {items : List (Except LegError StreamItem)} {stall : Option Nat}
    {c : Completion} (h : bufferOneLegTimed leg (.committed items stall) = .ok c) : items.any isDoneItem = true := by
  rcases drain_gotDone (show drain leg.provider leg.model {} (waits items stall) = .ok c from h) with hd | ⟨x, hx, hd⟩
  · cases hd
  · have hmem : (.ok x) ∈ items := by
      cases stall with
      | none =>
        obtain ⟨r, hr, he⟩ := List.mem_map.mp hx
        cases he
        exact hr
      | some k =>
        rcases List.mem_append.mp hx with hx | hx
        · obtain ⟨r, hr, he⟩ := List.mem_map.mp hx
          cases he
          exact List.mem_of_mem_take hr
        · cases List.mem_singleton.mp hx
    exact List.any_eq_true.mpr ⟨_, hmem, hd⟩

theorem executeBufferedFrom_ok {route : String} {c : Completion} {legs : List (ChainLeg × LegCall)}
    {failures : List LegFailure} {allOpen : Bool} (h : executeBufferedFrom route failures allOpen legs = .ok c) :
    ∃ l ∈ legs, bufferOneLegTimed l.1 l.2 = .ok c := by
  induction legs generalizing failures allOpen with
  | nil =>
    rw [executeBufferedFrom] at h
    split at h <;> cases h
  | cons lc legs ih =>
    obtain ⟨leg, call⟩ := lc
    rw [executeBufferedFrom] at h
    have hlater : (∃ l ∈ legs, bufferOneLegTimed l.1 l.2 = .ok c) →
        ∃ l ∈ (leg, call) :: legs, bufferOneLegTimed l.1 l.2 = .ok c := by
      intro h
      obtain ⟨l, hl, hc⟩ := h
      exact ⟨l, List.mem_cons_of_mem _ hl, hc⟩
    cases hc : bufferOneLegTimed leg call with
    | ok c' =>
      rw [hc] at h
      cases h
      exact ⟨_, List.mem_cons_self .., hc⟩
    | error e =>
      rw [hc] at h
      cases e <;> exact hlater (ih h)

theorem collectFrom_isOk (items : List (Except LegError StreamItem)) (acc : Accumulator) :
    (∃ acc', collectFrom acc items = .ok acc') ↔ items.any isErrorItem = false := by
  induction items generalizing acc with
  | nil => simp [collectFrom]
  | cons r items ih =>
    cases r with
    | error e => simp [collectFrom, isErrorItem]
    | ok item =>
      rw [collectFrom, ih, List.any_cons]
      rfl

/-- What a buffered call serves whose route commits to this body and gets no
completion from any other leg. -/
inductive UpstreamBody.Served (parse : Text → Except String Json) (route : String) :
    UpstreamBody → Except GatewayError Completion → Prop
  | standard {events : List (Except String ChatStreamEvent)} {leg : ChainLeg} {stall : Option Nat}
      {before after : List (ChainLeg × LegCall)}
      (fails : ∀ l ∈ before ++ after, ∀ c, bufferOneLegTimed l.1 l.2 ≠ .ok c) :
      Served parse route (.standard events)
        (executeBuffered route (before ++ (leg, .committed (normalizedStream events) stall) :: after))
  | native {chunks : List (Except String Bytes)} {configured : Bool} {provider model : String}
      {legs : List (ChainLeg × Except GatewayError (List (Except LegError StreamItem)))}
      (commits : nativeCommitted configured route legs = .ok ⟨provider, model, streamGenerate parse chunks⟩) :
      Served parse route (.native chunks) (nativeCommitted configured route legs >>= collectCommitted)

theorem served_standard {parse : Text → Except String Json} {route : String} {events : List (Except String ChatStreamEvent)}
    {r : Except GatewayError Completion} (h : UpstreamBody.Served parse route (.standard events) r)
    (hd : (normalizedStream events).any isDoneItem = false) : ∃ e, r = .error e := by
  cases h with
  | standard fails =>
    rename_i leg stall before after
    cases hr : executeBuffered route (before ++ (leg, .committed (normalizedStream events) stall) :: after) with
    | error e => exact ⟨e, rfl⟩
    | ok c =>
      obtain ⟨l, hl, hc⟩ := executeBufferedFrom_ok hr
      rcases List.mem_append.mp hl with hl | hl
      · exact absurd hc (fails l (List.mem_append_left _ hl) c)
      rcases List.mem_cons.mp hl with rfl | hl
      · rw [bufferOneLegTimed_done hc] at hd
        cases hd
      · exact absurd hc (fails l (List.mem_append_right _ hl) c)

theorem served_native {parse : Text → Except String Json} {route : String} {chunks : List (Except String Bytes)}
    {r : Except GatewayError Completion} (h : UpstreamBody.Served parse route (.native chunks) r)
    (he : (streamGenerate parse chunks).any isErrorItem = true) : ∃ e, r = .error e := by
  cases h with
  | native commits =>
    rename_i configured provider model legs
    rw [commits]
    show ∃ e, collectCommitted _ = .error e
    unfold collectCommitted
    cases hc : collectFrom {} (streamGenerate parse chunks) with
    | error e => exact ⟨e, rfl⟩
    | ok acc =>
      rw [(collectFrom_isOk _ _).mp ⟨acc, hc⟩] at he
      cases he

theorem served_native_ok (parse : Text → Except String Json) (route : String) {chunks : List (Except String Bytes)}
    (he : (streamGenerate parse chunks).any isErrorItem = false) :
    ∃ c, UpstreamBody.Served parse route (.native chunks) (.ok c) := by
  obtain ⟨acc, hacc⟩ := (collectFrom_isOk _ {}).mpr he
  refine ⟨acc.completion "vertex" "m", ?_⟩
  have h : UpstreamBody.Served parse route (.native chunks)
      (nativeCommitted true route [({ provider := "vertex", model := "m" }, .ok (streamGenerate parse chunks))] >>=
        collectCommitted) :=
    .native rfl
  have hr : (nativeCommitted true route [({ provider := "vertex", model := "m" }, .ok (streamGenerate parse chunks))] >>=
      collectCommitted) = .ok (acc.completion "vertex" "m") := by
    show collectCommitted _ = _
    unfold collectCommitted
    rw [hacc]
    rfl
  rwa [hr] at h

/-! ## The streamed row -/

section
variable {llm : LlmGuard} {eng : GuardEngine}

def GuardBlocks (llm : LlmGuard) (eng : GuardEngine) (output : Option OutputGuard)
    (items : List (Except LegError StreamItem)) : Prop :=
  ∃ x ∈ guardCalls llm eng output (items.map some ++ [none]), x.2.isBlocked = true

theorem any_isError (items : List (Except LegError StreamItem)) :
    (items.map some ++ [none]).any Event.isError = items.any isErrorItem := by
  rw [List.any_append, List.any_map, show [none].any Event.isError = false from rfl, Bool.or_false]
  congr 1
  funext r
  cases r <;> rfl

theorem ended_row {inner : Upstream} {items : List (Except LegError StreamItem)} (hin : inner.filterMap id = items)
    (route tenant : String) (attribution : Attribution) (provider model lane requestId policy : String)
    (output : Option OutputGuard) {n : Nat}
    (hend : ((GuardedStream.new inner (.new route tenant attribution provider model lane requestId) policy
      output).polls llm eng n).2.ended = true) :
    ∃ row, ((GuardedStream.new inner (.new route tenant attribution provider model lane requestId) policy
        output).polls llm eng n).2.drop = [row] ∧
      (row.status ≠ "ok" ↔ GuardBlocks llm eng output items ∨ items.any isErrorItem = true) := by
  have h := polls_inv (n := n) (new_inv llm eng inner (.new route tenant attribution provider model lane requestId)
    policy output)
  rw [List.nil_append, List.nil_append] at h
  generalize ((GuardedStream.new inner (.new route tenant attribution provider model lane requestId) policy
    output).polls llm eng n) = run at h hend
  obtain ⟨rest, hrest, -⟩ := h.upstream
  have hev : inner.events = items.map some ++ [none] := by rw [Upstream.events, hin]
  change inner.events = _ at hrest
  rcases h.state with ⟨hf, hall⟩ | ⟨before, ev, scanners, hc, hb⟩
  · have hall := hall hend
    change _ = inner.events at hall
    have hguard := hf.guard
    have hpass := hf.passing
    rw [hall, hev] at hguard hpass
    obtain ⟨row, hrow, -, hst⟩ := drop_row (e := run.2.guard) (by rw [hguard, foldl_note_fired]; rfl)
    refine ⟨row, hrow, ?_⟩
    have hno : ¬ GuardBlocks llm eng output items := by
      intro h
      obtain ⟨x, hx, hxb⟩ := h
      rw [hpass x hx] at hxb
      cases hxb
    rw [hst, hguard, foldl_note_status, any_isError]
    cases items.any isErrorItem <;> simp [hno, GuardedStream.new, StreamSideEffects.new]
  · obtain ⟨row, hrow, -, hst⟩ := drop_row (e := run.2.guard) (by
      rw [hb.guard]
      exact foldl_note_fired)
    refine ⟨row, hrow, iff_of_true ?_ (.inl ?_)⟩
    · rw [hst, hb.guard]
      simp [StreamSideEffects.markBlocked]
    · have hmem : (ev, Release.blocked scanners) ∈ guardCalls llm eng output (items.map some ++ [none]) := by
        rw [← hev, hrest, hc, guardCalls_append, guardCalls_snoc]
        exact List.mem_append_left _ (List.mem_append_right _ (List.mem_singleton.mpr (congrArg _ hb.blocks.symm)))
      exact ⟨_, hmem, rfl⟩

end

/-! ## Reporting a cut -/

section
variable (llm : LlmGuard) (eng : GuardEngine) (parse : Text → Except String Json) (ctx : ChatContext)

def streamOutput (eng : GuardEngine) (policy : String) : Option OutputGuard :=
  if eng.hasOutput policy then some (OutputGuard.new eng policy) else none

/-- A body that ends without a terminal item is an error to a buffered call,
which writes no `ok` row, and is no `ok` row of a streamed call; and a terminal
event that came is a terminal item. -/
structure TruncationReported (body : UpstreamBody) : Prop where
  buffered : (body.items parse).any isDoneItem = false → ∀ served, body.Served parse ctx.route served →
    (∃ e, (chatRouted llm eng ctx body.lane served).1 = .error e) ∧
      ∀ row ∈ (chatRouted llm eng ctx body.lane served).2, row.status ≠ "ok"
  streamed : (body.items parse).any isDoneItem = false → ∀ (inner : Upstream), inner.filterMap id = body.items parse →
    ∀ provider model n, let run := (GuardedStream.new inner
        (.new ctx.route ctx.tenant ctx.attribution provider model body.lane.label ctx.requestId) ctx.policy
        (streamOutput eng ctx.policy)).polls llm eng n
      run.2.ended = true → ∃ row, run.2.drop = [row] ∧ row.status ≠ "ok"
  complete : body.Terminal parse → (body.items parse).any isDoneItem = true

/-- Truncation is reported exactly of a body that is not truncated, that shows
an error, or that is on the standard lane and blocked by the output guard. -/
theorem truncation_reported_iff (body : UpstreamBody) :
    TruncationReported llm eng parse ctx body ↔ body.Terminal parse ∨ body.Broken parse ∨
      body.lane = .standard ∧ GuardBlocks llm eng (streamOutput eng ctx.policy) (body.items parse) := by
  constructor
  · intro h
    by_contra hno
    simp only [not_or, not_and, ← body.done_iff, ← body.error_iff, Bool.not_eq_true] at hno
    obtain ⟨hd, he, hb⟩ := hno
    cases body with
    | standard events =>
      obtain ⟨n, -, hend⟩ := polls_end llm eng (GuardedStream.new (((UpstreamBody.standard events).items parse).map some)
        (.new ctx.route ctx.tenant ctx.attribution "p" "m" "standard" ctx.requestId) ctx.policy
        (streamOutput eng ctx.policy)) (Nat.le_refl _)
      have hin : (((UpstreamBody.standard events).items parse).map some).filterMap id =
          (UpstreamBody.standard events).items parse := by
        simp [List.filterMap_map]
      obtain ⟨row, hrow, hst⟩ := h.streamed hd _ hin "p" "m" n hend
      obtain ⟨row', hrow', hst'⟩ := ended_row hin _ _ _ _ _ _ _ _ _ hend
      cases hrow.symm.trans hrow'
      rcases hst'.mp hst with hb' | he'
      · exact hb rfl hb'
      · rw [he] at he'
        cases he'
    | native chunks =>
      obtain ⟨c, hc⟩ := served_native_ok parse ctx.route he
      obtain ⟨⟨e, hr⟩, -⟩ := h.buffered hd _ hc
      cases hr
  · intro h
    refine ⟨?_, ?_, body.done_iff.mpr⟩
    · intro hd served hs
      have hserved : ∃ e, served = .error e := by
        cases body with
        | standard events => exact served_standard hs hd
        | native chunks =>
          rcases h with ht | hb | ⟨hl, -⟩
          · rw [← UpstreamBody.done_iff, hd] at ht
            cases ht
          · exact served_native hs ((UpstreamBody.error_iff _).mpr hb)
          · cases hl
      obtain ⟨e, rfl⟩ := hserved
      exact ⟨⟨e, rfl⟩, fun row hrow => by cases hrow⟩
    · intro hd inner hin provider model n run hend
      obtain ⟨row, hrow, hst⟩ := ended_row hin _ _ _ _ _ _ _ _ _ hend
      refine ⟨row, hrow, hst.mpr ?_⟩
      rcases h with ht | hb | ⟨-, hb⟩
      · rw [← UpstreamBody.done_iff, hd] at ht
        cases ht
      · exact .inr (body.error_iff.mpr hb)
      · exact .inl hb

end

def hiData : Text := "\x7b\"candidates\":[\x7b\"content\":\x7b\"parts\":[\x7b\"text\":\"Hi\"\x7d]\x7d\x7d]\x7d".toList

def hiChunk : Json :=
  .object [("candidates", .array [.object [("content", .object [("parts", .array [.object [("text", .string "Hi".toList)]])])]])]

def hiParse (data : Text) : Except String Json :=
  if data = hiData then .ok hiChunk else .error "expected value at line 1 column 1"

def hiBody : UpstreamBody := .native [.ok (("data: ".toList ++ hiData ++ "\n\n".toList).map fun c => c.toNat.toUInt8)]

def demoContext : ChatContext := ⟨"route", "default", "acme", {}, "rid"⟩

theorem truncated_native_reported_ok :
    ¬ TruncationReported substringGuard ⟨[]⟩ hiParse demoContext hiBody ∧
      hiBody.items hiParse = [.ok (.delta "Hi".toList)] ∧
      chatRouted substringGuard ⟨[]⟩ demoContext .nativeVertex
          (nativeCommitted true "route" [({ provider := "vertex", model := "m" }, .ok (hiBody.items hiParse))] >>= collectCommitted) =
        (.ok ⟨"vertex", "m", "Hi".toList, [], .stop, 0, 0⟩,
          [demoContext.record .nativeVertex ⟨"vertex", "m", "Hi".toList, [], .stop, 0, 0⟩ "ok"]) := by
  have hitems : hiBody.items hiParse = [.ok (.delta "Hi".toList)] := by decide +kernel
  have hserved : (nativeCommitted true "route" [({ provider := "vertex", model := "m" }, .ok (hiBody.items hiParse))] >>=
      collectCommitted) = .ok ⟨"vertex", "m", "Hi".toList, [], .stop, 0, 0⟩ := by
    rw [hitems]
    rfl
  refine ⟨?_, hitems, ?_⟩
  · intro h
    have hs : UpstreamBody.Served hiParse "route" hiBody
        (nativeCommitted true "route" [({ provider := "vertex", model := "m" }, .ok (hiBody.items hiParse))] >>=
          collectCommitted) := .native rfl
    rw [hserved] at hs
    obtain ⟨⟨e, he⟩, -⟩ := h.buffered (by rw [hitems]; rfl) _ hs
    cases he
  · rw [hserved]
    rfl

end SynapseGateway
