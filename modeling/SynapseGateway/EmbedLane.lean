import SynapseGateway.EmbeddingsSound
import SynapseGateway.GuardLane
import SynapseGateway.Lib.Attempts

/-!
# The embeddings lane

The inputs are screened, and the legs are asked for them batch by batch. One row
is written, to the leg that answered every batch, and none where no leg did.
-/

namespace SynapseGateway

open Utf8 (Text)

variable {F : Type}

/-! ## What a call keeps to -/

/-- The legs that can be asked, numbered. -/
def EmbedGateway.candidates (g : EmbedGateway F) (i : Nat) (legs : List ChainLeg) : List (Nat × ChainLeg × Embedder F) :=
  (legs.zipIdx i).filterMap fun l => (g.embedders l.1.provider).map (l.2, l.1, ·)

/-- The calls to one leg: its batches in order, up to the first that fails. -/
def Embedder.calls (e : Embedder F) (limit : ℕ+) (inputs : List Text) (dims number : Nat) (leg : ChainLeg) :
    List EmbedCall :=
  (Attempts.reached (fun b : List Text × Nat => e.embed number b.2 leg.model b.1 dims) (numberedBatches inputs limit)).map
    fun b => ⟨number, leg, b.2, b.1, dims⟩

/-- The calls of a request: those to each leg in turn, up to the first that
answers every batch. -/
def EmbedGateway.callsOf (g : EmbedGateway F) (limit : String → ℕ+) (inputs : List Text) (dims i : Nat)
    (legs : List ChainLeg) : List EmbedCall :=
  (Attempts.tried (fun l : Nat × ChainLeg × Embedder F =>
      l.2.2.embedAllBatches l.1 l.2.1 inputs dims (limit l.2.1.provider)) (g.candidates i legs)).flatMap
    fun l => l.2.2.calls (limit l.2.1.provider) inputs dims l.1 l.2.1

/-- The inputs as the guard leaves them. -/
def EmbedGateway.shownInputs (llm : LlmGuard) (g : EmbedGateway F) (entry : EmbeddingEntry) (inputs : List Text) :
    List Text :=
  inputs.map fun s => (g.guard.leaves llm (entry.policy.getD "default") [s]).headD []

structure EmbedKept (llm : LlmGuard) (g : EmbedGateway F) (limit : String → ℕ+) (ctx : RequestCtx) (uuid : String)
    (req : EmbeddingRequest) (x : LaneM EmbedCall (EmbeddingResponse F × Bool)) : Prop where
  unserved : ∀ e, g.entryOf req = .error e → x = ⟨.error e, []⟩
  rejected : ∀ entry, g.entryOf req = .ok entry →
    g.guard.RejectsAll llm (entry.policy.getD "default") (embeddingLeaves req.input.intoVec) →
    (∃ e, x.result = .error e) ∧ x.Emits (·.IsGuard)
  sent : ∀ entry, g.entryOf req = .ok entry →
    ¬ g.guard.RejectsAll llm (entry.policy.getD "default") (embeddingLeaves req.input.intoVec) →
    x.sends = g.callsOf limit (g.shownInputs llm entry req.input.intoVec) entry.dimensions 0 entry.legs
  served : ∀ entry out, g.entryOf req = .ok entry → x.result = .ok out →
    let inputs := g.shownInputs llm entry req.input.intoVec
    ∃ k leg e earlier, g.Serves limit inputs entry.dimensions 0 entry.legs k leg e ∧
      (∀ call ∈ earlier, call.number < k) ∧
      x.sends = earlier ++ (numberedBatches inputs (limit leg.provider)).map
        (fun b => ⟨k, leg, b.2, b.1, entry.dimensions⟩) ∧
      x.events.filterMap LaneEvent.usage? = [g.embedRow ctx req.model (ctx.requestIdOr uuid) leg out.1.totalTokens]
  failed : ∀ e, x.result = .error e → x.events.filterMap LaneEvent.usage? = []
  guardFirst : x.events.Pairwise fun ev later => later.IsGuard → ev.IsGuard
  owned : ∀ e, .row e ∈ x.events → (g.laneCtx ctx uuid).Owns e

/-! ## The legs -/

section
variable {g : EmbedGateway F} {limit : String → ℕ+} {inputs : List Text} {dims : Nat}

theorem batchesLane_events (e : Embedder F) (number : Nat) (leg : ChainLeg) (dims batch : Nat) (batches : List (List Text)) :
    (e.batchesLane number leg dims batch batches).events =
      (Attempts.reached (fun b : List Text × Nat => e.embed number b.2 leg.model b.1 dims) (batches.zipIdx batch)).map
        fun b => .sent ⟨number, leg, b.2, b.1, dims⟩ := by
  induction batches generalizing batch with
  | nil => rfl
  | cons b rest ih =>
    rw [Embedder.batchesLane, Trace.emit_bind, List.zipIdx_cons, Attempts.reached]
    cases hembed : e.embed number batch leg.model b dims with
    | error err => rfl
    | ok out =>
      rw [Trace.lift_bind_ok, Trace.bind_pure, ih]
      rfl

theorem candidates_cons (g : EmbedGateway F) (i : Nat) (leg : ChainLeg) (legs : List ChainLeg) :
    g.candidates i (leg :: legs) = ((g.embedders leg.provider).map (i, leg, ·)).toList ++ g.candidates (i + 1) legs := by
  unfold EmbedGateway.candidates
  cases h : g.embedders leg.provider with
  | none => simp [h]
  | some e => simp [h]

theorem callsOf_cons_none {leg : ChainLeg} (he : g.embedders leg.provider = none) (i : Nat) (legs : List ChainLeg) :
    g.callsOf limit inputs dims i (leg :: legs) = g.callsOf limit inputs dims (i + 1) legs := by
  unfold EmbedGateway.callsOf
  rw [candidates_cons, he]
  rfl

theorem callsOf_cons_some {leg : ChainLeg} {e : Embedder F} (he : g.embedders leg.provider = some e) (i : Nat)
    (legs : List ChainLeg) : g.callsOf limit inputs dims i (leg :: legs) =
      e.calls (limit leg.provider) inputs dims i leg ++
        match e.embedAllBatches i leg inputs dims (limit leg.provider) with
        | .ok _ => []
        | .error _ => g.callsOf limit inputs dims (i + 1) legs := by
  unfold EmbedGateway.callsOf
  rw [candidates_cons, he]
  simp only [Option.map_some, Option.toList_some, List.singleton_append, Attempts.tried]
  cases e.embedAllBatches i leg inputs dims (limit leg.provider) with
  | ok out => rw [List.flatMap_cons, List.flatMap_nil]
  | error err => rw [List.flatMap_cons]

theorem legsLane_events (g : EmbedGateway F) (limit : String → ℕ+) (inputs : List Text) (dims : Nat) (routeAlias : String)
    (i : Nat) (lastErr : Option GatewayError) (legs : List ChainLeg) :
    (g.legsLane limit inputs dims routeAlias i lastErr legs).events = (g.callsOf limit inputs dims i legs).map .sent := by
  induction legs generalizing i lastErr with
  | nil => rfl
  | cons leg legs ih =>
    rw [EmbedGateway.legsLane]
    cases he : g.embedders leg.provider with
    | none => rw [callsOf_cons_none he, ← ih (i + 1) lastErr]
    | some e =>
      have hcalls : (e.batchesLane i leg dims 0 (splitBatches inputs (limit leg.provider))).events =
          (e.calls (limit leg.provider) inputs dims i leg).map .sent := by
        rw [batchesLane_events, Embedder.calls, List.map_map]
        rfl
      rw [callsOf_cons_some he]
      simp only
      rw [Trace.bind_pure, hcalls]
      cases hall : e.embedAllBatches i leg inputs dims (limit leg.provider) with
      | ok out =>
        rw [Trace.recover_of_ok (congrArg (Except.map _) hall), List.append_nil]
      | error err =>
        rw [Trace.recover_of_error (congrArg (Except.map _) hall), ih, List.map_append]

/-- A leg that answers every batch is sent all of them. -/
theorem calls_responds {e : Embedder F} {size : ℕ+} {number : Nat} {leg : ChainLeg}
    (h : e.RespondsAll size inputs dims number leg.model) : e.calls size inputs dims number leg =
      (numberedBatches inputs size).map fun b => ⟨number, leg, b.2, b.1, dims⟩ := by
  unfold Embedder.calls
  rw [Attempts.reached_of_oks fun b hb => embed_ok_iff.mpr (h b hb)]

theorem calls_number {e : Embedder F} {size : ℕ+} {number : Nat} {leg : ChainLeg} {call : EmbedCall}
    (h : call ∈ e.calls size inputs dims number leg) : call.number = number := by
  obtain ⟨b, -, rfl⟩ := List.mem_map.mp h
  rfl

/-- The last calls are those to the leg that serves. -/
theorem callsOf_served {routeAlias : String} {i : Nat} {lastErr : Option GatewayError} {legs : List ChainLeg}
    {served : ChainLeg × EmbedOut F} (h : g.embedLegs limit inputs dims routeAlias i lastErr legs = .ok served) :
    ∃ k e earlier, g.Serves limit inputs dims i legs k served.1 e ∧ (∀ call ∈ earlier, call.number < i + k) ∧
      g.callsOf limit inputs dims i legs = earlier ++ (numberedBatches inputs (limit served.1.provider)).map
        fun b => ⟨i + k, served.1, b.2, b.1, dims⟩ := by
  induction legs generalizing i lastErr with
  | nil => cases h
  | cons leg legs ih =>
    cases he : g.embedders leg.provider with
    | none =>
      rw [embedLegs_none he] at h
      obtain ⟨k, e, earlier, hserves, hbefore, hcalls⟩ := ih h
      have hskip : ∀ e', g.embedders leg.provider = some e' →
          ¬ e'.RespondsAll (limit leg.provider) inputs dims i leg.model := by
        intro e' he'
        rw [he] at he'
        cases he'
      refine ⟨k + 1, e, earlier, hserves.cons hskip, fun call hcall => ?_, ?_⟩
      · have := hbefore call hcall
        omega
      · rw [callsOf_cons_none he, hcalls, Nat.add_right_comm i 1 k]
        rfl
    | some e =>
      rw [embedLegs_some he] at h
      rw [callsOf_cons_some he]
      cases hall : e.embedAllBatches i leg inputs dims (limit leg.provider) with
      | ok out =>
        simp only [hall] at h
        obtain rfl := Except.ok.inj h
        have hresp := embedAllBatches_ok_iff.mp ⟨out, hall⟩
        have hserves : g.Serves limit inputs dims i (leg :: legs) 0 leg e :=
          ⟨rfl, he, hresp, fun k' hk => absurd hk (Nat.not_lt_zero k')⟩
        refine ⟨0, e, [], hserves, fun call hcall => (List.not_mem_nil hcall).elim, ?_⟩
        rw [calls_responds hresp, List.append_nil]
        rfl
      | error err =>
        simp only [hall] at h
        obtain ⟨k, e', earlier, hserves, hbefore, hcalls⟩ := ih h
        have hskip : ∀ e'', g.embedders leg.provider = some e'' →
            ¬ e''.RespondsAll (limit leg.provider) inputs dims i leg.model := by
          intro e'' he'' hresp
          obtain rfl := Option.some.inj (he.symm.trans he'')
          obtain ⟨out, hout⟩ := embedAllBatches_ok_iff.mpr hresp
          rw [hall] at hout
          cases hout
        refine ⟨k + 1, e', e.calls (limit leg.provider) inputs dims i leg ++ earlier, hserves.cons hskip, ?_, ?_⟩
        · intro call hcall
          rcases List.mem_append.mp hcall with hcall | hcall
          · have := calls_number hcall
            omega
          · have := hbefore call hcall
            omega
        · simp only [hcalls, List.append_assoc, Nat.add_right_comm i 1 k]
          rfl

end

/-! ## The call -/

section
variable {llm : LlmGuard} {g : EmbedGateway F} {limit : String → ℕ+} {uuid : Nat → String} {ctx : RequestCtx}
  {req : EmbeddingRequest} {entry : EmbeddingEntry}

/-- The row of the leg that served, if one did. -/
def EmbedGateway.servedRows (g : EmbedGateway F) (ctx : RequestCtx) (routeAlias requestId : String) :
    Except GatewayError (ChainLeg × EmbedOut F) → List UsageEntry
  | .ok served => [g.embedRow ctx routeAlias requestId served.1 served.2.inputTokens]
  | .error _ => []

/-- Screens the inputs, then asks for them as they are left. -/
theorem embedLane_cases (huuid : uuid 0 ≠ "") (h : g.entryOf req = .ok entry) {guard : LaneM EmbedCall (List Segment × Bool)}
    (hguard : guard = g.guard.guardLane llm (g.laneCtx ctx (uuid 0)) req.model entry.policy .embeddings
      (embeddingLeaves req.input.intoVec)) :
    (∃ e, guard.result = .error e ∧ g.embedLane llm limit uuid ctx req = ⟨.error e, guard.events⟩) ∨
      ∃ screened legs, guard.result = .ok screened ∧
        screened.1.map (·.headD []) = g.shownInputs llm entry req.input.intoVec ∧
        legs = g.embedLegs limit (g.shownInputs llm entry req.input.intoVec) entry.dimensions req.model 0 none entry.legs ∧
        g.embedLane llm limit uuid ctx req = ⟨legs.map fun served => (buildResponse req.model served.2, screened.2),
          guard.events ++ (g.callsOf limit (g.shownInputs llm entry req.input.intoVec) entry.dimensions 0 entry.legs).map
            .sent ++ (g.servedRows ctx req.model (ctx.requestIdOr (uuid 0)) legs).map .row⟩ := by
  unfold EmbedGateway.embedLane
  rw [h, Trace.lift_bind_ok, ← hguard]
  cases hs : guard.result with
  | error e => exact .inl ⟨e, rfl, Trace.bind_of_error hs _⟩
  | ok screened =>
    have hinputs : screened.1.map (·.headD []) = g.shownInputs llm entry req.input.intoVec := by
      rw [hguard] at hs
      rw [guardLane_ok hs]
      simp [embeddingLeaves, EmbedGateway.shownInputs]
    refine .inr ⟨screened, _, rfl, hinputs, rfl, ?_⟩
    rw [Trace.bind_of_ok hs, hinputs, ← legsLane_events g limit _ _ req.model 0 none]
    cases hlegs : g.embedLegs limit (g.shownInputs llm entry req.input.intoVec) entry.dimensions req.model 0 none entry.legs with
    | error err =>
      rw [Trace.bind_of_error hlegs]
      simp [EmbedGateway.servedRows, Except.map]
    | ok served =>
      rw [Trace.bind_of_ok hlegs, Trace.emit_bind, stamped_resolved huuid]
      simp [EmbedGateway.servedRows, Except.map, pure]
      rfl

theorem servedRows_owned {r : Except GatewayError (ChainLeg × EmbedOut F)} {e : UsageEntry}
    (h : e ∈ g.servedRows ctx req.model (ctx.requestIdOr (uuid 0)) r) :
    (g.laneCtx ctx (uuid 0)).Owns e ∧ e.lane ≠ "guard" := by
  cases r with
  | error err => cases h
  | ok served =>
    obtain rfl := List.mem_singleton.mp h
    exact ⟨⟨rfl, rfl, rfl⟩, show "embedding" ≠ "guard" by decide⟩

theorem turnedAway_kept {x : LaneM EmbedCall (EmbeddingResponse F × Bool)} {e : GatewayError} (h : g.entryOf req = .ok entry)
    (hrejects : g.guard.RejectsAll llm (entry.policy.getD "default") (embeddingLeaves req.input.intoVec))
    (hx : x.result = .error e) (hguards : x.Emits (·.IsGuard))
    (howned : ∀ e, .row e ∈ x.events → (g.laneCtx ctx (uuid 0)).Owns e) :
    EmbedKept llm g limit ctx (uuid 0) req x where
  unserved e' h' := by
    rw [h] at h'
    cases h'
  rejected _ _ _ := ⟨⟨e, hx⟩, hguards⟩
  sent entry' h' hpass := by
    obtain rfl := Except.ok.inj (h.symm.trans h')
    exact absurd hrejects hpass
  served _ out _ hout := by
    rw [hx] at hout
    cases hout
  failed _ _ := LaneEvent.filterMap_guard (fun _ hev => hev.usage) hguards
  guardFirst := List.pairwise_of_forall_mem_list fun ev hev _ _ _ => hguards ev hev
  owned := howned

theorem asked_kept {guards : List (LaneEvent EmbedCall)} {masked : Bool} (h : g.entryOf req = .ok entry)
    (hpass : ¬ g.guard.RejectsAll llm (entry.policy.getD "default") (embeddingLeaves req.input.intoVec))
    (hguards : ∀ ev ∈ guards, ev.IsGuard) (howned : ∀ e, .row e ∈ guards → (g.laneCtx ctx (uuid 0)).Owns e)
    {legs : Except GatewayError (ChainLeg × EmbedOut F)}
    (hlegs : legs = g.embedLegs limit (g.shownInputs llm entry req.input.intoVec) entry.dimensions req.model 0 none entry.legs) :
    EmbedKept llm g limit ctx (uuid 0) req ⟨legs.map fun served => (buildResponse req.model served.2, masked),
      guards ++ (g.callsOf limit (g.shownInputs llm entry req.input.intoVec) entry.dimensions 0 entry.legs).map .sent ++
        (g.servedRows ctx req.model (ctx.requestIdOr (uuid 0)) legs).map .row⟩ := by
  obtain ⟨hsends, husage⟩ := LaneEvent.filterMap_lane hguards
    (g.callsOf limit (g.shownInputs llm entry req.input.intoVec) entry.dimensions 0 entry.legs)
    fun e he => (@servedRows_owned F g uuid ctx req legs e he).2
  refine ⟨fun e' h' => ?_, fun entry' h' hrejects => ?_, fun entry' h' _ => ?_, fun entry' out h' hout => ?_, fun e he => ?_,
    ?_, fun e he => ?_⟩
  · rw [h] at h'
    cases h'
  · obtain rfl := Except.ok.inj (h.symm.trans h')
    exact absurd hrejects hpass
  · obtain rfl := Except.ok.inj (h.symm.trans h')
    exact hsends
  · obtain rfl := Except.ok.inj (h.symm.trans h')
    obtain ⟨served, hserved, rfl⟩ := Fallible.of_map_ok hout
    rw [hserved] at hlegs
    obtain ⟨k, e, earlier, hserves, hbefore, hcalls⟩ := callsOf_served hlegs.symm
    rw [Nat.zero_add] at hbefore hcalls
    refine ⟨k, served.1, e, earlier, hserves, hbefore, hsends.trans hcalls, husage.trans ?_⟩
    rw [hserved]
    rfl
  · refine husage.trans ?_
    rw [Fallible.of_map_error he]
    rfl
  · rw [List.append_assoc]
    refine LaneEvent.pairwise_guard hguards fun ev hev => ?_
    rcases List.mem_append.mp hev with hev | hev
    · obtain ⟨call, -, rfl⟩ := List.mem_map.mp hev
      exact id
    · obtain ⟨e, he, rfl⟩ := List.mem_map.mp hev
      exact (servedRows_owned he).2
  · rcases List.mem_append.mp he with he | he
    · rcases List.mem_append.mp he with he | he
      · exact howned e he
      · obtain ⟨call, -, hcall⟩ := List.mem_map.mp he
        cases hcall
    · obtain ⟨e', he', hrow⟩ := List.mem_map.mp he
      cases hrow
      exact (servedRows_owned he').1

/-- What every embeddings call keeps to. -/
theorem embed_call_kept (llm : LlmGuard) (g : EmbedGateway F) (limit : String → ℕ+) {uuid : Nat → String}
    (huuid : uuid 0 ≠ "") (ctx : RequestCtx) (req : EmbeddingRequest) :
    EmbedKept llm g limit ctx (uuid 0) req (g.embedLane llm limit uuid ctx req) := by
  cases h : g.entryOf req with
  | error e =>
    have hx : g.embedLane llm limit uuid ctx req = ⟨.error e, []⟩ := by
      unfold EmbedGateway.embedLane
      rw [h]
      rfl
    rw [hx]
    refine ⟨fun e' h' => ?_, fun entry h' => ?_, fun entry h' => ?_, fun entry _ h' => ?_, fun _ _ => rfl, .nil, fun e' he => ?_⟩
    · rw [Except.error.inj (h'.symm.trans h)]
    · rw [h] at h'
      cases h'
    · rw [h] at h'
      cases h'
    · rw [h] at h'
      cases h'
    · cases he
  | ok entry =>
    have hrejects := @guardLane_error_iff llm g.guard (g.laneCtx ctx (uuid 0)) req.model entry.policy .embeddings
      (embeddingLeaves req.input.intoVec) EmbedCall
    obtain ⟨e, hs, hx⟩ | ⟨screened, legs, hs, -, hlegs, hx⟩ := @embedLane_cases F llm g limit uuid ctx req entry huuid h _ rfl
    · rw [hx]
      exact turnedAway_kept h (hrejects.mp ⟨e, hs⟩) rfl guardLane_guard fun e => guardLane_owned
    · rw [hx]
      refine asked_kept h (fun hreject => ?_) guardLane_guard (fun e => guardLane_owned) hlegs
      obtain ⟨e, he⟩ := hrejects.mpr hreject
      rw [hs] at he
      cases he

theorem word_embedded_kept : ∃ x, x = embedGateway.embedLane substringGuard embedBatchLimit (fun _ => "req-1") {}
      { input := .one "one".toList, model := "embed" } ∧
    EmbedKept substringGuard embedGateway embedBatchLimit {} "req-1" { input := .one "one".toList, model := "embed" } x ∧
      x.sends.map (·.inputs) = [["one".toList]] := by
  refine ⟨_, rfl, @embed_call_kept _ _ _ _ (fun _ => "req-1") (by decide) _ _, ?_⟩
  have hbatches : splitBatches ["one".toList] (embedBatchLimit "openai") = [["one".toList]] := by
    rw [splitBatches, Chunks.chunks_of_ne_nil (List.cons_ne_nil _ _)]
    exact congrArg (List.cons _) Chunks.chunks_nil
  have hlegs : ∃ served, embedGateway.legsLane embedBatchLimit ["one".toList] 2 "embed" 0 none [shortLeg] =
      ⟨.ok served, [.sent ⟨0, shortLeg, 0, ["one".toList], 2⟩]⟩ := by
    rw [EmbedGateway.legsLane]
    simp only [embedGateway, shortLeg, if_true, hbatches]
    exact ⟨_, rfl⟩
  obtain ⟨served, hlegs⟩ := hlegs
  have hlane : embedGateway.embedLane substringGuard embedBatchLimit (fun _ => "req-1") {}
      { input := .one "one".toList, model := "embed" } =
        Trace.bind (embedGateway.legsLane embedBatchLimit ["one".toList] 2 "embed" 0 none [shortLeg]) _ := rfl
  rw [hlane, hlegs]
  rfl

end

end SynapseGateway
