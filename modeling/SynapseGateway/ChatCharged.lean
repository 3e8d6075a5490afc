import SynapseGateway.ChainWalkSound
import SynapseGateway.ChatCallSound
import SynapseGateway.GuardedStreamSound
import SynapseGateway.JevHybridSound

/-!
# What a chat call is charged for

The last thing a served call sends goes to the leg that gave the reply, and the
row of the reply names that leg: at once where the call is buffered, when the
stream is dropped where it is not.
-/

namespace SynapseGateway

open Attempts (firstOk tried firstOk_ok)
open Trace (Emits)

/-- The lane of a call's chat legs. -/
def ChatCallRequest.legLane (req : ChatCallRequest) : String :=
  if vertexTriggers req.toRoutedRequest then "native" else "standard"

/-- The last thing sent for a reply: to a leg of the call's own lane, or to Jev. -/
def ChatCallEvent.Gave (req : ChatCallRequest) (lane provider model : String) : ChatCallEvent → Prop
  | .legCall leg trace _ => lane = req.legLane ∧ (lane = "native" → provider = "vertex") ∧ 0 < trace.attempts ∧
      leg.provider = provider ∧ leg.model = model
  | .jevCall _ => lane = "jev" ∧ provider = "typesafe"
  | _ => False

def ChatCallEvent.IsReplyRow : ChatCallEvent → Prop
  | .row e => e.op = "chat"
  | _ => False

/-- A run that gives a reply of `lane` sends to the leg that gives it last. -/
def GivenBy (req : ChatCallRequest) (lane : String) (by_ : β → String × String) (x : ChatCallM β) : Prop :=
  ∀ b, x.result = .ok b → ∃ before gave, x.events = before ++ [gave] ∧ gave.Gave req lane (by_ b).1 (by_ b).2

def Completion.leg (c : Completion) : String × String := (c.provider, c.model)

def CommittedStream.leg (s : CommittedStream) : String × String := (s.provider, s.model)

/-- The usage that was read from a stream after `n` polls. -/
def GuardedStream.usageRead (s : GuardedStream) (g : ChatGateway) (n : Nat) : StreamSideEffects :=
  (consumed (s.polls g.llm g.guard n).1).foldl StreamSideEffects.note s.guard

structure Charged (g : ChatGateway) (w : ChatOutside) (ctx : RequestCtx) (req : ChatCallRequest) : Prop where
  plain : ∀ c report, (g.chatRouted w ctx req).result = .ok (.plain c, report) → ∃ before gave lane status,
    (g.chatRouted w ctx req).events = before ++ [gave, .row (g.chatRow w ctx req.model lane c status)] ∧
      gave.Gave req lane c.provider c.model ∧ ∀ ev ∈ before, ¬ ev.IsReplyRow
  failed : ∀ e, (g.chatRouted w ctx req).result = .error e →
    ∀ ev ∈ (g.chatRouted w ctx req).events, ¬ ev.IsReplyRow
  unwritten : ∀ ev ∈ (g.chatStream w ctx req).events, ¬ ev.IsReplyRow
  streamed : ∀ s report, (g.chatStream w ctx req).result = .ok (s, report) → ∃ before gave lane,
    (g.chatStream w ctx req).events = before ++ [gave] ∧ gave.Gave req lane s.guard.provider s.guard.model ∧
      ∀ n, ∃ status, (s.polls g.llm g.guard n).2.drop =
        [g.usage w ctx req.model s.guard.provider s.guard.model lane (s.usageRead g n).inputTokens
          (s.usageRead g n).outputTokens status "chat"]

section
variable {g : ChatGateway} {w : ChatOutside} {ctx : RequestCtx} {req : ChatCallRequest}

theorem gave_congr {req' : ChatCallRequest} {ev : ChatCallEvent} {lane provider model : String}
    (h : req'.legLane = req.legLane) (hg : ev.Gave req' lane provider model) : ev.Gave req lane provider model := by
  cases ev with
  | legCall leg trace messages => exact ⟨hg.1.trans h, hg.2⟩
  | _ => exact hg

/-! ## The legs of a walk -/

theorem map_fst_placed (f : Nat → α) (legs : List ChainLeg) : (placed f legs).map (·.1) = legs := by
  unfold placed
  rw [List.map_map]
  exact List.zipIdx_map_fst 0 legs

theorem reached_visited {visited : List (ChainLeg × α)} (trace : ChainLeg × α → CallTrace) (rest : List (ChainLeg × α)) :
    reached req ((visited ++ rest).map (·.1)) (visited.map trace) =
      visited.map fun l => .legCall l.1 (trace l) req.messages := by
  unfold reached
  induction visited with
  | nil => simp
  | cons l visited ih =>
    simp only [List.cons_append, List.map_cons, List.zip_cons_cons]
    rw [ih]

theorem concluded_ok {route : String} {failures : List LegFailure} {allOpen : Bool} {r : Except (List LegFault) β} {b : β}
    (h : concluded route failures allOpen r = .ok b) : r = .ok b := by
  cases r with
  | error faults => cases h
  | ok b' =>
    cases h
    rfl

theorem walk_gave (hreq : vertexTriggers req.toRoutedRequest = false) {leg : β → String × String}
    {attempt : LegCase → Except LegFault β} (trace : LegCase → CallTrace)
    (hleg : ∀ l b, attempt l = .ok b → 0 < (trace l).attempts ∧ leg b = (l.1.provider, l.1.model)) {legs : List ChainLeg} {b : β}
    (h : firstOk attempt (placed w.provider legs) = .ok b) :
    ∃ before gave, reached req legs ((tried attempt (placed w.provider legs)).map trace) = before ++ [gave] ∧
      gave.Gave req "standard" (leg b).1 (leg b).2 := by
  have hlane : "standard" = req.legLane := by rw [ChatCallRequest.legLane, hreq]; rfl
  obtain ⟨pre, l, post, hlegs, htried, hl, -⟩ := firstOk_ok h
  have hplaced : legs = ((pre ++ [l]) ++ post).map (·.1) := by
    rw [List.append_assoc, List.singleton_append, ← hlegs, map_fst_placed]
  obtain ⟨hcalled, hb⟩ := hleg l b hl
  rw [htried, hplaced, reached_visited, List.map_append, hb]
  exact ⟨_, _, rfl, hlane, fun hnative => absurd hnative (by decide), hcalled, rfl, rfl⟩

theorem attempts_of_opened {p : BuiltProvider} {s : OpenedStream} (h : (commitOneLeg p).1 = .ok s) :
    0 < (commitOneLeg p).2.attempts := by
  have hout := commitOneLeg_outcome p
  generalize commitOneLeg p = r at h hout
  cases hout with
  | refused name hname => cases h
  | failed e n hnone hr => cases h
  | opened s n hnone hr => exact hr.pos

theorem bufferedTry_leg (l : LegCase) (c : Completion) (h : bufferedTry l = .ok c) :
    0 < (bufferedTrace l).attempts ∧ c.leg = (l.1.provider, l.1.model) := by
  have hc : LegCompletes l c := bufferedTry_eq_ok.mp h
  obtain ⟨leg, provider⟩ := l
  unfold LegCompletes at hc
  unfold bufferedTrace
  cases legOutcome (leg, provider) with
  | unbuilt hnone =>
    obtain rfl : provider = none := hnone
    cases hc
  | refused p name hp hname hcall =>
    obtain rfl : provider = some p := hp
    simp only [bufferLeg, hcall] at hc
    cases hc
  | failed p e n hp hnone hcall =>
    obtain rfl : provider = some p := hp
    simp only [bufferLeg, hcall] at hc
    cases hc
  | opened p s n hp hnone hcall =>
    obtain rfl : provider = some p := hp
    have hcalled := attempts_of_opened (p := p) (s := s) (by rw [hcall])
    rw [hcall] at hcalled
    rcases bufferLeg_opened leg hcall with ⟨c', hprovider, hmodel, hbuffer⟩ | ⟨error, kind, status, hbuffer⟩
    · rw [hbuffer] at hc ⊢
      obtain rfl := Except.ok.inj hc
      exact ⟨hcalled, Prod.ext hprovider hmodel⟩
    · rw [hbuffer] at hc
      cases hc

theorem streamingTry_leg (l : LegCase) (s : CommittedStream) (h : streamingTry l = .ok s) :
    0 < (streamingTrace l).attempts ∧ s.leg = (l.1.provider, l.1.model) := by
  obtain ⟨p, opened, hp, hopened, rfl⟩ := streamingTry_eq_ok.mp h
  obtain ⟨leg, provider⟩ := l
  obtain rfl : provider = some p := hp
  exact ⟨attempts_of_opened hopened, rfl⟩

theorem standardBuffered_givenBy (hreq : vertexTriggers req.toRoutedRequest = false) (legs : List ChainLeg) :
    GivenBy req "standard" Completion.leg (standardBuffered w req legs) := by
  intro c h
  have hwalk : (executeBufferedWithTimeouts req.model (placed w.provider legs)).1 = .ok c := Fallible.of_mapError_ok h
  show ∃ before gave, reached req legs (executeBufferedWithTimeouts req.model (placed w.provider legs)).2 = _ ∧ _
  rw [executeBuffered_eq] at hwalk ⊢
  exact walk_gave hreq bufferedTrace bufferedTry_leg (concluded_ok hwalk)

theorem standardStreaming_givenBy (hreq : vertexTriggers req.toRoutedRequest = false) (legs : List ChainLeg) :
    GivenBy req "standard" CommittedStream.leg (standardStreaming w req legs) := by
  intro s h
  have hwalk : (executeStreamingWithTimeouts req.model (placed w.provider legs)).1 = .ok s := Fallible.of_mapError_ok h
  show ∃ before gave, reached req legs (executeStreamingWithTimeouts req.model (placed w.provider legs)).2 = _ ∧ _
  rw [executeStreaming_eq] at hwalk ⊢
  exact walk_gave hreq streamingTrace streamingTry_leg (concluded_ok hwalk)

theorem started_gave {route : String} {failures : List LegFailure} {last : Option GatewayError}
    {legs : List (ChainLeg × Except GatewayError (List (Except LegError StreamItem)))} {s : CommittedStream}
    (h : nativeFrom route failures last legs = .ok s) :
    ∃ before leg, started legs = before ++ [leg] ∧ leg ∈ legs.map (·.1) ∧ s.leg = ("vertex", leg.model) := by
  induction legs generalizing failures last with
  | nil => cases h
  | cons l legs ih =>
    obtain ⟨leg, e | stream⟩ := l
    · rw [nativeFrom] at h
      rw [started]
      by_cases he : nativeStartRetryable e = true
      · rw [if_pos he] at h ⊢
        obtain ⟨before, served, hstarted, hmem, hs⟩ := ih h
        exact ⟨leg :: before, served, by rw [hstarted]; rfl, List.mem_cons_of_mem leg hmem, hs⟩
      · rw [if_neg he] at h
        cases h
    · cases h
      exact ⟨[], leg, rfl, List.mem_cons_self, rfl⟩

theorem native_givenBy (hreq : vertexTriggers req.toRoutedRequest = true) (legs : List ChainLeg) :
    GivenBy req "native" CommittedStream.leg (g.native w req legs) := by
  have hlane : "native" = req.legLane := by rw [ChatCallRequest.legLane, hreq]; rfl
  intro s h
  have hcommitted : nativeCommitted g.vertexConfigured req.model (placed w.start legs) = .ok s := Fallible.of_mapError_ok h
  unfold nativeCommitted at hcommitted
  unfold ChatGateway.native
  by_cases hv : g.vertexConfigured = true
  · simp only [hv, Bool.not_true, Bool.false_eq_true, if_false] at hcommitted
    split at hcommitted
    · cases hcommitted
    · obtain ⟨before, leg, hstarted, hmem, hs⟩ := started_gave hcommitted
      obtain ⟨l, hl, rfl⟩ := List.mem_map.mp hmem
      have hvertex : l.1.provider = "vertex" := beq_iff_eq.mp (List.mem_filter.mp hl).2
      simp only [hv, if_true, hstarted, List.map_append]
      rw [hs]
      exact ⟨_, _, rfl, hlane, fun _ => rfl, Nat.zero_lt_one, hvertex, rfl⟩
  · simp only [hv] at hcommitted
    cases hcommitted

theorem collectCommitted_leg {s : CommittedStream} {c : Completion} (h : collectCommitted s = .ok c) : c.leg = s.leg := by
  obtain ⟨acc, -, rfl⟩ := Fallible.of_map_ok h
  rfl

theorem nativeBuffered_givenBy (hreq : vertexTriggers req.toRoutedRequest = true) (legs : List ChainLeg) :
    GivenBy req "native" Completion.leg (g.nativeBuffered w req legs) := by
  intro c h
  unfold ChatGateway.nativeBuffered at h ⊢
  cases hn : (g.native w req legs).result with
  | error e =>
    rw [Trace.bind_of_error hn] at h
    cases h
  | ok s =>
    rw [Trace.bind_of_ok hn] at h ⊢
    have hc : collectCommitted s = .ok c := Fallible.of_mapError_ok h
    obtain ⟨before, gave, hevents, hgave⟩ := native_givenBy hreq legs s hn
    refine ⟨before, gave, ?_, collectCommitted_leg hc ▸ hgave⟩
    show (g.native w req legs).events ++ [] = _
    rw [List.append_nil, hevents]

theorem jevRound_provider {wire : JevWire} {l : JevCase} {c : Completion} {answers : Json}
    (h : jevRound wire l = .ok (.ok (.decided c answers))) : c.provider = "typesafe" := by
  by_cases hread : l.2.ReadFails
  · obtain ⟨e, he⟩ := @jevRound_readFails wire _ hread
    exact nomatch he.symm.trans h
  by_cases hretry : l.2.Retryable
  · obtain ⟨failure, hfailure⟩ := @jevRound_advances wire _ hretry hread
    exact nomatch hfailure.symm.trans h
  rcases @decides_or_refuses wire _ hretry with ⟨value, hvalue⟩ | hrefuses
  · cases (jevRound_decides hvalue).symm.trans h
    rfl
  · obtain ⟨e, he⟩ := jevRound_refuses hrefuses
    exact nomatch he.symm.trans h

theorem attempt_gave {legs : List ChainLeg} {c : Completion} {answers : Json}
    (h : (g.attempt w req legs).result = .ok (.decided c answers)) :
    ∃ before gave, (g.attempt w req legs).events = before ++ [gave] ∧ gave.Gave req "jev" c.provider c.model ∧
      c.provider = "typesafe" := by
  have hattempt : (jevAttempt w.wire req.model req.messages req.jev g.jevConfigured (placed w.jevReply legs)).1 =
      .ok (.decided c answers) := Fallible.of_mapError_ok h
  show ∃ before gave, (jevAttempt w.wire req.model req.messages req.jev g.jevConfigured (placed w.jevReply legs)).2.map
    ChatCallEvent.jevCall = _ ∧ _
  unfold jevAttempt at hattempt ⊢
  by_cases hlegs : (typesafeLegs (placed w.jevReply legs)).isEmpty = true
  · rw [if_pos hlegs] at hattempt
    cases hattempt
  rw [if_neg hlegs] at hattempt ⊢
  cases hext : req.jev.filter fun ext => !ext.questions.isEmpty with
  | none =>
    rw [hext] at hattempt
    cases hattempt
  | some ext =>
    simp only [hext] at hattempt ⊢
    by_cases hj : g.jevConfigured = true
    · rw [if_pos hj, jevFrom_nil_eq] at hattempt ⊢
      cases hfirst : firstOk (jevRound w.wire) (typesafeLegs (placed w.jevReply legs)) with
      | error failures =>
        rw [hfirst] at hattempt
        cases hattempt
      | ok r =>
        rw [hfirst] at hattempt
        obtain rfl : r = .ok (.decided c answers) := hattempt
        obtain ⟨pre, l, post, -, htried, hl, -⟩ := firstOk_ok hfirst
        rw [htried, List.map_append, List.map_append]
        exact ⟨_, _, rfl, ⟨rfl, jevRound_provider hl⟩, jevRound_provider hl⟩
    · rw [if_neg hj] at hattempt
      cases hattempt

theorem classify_standard (h : classify req = .standard) : vertexTriggers req.toRoutedRequest = false := by
  unfold classify at h
  split at h
  · cases h
  · split at h
    · cases h
    · rename_i ht
      exact eq_false_of_ne_true ht

theorem classify_native (h : classify req = .nativeVertex) : vertexTriggers req.toRoutedRequest = true := by
  unfold classify at h
  split at h
  · cases h
  · split at h
    · rename_i ht
      exact ht
    · cases h

/-- Whatever lane serves a call, the leg that gives the reply is the last that is sent to. -/
theorem serve_gave {standard native : List ChainLeg → ChatCallM β} (decided : Completion → β) {leg : β → String × String}
    (hdecided : ∀ c, c.provider = "typesafe" → leg (decided c) = c.leg)
    (hstandard : vertexTriggers req.toRoutedRequest = false → ∀ legs, GivenBy req "standard" leg (standard legs))
    (hnative : vertexTriggers req.toRoutedRequest = true → ∀ legs, GivenBy req "native" leg (native legs))
    {legs : List ChainLeg} {served : β × String}
    (h : (g.serve w standard native decided req legs).result = .ok served) :
    ∃ before gave, (g.serve w standard native decided req legs).events = before ++ [gave] ∧
      gave.Gave req served.2 (leg served.1).1 (leg served.1).2 := by
  have hlane : ∀ (x : ChatCallM β) (lane : String), GivenBy req lane leg x →
      (x >>= fun s => (pure (s, lane) : ChatCallM (β × String))).result = .ok served →
        ∃ before gave, (x >>= fun s => (pure (s, lane) : ChatCallM (β × String))).events = before ++ [gave] ∧
          gave.Gave req served.2 (leg served.1).1 (leg served.1).2 := by
    intro x lane hx hresult
    cases hr : x.result with
    | error e =>
      rw [Trace.bind_of_error hr] at hresult
      cases hresult
    | ok s =>
      rw [Trace.bind_of_ok hr] at hresult ⊢
      cases hresult
      obtain ⟨before, gave, hevents, hgave⟩ := hx s hr
      exact ⟨before, gave, (List.append_nil _).trans hevents, hgave⟩
  unfold ChatGateway.serve at h ⊢
  cases hc : classify req with
  | standard =>
    rw [hc] at h
    exact hlane _ _ (hstandard (classify_standard hc) legs) h
  | nativeVertex =>
    rw [hc] at h
    exact hlane _ _ (hnative (classify_native hc) legs) h
  | jev =>
    simp only [hc] at h ⊢
    cases ha : (g.attempt w req legs).result with
    | error e =>
      rw [Trace.bind_of_error ha] at h
      cases h
    | ok attempt =>
      rw [Trace.bind_of_ok ha] at h ⊢
      cases attempt with
      | decided completion answers =>
        cases h
        obtain ⟨before, gave, hevents, hgave, hprovider⟩ := attempt_gave ha
        exact ⟨before, gave, (List.append_nil _).trans hevents, (hdecided completion hprovider).symm ▸ hgave⟩
      | exhausted failures =>
        have hthen : ∀ x : ChatCallM (β × String), (∃ before gave, x.events = before ++ [gave] ∧
            gave.Gave req served.2 (leg served.1).1 (leg served.1).2) →
              ∃ before gave, (g.attempt w req legs).events ++ x.events = before ++ [gave] ∧
                gave.Gave req served.2 (leg served.1).1 (leg served.1).2 := by
          rintro x ⟨before, gave, hevents, hgave⟩
          exact ⟨(g.attempt w req legs).events ++ before, gave, by rw [hevents, List.append_assoc], hgave⟩
        simp only at h ⊢
        refine hthen _ ?_
        split at h
        · cases h
        · rename_i hrest
          rw [if_neg hrest]
          split at h
          · rename_i ht
            rw [if_pos ht]
            exact hlane _ _ (hnative ht _) h
          · rename_i ht
            rw [if_neg ht]
            exact hlane _ _ (hstandard (eq_false_of_ne_true ht) _) h

/-! ## Rows -/

def ChatCallEvent.Unwritten (ev : ChatCallEvent) : Prop := ¬ ev.IsReplyRow

theorem guardInput_unwritten : (g.guardInput w ctx req).Emits ChatCallEvent.Unwritten := by
  intro ev hev
  rcases List.mem_append.mp hev with hev | hev
  · obtain ⟨text, -, rfl⟩ := List.mem_map.mp hev
    exact not_false
  · obtain ⟨e, he, rfl⟩ := List.mem_map.mp hev
    exact (guardRows_owned he).2.1

theorem decide_unwritten (route : JevRoute) : (g.decide w ctx req route).Emits ChatCallEvent.Unwritten := by
  unfold Emits
  rcases @decide_events g w ctx req route with h | h | ⟨e, h, he⟩
  · rw [h]
    simp
  · rw [h]
    exact List.forall_mem_singleton.mpr not_false
  · have hop : e.op ≠ "chat" := by
      rw [he.op]
      decide
    rw [h]
    exact List.forall_mem_cons.mpr ⟨not_false, List.forall_mem_singleton.mpr hop⟩

theorem planRoute_unwritten : (g.planRoute w ctx req).Emits ChatCallEvent.Unwritten :=
  (emits_refuse _ _).bind fun _ _ => guardInput_unwritten.bind fun _ _ =>
    (planFor_emits (fun route _ => decide_unwritten route) _ _).bind fun _ _ => Trace.emits_pure _ _

theorem reached_unwritten (legs : List ChainLeg) (traces : List CallTrace) :
    ∀ ev ∈ reached req legs traces, ev.Unwritten := by
  intro ev hev
  obtain ⟨p, -, rfl⟩ := List.mem_map.mp hev
  exact not_false

theorem standardBuffered_unwritten (legs : List ChainLeg) : (standardBuffered w req legs).Emits ChatCallEvent.Unwritten :=
  reached_unwritten legs _

theorem standardStreaming_unwritten (legs : List ChainLeg) :
    (standardStreaming w req legs).Emits ChatCallEvent.Unwritten :=
  reached_unwritten legs _

theorem native_unwritten (legs : List ChainLeg) : (g.native w req legs).Emits ChatCallEvent.Unwritten := by
  unfold ChatGateway.native Emits
  simp only
  split
  · intro ev hev
    obtain ⟨leg, -, rfl⟩ := List.mem_map.mp hev
    exact not_false
  · simp

theorem attempt_unwritten (legs : List ChainLeg) : (g.attempt w req legs).Emits ChatCallEvent.Unwritten := by
  intro ev hev
  obtain ⟨body, -, rfl⟩ := List.mem_map.mp hev
  exact not_false

theorem serveBuffered_unwritten (legs : List ChainLeg) :
    (g.serve w (standardBuffered w req) (g.nativeBuffered w req) id req legs).Emits ChatCallEvent.Unwritten :=
  serve_emits id attempt_unwritten standardBuffered_unwritten
    (fun legs => (native_unwritten legs).bind fun _ _ => emits_refuse _ _) legs

theorem serveStreaming_unwritten (legs : List ChainLeg) :
    (g.serve w (standardStreaming w req) (g.native w req) jevCommitted req legs).Emits ChatCallEvent.Unwritten :=
  serve_emits jevCommitted attempt_unwritten standardStreaming_unwritten native_unwritten legs

/-- A hybrid call that fails has written no row. -/
theorem hybrid_unwritten {legs : List ChainLeg} {e : HybridFailure} (h : (g.hybrid w ctx req legs).result = .error e) :
    (g.hybrid w ctx req legs).Emits ChatCallEvent.Unwritten := by
  intro ev hev
  obtain ⟨e', he', rfl⟩ := List.mem_map.mp hev
  obtain ⟨body, rfl⟩ := failed_chatHybrid h e' he'
  exact not_false

/-! ## The dropped stream -/

/-- A guard of the call of `e`, with its own usage and status. -/
def StreamSideEffects.CallOf (e e' : StreamSideEffects) : Prop :=
  e' = { e with inputTokens := e'.inputTokens, outputTokens := e'.outputTokens, status := e'.status }

theorem callOf_refl (e : StreamSideEffects) : e.CallOf e := rfl

theorem note_callOf {e e' : StreamSideEffects} (h : e.CallOf e') (ev : Event) : e.CallOf (e'.note ev) := by
  unfold StreamSideEffects.CallOf at h ⊢
  rw [h]
  rcases ev with _ | _ | item
  · rfl
  · rfl
  · cases item <;> rfl

theorem foldl_note_callOf {e e' : StreamSideEffects} (h : e.CallOf e') (c : List Event) :
    e.CallOf (c.foldl StreamSideEffects.note e') := by
  induction c generalizing e' with
  | nil => exact h
  | cons ev c ih => exact ih (note_callOf h ev)

/-- Whenever a stream is dropped, its row has the usage of what was read. -/
theorem dropped_row (llm : LlmGuard) (eng : GuardEngine) (inner : Upstream) (effects : StreamSideEffects) (policy : String)
    (output : Option OutputGuard) (n : Nat) : ∃ status,
      ((GuardedStream.new inner effects policy output).polls llm eng n).2.drop =
        ({ (consumed ((GuardedStream.new inner effects policy output).polls llm eng n).1).foldl StreamSideEffects.note effects
            with status := status } : StreamSideEffects).drop.1 := by
  have h := polls_inv (n := n) (new_inv llm eng inner effects policy output)
  rw [List.nil_append, List.nil_append] at h
  unfold GuardedStream.drop
  rcases h.state with ⟨hf, -⟩ | ⟨before, ev, scanners, hc, hb⟩
  · exact ⟨_, by rw [hf.guard]; rfl⟩
  · exact ⟨"blocked", by rw [hb.guard, hc]; rfl⟩

theorem drop_of_callOf {e e' : StreamSideEffects} (h : e.CallOf e') (hfired : e.fired = false) (status : String) :
    ({ e' with status := status } : StreamSideEffects).drop.1 =
      [{ tenant := e.tenant
         attribution := e.attribution
         route := e.route
         provider := e.provider
         model := e.model
         lane := e.lane
         inputTokens := e'.inputTokens
         outputTokens := e'.outputTokens
         requestId := e.requestId
         status := status
         op := "chat" }] := by
  unfold StreamSideEffects.CallOf at h
  unfold StreamSideEffects.drop
  rw [h, if_neg (by simp [hfired])]

/-! ## The calls -/

theorem planRoute_carries {planned : ChatCallRequest × RoutePlan} (h : (g.planRoute w ctx req).result = .ok planned) :
    planned.1 = req.carrying (g.screenedMessages req) := by
  cases hres : g.resolve req with
  | error e =>
    rw [planRoute_error_eq hres] at h
    cases h
  | ok resolved =>
    rw [planRoute_ok_eq hres] at h
    cases hs : (g.guardInput w ctx req).result with
    | error e =>
      rw [Trace.bind_of_error hs] at h
      cases h
    | ok screened =>
      rw [Trace.bind_of_ok hs] at h
      exact (planScreened_ok h).trans (guardInput_ok hs)

theorem screenReply_leg (policy lane : String) (guard : Option String) (c : Completion) :
    (g.screenReply policy lane guard c).1.leg = c.leg := by
  unfold ChatGateway.screenReply
  split
  · simp only
    split <;> rfl
  · rfl

end

theorem chat_call_charged (g : ChatGateway) (w : ChatOutside) (ctx : RequestCtx) (req : ChatCallRequest) :
    Charged g w ctx req where
  plain := by
    intro c report h
    unfold ChatGateway.chatRouted at h ⊢
    obtain ⟨planned, hp, h, hevents⟩ := Trace.of_bind_ok h
    have hmodel : planned.1.model = req.model := by rw [planRoute_carries hp]; rfl
    have hlane : planned.1.legLane = req.legLane := by rw [planRoute_carries hp]; rfl
    rw [hevents]
    obtain ⟨-, -, h, hevents⟩ := Trace.of_bind_ok h
    rw [hevents]
    split at h
    · obtain ⟨outcome, -, h, -⟩ := Trace.of_bind_ok h
      cases h
    · rename_i hext
      rw [if_neg hext]
      obtain ⟨served, hs, h, hevents⟩ := Trace.of_bind_ok h
      rw [hevents]
      obtain ⟨before, gave, hserve, hgave⟩ := serve_gave id (fun _ _ => rfl) standardBuffered_givenBy nativeBuffered_givenBy hs
      have hleg := screenReply_leg (g := g) (g.policyFor planned.1) served.2 planned.2.guard served.1
      cases h
      have hbefore : ∀ ev ∈ (g.planRoute w ctx req).events ++ before, ¬ ev.IsReplyRow := by
        intro ev hev
        rcases List.mem_append.mp hev with hev | hev
        · exact planRoute_unwritten ev hev
        · exact serveBuffered_unwritten _ ev (hserve ▸ List.mem_append_left [gave] hev)
      refine ⟨(g.planRoute w ctx req).events ++ before, gave, served.2,
        (g.screenReply (g.policyFor planned.1) served.2 planned.2.guard served.1).2.1, ?_, ?_, hbefore⟩
      · rw [hserve, ← hmodel]
        show _ ++ ([] ++ (before ++ [gave] ++ [ChatCallEvent.row _])) = _ ++ before ++ [gave, ChatCallEvent.row _]
        rw [List.nil_append, List.append_assoc, List.append_assoc]
        rfl
      · show gave.Gave req served.2 (Completion.leg _).1 (Completion.leg _).2
        rw [hleg]
        exact gave_congr hlane hgave
  failed := by
    intro e h ev hev
    unfold ChatGateway.chatRouted at h hev
    refine Trace.emits_bind_of_error planRoute_unwritten (fun planned _ h => ?_) h ev hev
    refine Trace.emits_bind_of_error (emits_refuse _ _) (fun _ _ h => ?_) h
    split at h
    · rename_i hext
      rw [if_pos hext]
      cases hr : (g.hybrid w ctx planned.1 planned.2.chain).result with
      | error e' =>
        rw [Trace.bind_of_error hr]
        exact hybrid_unwritten hr
      | ok outcome =>
        rw [Trace.bind_of_ok hr] at h
        cases h
    · rename_i hext
      rw [if_neg hext]
      refine Trace.emits_bind_of_error (serveBuffered_unwritten _) (fun _ _ h => ?_) h
      cases h
  unwritten := by
    intro ev hev
    exact (planRoute_unwritten.bind fun planned _ => (emits_refuse _ _).bind fun _ _ =>
      (serveStreaming_unwritten _).bind fun _ _ => Trace.emits_pure _ _) ev hev
  streamed := by
    intro s report h
    unfold ChatGateway.chatStream at h ⊢
    obtain ⟨planned, hp, h, hevents⟩ := Trace.of_bind_ok h
    have hmodel : planned.1.model = req.model := by rw [planRoute_carries hp]; rfl
    have hlane : planned.1.legLane = req.legLane := by rw [planRoute_carries hp]; rfl
    rw [hevents]
    obtain ⟨-, -, h, hevents⟩ := Trace.of_bind_ok h
    rw [hevents]
    obtain ⟨served, hs, h, hevents⟩ := Trace.of_bind_ok h
    rw [hevents]
    obtain ⟨before, gave, hserve, hgave⟩ := serve_gave jevCommitted (fun _ hc => Prod.ext hc.symm rfl)
      standardStreaming_givenBy native_givenBy hs
    cases h
    refine ⟨(g.planRoute w ctx req).events ++ before, gave, served.2, ?_, gave_congr hlane hgave, fun n => ?_⟩
    · rw [hserve]
      show _ ++ ([] ++ (before ++ [gave] ++ [])) = _
      rw [List.nil_append, List.append_nil, List.append_assoc]
    · obtain ⟨status, hstatus⟩ := dropped_row g.llm g.guard (served.1.stream.map some) _ _ _ n
      rw [hstatus, drop_of_callOf (foldl_note_callOf (callOf_refl _) _) rfl, hmodel]
      exact ⟨status, rfl⟩

end SynapseGateway
