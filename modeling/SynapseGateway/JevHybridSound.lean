import SynapseGateway.JevHybrid
import SynapseGateway.Lib.Firsts

/-!
# Each survivor its own text

What is sent for a survivor is what the first candidate with its key says, with a
text slot more for each one that filling in the key makes. `hybrid_extracts_own`:
when that is the survivor's own prompt.
-/

namespace SynapseGateway

open Firsts (IsFirst find?_isFirst)
open Template (fill occurrences Slots twice_eq_fill_iff)
open Utf8 (Text)

/-! ## The law -/

/-- The candidate's question is answered with the floor or more, or the lane is exhausted. -/
def Survives (asF64 : Json → Option ℚ) (spec : ExtractSpec) (attempt : JevAttempt) (c : ExtractCandidate) : Prop :=
  match attempt with
  | .exhausted _ => True
  | .decided _ answers => ∃ v, asF64 ((answers.key c.question).key "noul") = some v ∧ spec.floor ≤ v

def survivesB (asF64 : Json → Option ℚ) (spec : ExtractSpec) (attempt : JevAttempt) (c : ExtractCandidate) : Bool :=
  match attempt with
  | .exhausted _ => true
  | .decided _ answers => (asF64 ((answers.key c.question).key "noul")).any fun v => spec.floor ≤ v

theorem survivesB_iff {asF64 : Json → Option ℚ} {spec : ExtractSpec} {attempt : JevAttempt} {c : ExtractCandidate} :
    survivesB asF64 spec attempt c = true ↔ Survives asF64 spec attempt c := by
  cases attempt with
  | exhausted failures => simp [survivesB, Survives]
  | decided completion answers => simp [survivesB, Survives, Option.any_eq_true]

instance (asF64 : Json → Option ℚ) (spec : ExtractSpec) (attempt : JevAttempt) :
    DecidablePred (Survives asF64 spec attempt) := fun _ => decidable_of_iff _ survivesB_iff

def surviving (asF64 : Json → Option ℚ) (spec : ExtractSpec) (attempt : JevAttempt) : List ExtractCandidate :=
  spec.candidates.filter fun c => Survives asF64 spec attempt c

def extractionOf : HybridEvent → Option (ExtractCandidate × ExtractionRequest)
  | .extraction c request => some (c, request)
  | _ => none

theorem extractionOf_extraction (c : ExtractCandidate) (request : ExtractionRequest) :
    extractionOf (.extraction c request) = some (c, request) := rfl

/-- The key and the text that an extraction is for, and the contents it sends. -/
def sent (e : ExtractCandidate × ExtractionRequest) : Text × Text × List Json :=
  (e.1.key, e.1.text, e.2.messages.map (·.content))

/-- The slots of the template filled at once. -/
def ownPrompt (spec : ExtractSpec) (c : ExtractCandidate) : Text × Text × List Json :=
  (c.key, c.text, [.string (fill KEY_SLOT TEXT_SLOT c.key c.text spec.prompt)])

/-- The run returns, and it extracts from the surviving candidates, in their order. -/
def ExtractsOwn (asF64 : Json → Option ℚ) (spec : ExtractSpec) (attempt : JevAttempt) (run : HybridM HybridOutcome) :
    Prop :=
  (∃ outcome, run.result = .ok outcome) ∧
    (run.events.filterMap extractionOf).map sent = (surviving asF64 spec attempt).map (ownPrompt spec)

/-! ## What the run sends -/

/-- The candidate that is found by the key of `c`. -/
def servedFor (spec : ExtractSpec) (c : ExtractCandidate) : ExtractCandidate :=
  (spec.candidates.find? fun d => d.key == c.key).getD c

section
variable {w : HybridOutside} {ctx : ChatContext} {req : HybridRequest} {spec : ExtractSpec}

theorem find?_servedFor {c : ExtractCandidate} (hc : c ∈ spec.candidates) :
    spec.candidates.find? (fun d => d.key == c.key) = some (servedFor spec c) ∧
      ∀ d, IsFirst ExtractCandidate.key c.key spec.candidates d ↔ d = servedFor spec c := by
  obtain ⟨b, hb, hfirst⟩ := @find?_isFirst _ _ ExtractCandidate.key _ _ hc (fun d => d.key == c.key) fun d => beq_iff_eq
  have hserved : servedFor spec c = b := by
    rw [servedFor, hb]
    rfl
  rw [hserved]
  exact ⟨hb, hfirst⟩

theorem servedFor_key {c : ExtractCandidate} (hc : c ∈ spec.candidates) : (servedFor spec c).key = c.key := by
  obtain ⟨before, after, -, hkey, -⟩ := ((find?_servedFor hc).2 _).mpr rfl
  exact hkey

theorem messages_extractionRequest (req : HybridRequest) (spec : ExtractSpec) (c : ExtractCandidate) :
    (extractionRequest req spec c).messages.map (·.content) = [.string (substitutePrompt spec.prompt c.key c.text)] := by
  unfold extractionRequest
  split
  · rfl
  · rfl

theorem afterExtraction_ok (s : HybridState) (key : Text) (r : Except GatewayError (Json × Completion)) :
    ∃ s', (afterExtraction ctx req s key r).result = .ok s' ∧
      (afterExtraction ctx req s key r).events.filterMap extractionOf = [] := by
  cases r with
  | error e => exact ⟨_, rfl, rfl⟩
  | ok served => exact ⟨_, rfl, rfl⟩

/-- One extraction for each candidate, with what is found by its key. -/
theorem extractFrom_served (rest : List ChainLeg) (n : Nat) (s : HybridState) {cs : List ExtractCandidate}
    (hcs : ∀ c ∈ cs, c ∈ spec.candidates) :
    (∃ s', (extractFrom w ctx req spec rest n s (cs.map (·.key))).result = .ok s') ∧
      (extractFrom w ctx req spec rest n s (cs.map (·.key))).events.filterMap extractionOf =
        cs.map fun c => (servedFor spec c, extractionRequest req spec (servedFor spec c)) := by
  induction cs generalizing n s with
  | nil => exact ⟨⟨s, rfl⟩, rfl⟩
  | cons c cs ih =>
    rw [List.forall_mem_cons] at hcs
    obtain ⟨s', hs', hsilent⟩ := @afterExtraction_ok ctx req s c.key
      (extractOne w n req rest (extractionRequest req spec (servedFor spec c)))
    obtain ⟨hresult, hevents⟩ := ih (n + 1) s' hcs.2
    rw [List.map_cons, extractFrom, (find?_servedFor hcs.1).1]
    simp only [Trace.emit_bind, Trace.bind_of_ok hs']
    refine ⟨hresult, ?_⟩
    rw [List.filterMap_cons_some (extractionOf_extraction ..), List.filterMap_append, hsilent, List.nil_append, hevents,
      List.map_cons]

theorem survivors_eq (asF64 : Json → Option ℚ) (spec : ExtractSpec) (attempt : JevAttempt) :
    survivors asF64 attempt.answers spec attempt.completion.isNone = (surviving asF64 spec attempt).map (·.key) := by
  have hsame : surviving asF64 spec attempt = spec.candidates.filter (survivesB asF64 spec attempt) := by
    apply List.filter_congr
    intro c _
    rw [← Bool.decide_coe (survivesB asF64 spec attempt c), decide_eq_decide]
    exact survivesB_iff.symm
  rw [hsame]
  cases attempt with
  | exhausted failures =>
    show spec.candidates.map (·.key) = (spec.candidates.filter fun _ => true).map (·.key)
    rw [List.filter_true]
  | decided completion answers => rfl

theorem recordJev_ok (attempt : JevAttempt) :
    (recordJev ctx req attempt).result = .ok () ∧ (recordJev ctx req attempt).events.filterMap extractionOf = [] := by
  cases attempt with
  | exhausted failures => exact ⟨rfl, rfl⟩
  | decided completion answers => exact ⟨rfl, rfl⟩

theorem judge_silent (legs : List JevCase) : (judge w req legs).events.filterMap extractionOf = [] := by
  rw [judge, List.filterMap_map]
  exact List.filterMap_eq_nil_iff.mpr fun _ _ => rfl

theorem extractions_chatHybrid (hspec : req.extract = some spec) {legs : List JevCase} {attempt : JevAttempt}
    (hattempt : (req.attempt w legs).1 = .ok attempt) :
    (∃ outcome, (chatHybrid w ctx req legs).result = .ok outcome) ∧
      (chatHybrid w ctx req legs).events.filterMap extractionOf =
        (surviving w.asF64 spec attempt).map fun c =>
          (servedFor spec c, extractionRequest req spec (servedFor spec c)) := by
  have hjudge : (judge w req legs).result = .ok attempt := by
    rw [judge, hattempt]
    rfl
  obtain ⟨hrecord, hquiet⟩ := @recordJev_ok ctx req attempt
  unfold chatHybrid
  rw [hspec]
  simp only [Trace.bind_of_ok hjudge, Trace.bind_of_ok hrecord, survivors_eq]
  obtain ⟨⟨s, hs⟩, hevents⟩ := @extractFrom_served w ctx req spec
    ((legs.map (·.1)).filter fun l => l.provider != "typesafe") 0
    { degraded := attempt.completion.isNone
      extractions := []
      inputTokens := (attempt.completion.map (·.inputTokens)).getD 0
      outputTokens := (attempt.completion.map (·.outputTokens)).getD 0 }
    (surviving w.asF64 spec attempt) fun c hc => List.mem_of_mem_filter hc
  rw [Trace.bind_of_ok hs]
  refine ⟨⟨_, rfl⟩, ?_⟩
  simp only [List.filterMap_append, judge_silent, hquiet, hevents, List.nil_append]
  exact List.append_nil _

/-- A run that fails does so before its first row. -/
theorem failed_chatHybrid {legs : List JevCase} {e : HybridFailure} (h : (chatHybrid w ctx req legs).result = .error e) :
    (chatHybrid w ctx req legs).Emits fun ev => ∃ body, ev = .jevCall body := by
  unfold Trace.Emits
  cases hspec : req.extract with
  | none =>
    unfold chatHybrid
    rw [hspec]
    exact fun ev hev => (List.not_mem_nil hev).elim
  | some spec =>
    cases hattempt : (req.attempt w legs).1 with
    | error e' =>
      have hjudge : (judge w req legs).result = .error (.error e') := by
        rw [judge, hattempt]
        rfl
      unfold chatHybrid
      rw [hspec]
      simp only [Trace.bind_of_error hjudge]
      intro ev hev
      obtain ⟨body, -, rfl⟩ := List.mem_map.mp hev
      exact ⟨body, rfl⟩
    | ok attempt =>
      obtain ⟨outcome, houtcome⟩ := (extractions_chatHybrid hspec hattempt).1
      rw [houtcome] at h
      cases h

/-! ## When it is the own prompt -/

theorem slots : Slots KEY_SLOT TEXT_SLOT := by
  constructor
  all_goals decide

/-- The first candidate with the key says the same. -/
def SaidFirst (spec : ExtractSpec) (c : ExtractCandidate) : Prop :=
  ∀ d, IsFirst ExtractCandidate.key c.key spec.candidates d → d.text = c.text

/-- Filling in the key makes no text slot, or what is filled into it is the slot again. -/
def KeepsSlots (spec : ExtractSpec) (c : ExtractCandidate) : Prop :=
  c.text = TEXT_SLOT ∨
    occurrences TEXT_SLOT (fill KEY_SLOT TEXT_SLOT c.key TEXT_SLOT spec.prompt) = occurrences TEXT_SLOT spec.prompt

theorem saidFirst_iff {c : ExtractCandidate} (hc : c ∈ spec.candidates) :
    SaidFirst spec c ↔ (servedFor spec c).text = c.text := by
  unfold SaidFirst
  simp only [(find?_servedFor hc).2, forall_eq]

theorem sent_eq_iff (req : HybridRequest) {c : ExtractCandidate} (hc : c ∈ spec.candidates) :
    sent (servedFor spec c, extractionRequest req spec (servedFor spec c)) = ownPrompt spec c ↔
      SaidFirst spec c ∧ KeepsSlots spec c := by
  rw [saidFirst_iff hc]
  simp only [sent, ownPrompt, messages_extractionRequest, servedFor_key hc, Prod.mk.injEq, true_and, List.cons.injEq,
    and_true, Json.string.injEq]
  apply and_congr_right
  intro htext
  rw [htext]
  exact twice_eq_fill_iff slots c.key c.text spec.prompt

end

theorem saidFirst_of_nodup {spec : ExtractSpec} (hkeys : (spec.candidates.map (·.key)).Nodup) {c : ExtractCandidate}
    (hc : c ∈ spec.candidates) : SaidFirst spec c := by
  rintro d ⟨before, after, heq, hkey, -⟩
  have hd : d ∈ spec.candidates := by
    rw [heq]
    exact List.mem_append_right before List.mem_cons_self
  rw [List.inj_on_of_nodup_map hkeys hd hc hkey]

theorem hybrid_extracts_own (w : HybridOutside) (ctx : ChatContext) (req : HybridRequest) (spec : ExtractSpec)
    (hspec : req.extract = some spec) (legs : List JevCase) (attempt : JevAttempt)
    (hattempt : (req.attempt w legs).1 = .ok attempt) :
    ExtractsOwn w.asF64 spec attempt (chatHybrid w ctx req legs) ↔
      ∀ c ∈ spec.candidates, Survives w.asF64 spec attempt c → SaidFirst spec c ∧ KeepsSlots spec c := by
  obtain ⟨hreturns, hsent⟩ := @extractions_chatHybrid w ctx req spec hspec legs attempt hattempt
  rw [ExtractsOwn, and_iff_right hreturns, hsent, List.map_map, List.map_inj_left]
  constructor
  · intro h c hc hs
    rw [← sent_eq_iff req hc]
    exact h c (List.mem_filter.mpr ⟨hc, decide_eq_true hs⟩)
  · intro h c hc
    obtain ⟨hmem, hs⟩ := List.mem_filter.mp hc
    exact (sent_eq_iff req hmem).mpr (h c hmem (of_decide_eq_true hs))

/-- A key that is a text slot is filled in as one. -/
example : substitutePrompt (KEY_SLOT ++ ": ".toList ++ TEXT_SLOT) TEXT_SLOT "final".toList = "final: final".toList := by
  decide

/-! ## Two candidates of one key -/

def noulQuestion : Json := .object [("type", str "noul")]

def noulAnswer (v : Nat) : Json := .object [("type", str "noul"), ("noul", .number (.posInt v))]

def candidateTemplate : Text := "Candidate ".toList ++ KEY_SLOT ++ ": ".toList ++ TEXT_SLOT

def extractSpec (candidates : List ExtractCandidate) : ExtractSpec where
  floor := 1 / 2
  candidates := candidates
  prompt := candidateTemplate
  responseSchema := .object [("type", str "object")]

def extractRequest (candidates : List ExtractCandidate) : HybridRequest where
  model := "triage"
  messages := []
  jev := some {
    questions := [("first", noulQuestion), ("second", noulQuestion)]
    extract := some (extractSpec candidates) }

theorem accepted_extractRequest {showF64 : ℚ → String} (candidates : List ExtractCandidate)
    (hgates : ∀ c ∈ candidates, c.question = "first" ∨ c.question = "second") :
    validateExtract showF64 (extractRequest candidates) true false = .ok () := by
  apply (validateExtract_ok_iff rfl rfl).mpr
  exact {
    unary := by simp [extractRequest]
    chat := rfl
    vertex := by simp [extractRequest, vertexTriggers]
    floor := by norm_num [extractSpec]
    slot := show TEXT_SLOT <:+: candidateTemplate by decide
    schema := rfl
    gated := by
      intro c hc
      refine ⟨noulQuestion, ?_, rfl⟩
      rcases hgates c hc with h | h
      · rw [h]
        rfl
      · rw [h]
        rfl }

def secondReply : Json := .object [("answers", .object [("first", noulAnswer 0), ("second", noulAnswer 1)])]

/-- Jev says no to the first question and yes to the second one. -/
def secondOutside : HybridOutside where
  wire := {
    fromSlice bytes := if bytes = utf8Bytes secondReply.toText then .ok secondReply else .error "expected value"
    statusText := toString }
  asF64
    | .number (.posInt n) => some n
    | _ => none
  fromStr _ := none
  jevConfigured := true
  vertexConfigured := false
  call _ _ _ := .unbuilt
  start _ _ _ := .error .upstreamTimeout

def judgingLeg : JevCase := (⟨"typesafe", "jev-2", none, none⟩, .response 200 (.ok (utf8Bytes secondReply.toText)))
def extractingLeg : JevCase := (⟨"mistral", "small", none, none⟩, .sendFailed "connection refused")

theorem attempt_second (candidates : List ExtractCandidate) :
    ((extractRequest candidates).attempt secondOutside [judgingLeg, extractingLeg]).1 =
      .ok (decision judgingLeg.1 secondReply) := by
  have hparse : secondOutside.wire.fromSlice (utf8Bytes secondReply.toText) = .ok secondReply := by
    simp [secondOutside]
  have hround : jevRound secondOutside.wire judgingLeg = .ok (.ok (decision judgingLeg.1 secondReply)) :=
    jevRound_decides ⟨rfl, hparse⟩
  show (jevFrom secondOutside.wire _ [] [] [judgingLeg]).1 = _
  rw [jevFrom, hround]

def otherCandidate : ExtractCandidate := ⟨"c1".toList, "second", "final".toList⟩
def firstCandidate : ExtractCandidate := ⟨"c0".toList, "first", "draft".toList⟩
def secondCandidate : ExtractCandidate := ⟨"c0".toList, "second", "final".toList⟩

theorem survives_secondCandidate {spec : ExtractSpec} (hfloor : spec.floor = 1 / 2) :
    Survives secondOutside.asF64 spec (decision judgingLeg.1 secondReply) secondCandidate := by
  refine ⟨1, rfl, ?_⟩
  rw [hfloor]
  norm_num

theorem hybrid_extracts_own_keys : ExtractsOwn secondOutside.asF64 (extractSpec [firstCandidate, otherCandidate])
    (decision judgingLeg.1 secondReply)
    (chatHybrid secondOutside ⟨"triage", "none", "acme", {}, "r1"⟩ (extractRequest [firstCandidate, otherCandidate])
      [judgingLeg, extractingLeg]) := by
  apply (hybrid_extracts_own secondOutside ⟨"triage", "none", "acme", {}, "r1"⟩
    (extractRequest [firstCandidate, otherCandidate]) (extractSpec [firstCandidate, otherCandidate]) rfl _ _
    (attempt_second _)).mpr
  intro c hc _
  refine ⟨saidFirst_of_nodup (by decide) hc, .inr ?_⟩
  have hpair : c = firstCandidate ∨ c = otherCandidate := by simpa [extractSpec] using hc
  rcases hpair with rfl | rfl
  · decide
  · decide

/-- The text sent for the second candidate is that of the first, which is below the floor. -/
theorem below_floor_text_sent : ¬ ∀ (showF64 : ℚ → String) (w : HybridOutside) (ctx : ChatContext) (req : HybridRequest)
    (spec : ExtractSpec) (legs : List JevCase) (attempt : JevAttempt), req.extract = some spec →
    validateExtract showF64 req (legs.any fun l => l.1.provider != "typesafe")
      (legs.any fun l => l.1.provider == "vertex") = .ok () →
    (req.attempt w legs).1 = .ok attempt → ExtractsOwn w.asF64 spec attempt (chatHybrid w ctx req legs) := by
  intro h
  have hlaw := h (fun _ => "0.5") secondOutside ⟨"triage", "none", "acme", {}, "r1"⟩
    (extractRequest [firstCandidate, secondCandidate]) (extractSpec [firstCandidate, secondCandidate])
    [judgingLeg, extractingLeg] _ rfl ?_ (attempt_second _)
  · have hmem : secondCandidate ∈ (extractSpec [firstCandidate, secondCandidate]).candidates := by simp [extractSpec]
    obtain ⟨-, hsent⟩ := hlaw
    rw [(extractions_chatHybrid rfl (attempt_second _)).2, List.map_map, List.map_inj_left] at hsent
    have hsecond := hsent secondCandidate (List.mem_filter.mpr ⟨hmem, decide_eq_true (survives_secondCandidate rfl)⟩)
    rw [Function.comp_apply, sent_eq_iff _ hmem, saidFirst_iff hmem] at hsecond
    exact absurd hsecond.1 (by decide)
  · exact accepted_extractRequest _ (by simp [firstCandidate, secondCandidate])

end SynapseGateway
