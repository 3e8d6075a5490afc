import SynapseGateway.Lib.Fallible
import SynapseGateway.Lib.Template
import SynapseGateway.Lib.Trace
import SynapseGateway.RoutePlanner

/-!
# Hybrid extraction

Jev judges the candidates of a request; a chat leg extracts from each that
survives. The survivors are carried as keys and looked up again by key, and the
two slots of the prompt are filled one after the other.
-/

namespace SynapseGateway

open Fallible (refuseIf refuseIf_ok_iff bind_ok_iff forM_ok_iff)
open Template (replaceWord)
open Utf8 (Text)

structure HybridRequest extends RoutedRequest where
  messages : List Message
  stream : Option Bool := none

/-! ## The spec of a request -/

def KEY_SLOT : Text := "\x7b\x7bkey\x7d\x7d".toList

def TEXT_SLOT : Text := "\x7b\x7btext\x7d\x7d".toList

def HybridRequest.extract (req : HybridRequest) : Option ExtractSpec := req.jev.bind (·.extract)

def validateCandidate (questions : List (String × Json)) (c : ExtractCandidate) : Except String Unit :=
  match questions.lookup c.question with
  | some q =>
    refuseIf ((q.key "type").asStr ≠ some "noul".toList)
      ("jev extract candidate '" ++ String.ofList c.key ++ "' is gated by '" ++ c.question ++
        "', which is not a noul question")
  | none =>
    .error ("jev extract candidate '" ++ String.ofList c.key ++ "' is gated by unknown question '" ++ c.question ++ "'")

def Json.isObject : Json → Bool
  | .object _ => true
  | _ => false

/-- `showF64` is how a floor prints. -/
def validateExtract (showF64 : ℚ → String) (req : HybridRequest) (hasChatLegs hasVertexLegs : Bool) :
    Except String Unit :=
  match req.jev with
  | none => .ok ()
  | some ext =>
    match ext.extract with
    | none => .ok ()
    | some spec => do
      refuseIf (req.stream = some true) "jev extract does not support stream: true (hybrid extraction is unary)"
      refuseIf (hasChatLegs = false) ("route '" ++ req.model ++ "' has no chat legs for jev extraction")
      refuseIf (vertexTriggers req.toRoutedRequest = true ∧ hasVertexLegs = false)
        ("route '" ++ req.model ++ "' has no vertex legs for jev extract with native vertex features")
      refuseIf (¬ (0 < spec.floor ∧ spec.floor ≤ 1)) ("jev extract floor must be in (0, 1], got " ++ showF64 spec.floor)
      refuseIf (spec.prompt = [] ∨ ¬ TEXT_SLOT <:+: spec.prompt)
        "jev extract prompt must be non-empty and contain \x7b\x7btext\x7d\x7d"
      refuseIf (spec.responseSchema.isObject = false) "jev extract response_schema must be a JSON object"
      spec.candidates.forM (validateCandidate ext.questions)

/-- What a request to extract from must be. -/
structure Accepted (req : HybridRequest) (ext : JevExt) (spec : ExtractSpec) (hasChatLegs hasVertexLegs : Bool) : Prop where
  unary : req.stream ≠ some true
  chat : hasChatLegs = true
  vertex : vertexTriggers req.toRoutedRequest = true → hasVertexLegs = true
  floor : 0 < spec.floor ∧ spec.floor ≤ 1
  slot : TEXT_SLOT <:+: spec.prompt
  schema : spec.responseSchema.isObject = true
  gated : ∀ c ∈ spec.candidates,
    ∃ q, ext.questions.lookup c.question = some q ∧ (q.key "type").asStr = some "noul".toList

theorem validateCandidate_ok_iff {questions : List (String × Json)} {c : ExtractCandidate} :
    validateCandidate questions c = .ok () ↔
      ∃ q, questions.lookup c.question = some q ∧ (q.key "type").asStr = some "noul".toList := by
  unfold validateCandidate
  cases questions.lookup c.question with
  | none => simp
  | some q => simp [refuseIf_ok_iff]

theorem validateExtract_ok_iff {showF64 : ℚ → String} {req : HybridRequest} {ext : JevExt} {spec : ExtractSpec}
    {hasChatLegs hasVertexLegs : Bool} (hjev : req.jev = some ext) (hspec : ext.extract = some spec) :
    validateExtract showF64 req hasChatLegs hasVertexLegs = .ok () ↔ Accepted req ext spec hasChatLegs hasVertexLegs := by
  have hslot : ¬ (spec.prompt = [] ∨ ¬ TEXT_SLOT <:+: spec.prompt) ↔ TEXT_SLOT <:+: spec.prompt := by
    rw [not_or, not_not]
    refine ⟨And.right, fun h => ⟨?_, h⟩⟩
    rintro hnil
    rw [hnil, List.infix_nil] at h
    cases h
  unfold validateExtract
  simp only [hjev, hspec, bind_ok_iff, refuseIf_ok_iff, forM_ok_iff, validateCandidate_ok_iff, hslot, not_not, Classical.not_imp, not_and,
    Bool.not_eq_false]
  constructor
  · rintro ⟨hunary, hchat, hvertex, hfloor, hprompt, hschema, hgated⟩
    exact ⟨hunary, hchat, hvertex, hfloor, hprompt, hschema, hgated⟩
  · rintro ⟨hunary, hchat, hvertex, hfloor, hprompt, hschema, hgated⟩
    exact ⟨hunary, hchat, hvertex, hfloor, hprompt, hschema, hgated⟩

/-- The keys of the candidates to extract, each one's if the Jev lane is exhausted. -/
def survivors (asF64 : Json → Option ℚ) (answers : Json) (spec : ExtractSpec) (degraded : Bool) : List Text :=
  if degraded then spec.candidates.map (·.key)
  else
    (spec.candidates.filter fun c =>
      (asF64 ((answers.key c.question).key "noul")).any fun v => v ≥ spec.floor).map (·.key)

def substitutePrompt (template key text : Text) : Text := replaceWord TEXT_SLOT text (replaceWord KEY_SLOT key template)

/-! ## One extraction -/

structure ResponseFormat where
  kind : String
  jsonSchema : Option Json

structure ExtractionRequest where
  model : String
  messages : List Message
  vertex : Option VertexExt
  responseFormat : Option ResponseFormat

/-- The Jev lane and the chat legs. What the leg in place `i` gives for the `n`-th
extraction is `call n i` on the standard lane, `start n i` on the native one. -/
structure HybridOutside where
  wire : JevWire
  asF64 : Json → Option ℚ
  fromStr : Text → Option Json
  jevConfigured : Bool
  vertexConfigured : Bool
  call : Nat → Nat → ExtractionRequest → LegCall
  start : Nat → Nat → ExtractionRequest → Except GatewayError (List (Except LegError StreamItem))

def extractionRequest (original : HybridRequest) (spec : ExtractSpec) (candidate : ExtractCandidate) :
    ExtractionRequest :=
  let base : ExtractionRequest := {
    model := original.model
    messages := [{
      role := "system"
      content := .string (substitutePrompt spec.prompt candidate.key candidate.text) }]
    vertex := original.vertex
    responseFormat := none }
  if vertexTriggers original.toRoutedRequest then
    { base with vertex := some { original.vertex.getD {} with responseSchema := some spec.responseSchema } }
  else { base with responseFormat := some ⟨"json_schema", some spec.responseSchema⟩ }

def extractOne (w : HybridOutside) (n : Nat) (original : HybridRequest) (rest : List ChainLeg)
    (request : ExtractionRequest) : Except GatewayError (Json × Completion) :=
  (if vertexTriggers original.toRoutedRequest then
      (nativeCommitted w.vertexConfigured request.model (rest.zipIdx.map fun (leg, i) => (leg, w.start n i request))).bind
        collectCommitted
    else executeBuffered request.model (rest.zipIdx.map fun (leg, i) => (leg, w.call n i request))).map fun c =>
    ((w.fromStr c.content).getD (.string c.content), c)

/-! ## The run -/

inductive HybridEvent where
  | jevCall (body : Json)
  | extraction (candidate : ExtractCandidate) (request : ExtractionRequest)
  | enqueue (row : UsageEntry)

inductive HybridFailure where
  | error (e : GatewayError)
  | panicked (message : String)

abbrev HybridM := Trace HybridEvent HybridFailure

structure HybridState where
  degraded : Bool
  extractions : List (String × Json)
  inputTokens : Nat
  outputTokens : Nat

structure HybridOutcome where
  model : String
  answers : Json
  survivors : List Text
  degraded : Bool
  extractionRan : Bool
  extractions : List (String × Json)
  inputTokens : Nat
  outputTokens : Nat

def JevAttempt.completion : JevAttempt → Option Completion
  | .decided completion _ => some completion
  | .exhausted _ => none

def JevAttempt.answers : JevAttempt → Json
  | .decided _ answers => answers
  | .exhausted _ => .object []

section
variable (w : HybridOutside) (ctx : ChatContext) (req : HybridRequest)

def hybridLane : Lane := if vertexTriggers req.toRoutedRequest then .nativeVertex else .standard

def hybridRow (lane : String) (c : Completion) : HybridEvent :=
  .enqueue { ctx.record .standard c "ok" with route := req.model, lane := lane }

/-- An extraction's completion is written down; a failure only degrades. -/
def afterExtraction (s : HybridState) (key : Text) : Except GatewayError (Json × Completion) → HybridM HybridState
  | .ok (value, completion) => do
    Trace.emit (hybridRow ctx req (hybridLane req).label completion)
    pure { s with
      extractions := Json.insertMember (String.ofList key) value s.extractions
      inputTokens := s.inputTokens + completion.inputTokens
      outputTokens := s.outputTokens + completion.outputTokens }
  | .error _ => pure { s with degraded := true }

/-- The extractions for the keys left, the first of them being the `n`-th. -/
def extractFrom (spec : ExtractSpec) (rest : List ChainLeg) : Nat → HybridState → List Text → HybridM HybridState
  | _, s, [] => pure s
  | n, s, key :: keys =>
    match spec.candidates.find? fun c => c.key == key with
    | none => .fail (.panicked "survivor keys come from spec.candidates")
    | some candidate => do
      let request := extractionRequest req spec candidate
      Trace.emit (.extraction candidate request)
      let s ← afterExtraction ctx req s key (extractOne w n req rest request)
      extractFrom spec rest (n + 1) s keys

def HybridRequest.attempt (legs : List JevCase) : Except GatewayError JevAttempt × List Json :=
  jevAttempt w.wire req.model req.messages req.jev w.jevConfigured legs

def judge (legs : List JevCase) : HybridM JevAttempt :=
  ⟨(req.attempt w legs).1.mapError .error, (req.attempt w legs).2.map .jevCall⟩

def recordJev : JevAttempt → HybridM Unit
  | .decided completion _ => Trace.emit (hybridRow ctx req "jev" completion)
  | .exhausted _ => pure ()

def chatHybrid (legs : List JevCase) : HybridM HybridOutcome :=
  match req.extract with
  | none => .fail (.panicked "chat() validates before dispatch")
  | some spec => do
    let rest := (legs.map (·.1)).filter fun l => l.provider != "typesafe"
    let attempt ← judge w req legs
    recordJev ctx req attempt
    let degraded := attempt.completion.isNone
    let keys := survivors w.asF64 attempt.answers spec degraded
    let s ← extractFrom w ctx req spec rest 0 {
      degraded := degraded
      extractions := []
      inputTokens := (attempt.completion.map (·.inputTokens)).getD 0
      outputTokens := (attempt.completion.map (·.outputTokens)).getD 0 } keys
    pure {
      model := (attempt.completion.map (·.model)).getD DEFAULT_MODEL
      answers := attempt.answers
      survivors := keys
      degraded := s.degraded
      extractionRan := !keys.isEmpty
      extractions := s.extractions
      inputTokens := s.inputTokens
      outputTokens := s.outputTokens }

end

end SynapseGateway
