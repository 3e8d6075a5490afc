import Mathlib.Data.Rat.Defs
import SynapseGateway.Chat
import SynapseGateway.Lib.Attempts
import SynapseGateway.Passthrough
import SynapseGateway.Request

/-!
# The Jev lane

The `typesafe` legs of a route answer the typed questions of a request. The
first leg that answers decides; a failure worth a retry moves to the next.
`jev_failover`: this is so as long as no body that is reached fails to be read.
-/

namespace SynapseGateway

open Attempts (firstOk tried firstOk_of_ok firstOk_of_errors errors_of_forall all_or_first ok_or_errors)
open Utf8 (Text)

structure ExtractCandidate where
  key : Text
  question : String
  text : Text
deriving DecidableEq

structure ExtractSpec where
  floor : ℚ
  candidates : List ExtractCandidate
  prompt : Text
  responseSchema : Json

structure JevExt where
  questions : List (String × Json)
  state : Option Text := none
  extract : Option ExtractSpec := none

/-- What a leg's call gives: the request is not sent, or a status with a body
that is read or fails to be. -/
inductive JevLegReply where
  | sendFailed (message : String)
  | response (status : Nat) (body : Except String Bytes)

abbrev JevCase := ChainLeg × JevLegReply

/-- The parser of a body, and a status as it prints with its reason. -/
structure JevWire where
  fromSlice : Bytes → Except String Json
  statusText : Nat → String

inductive JevAttempt where
  | decided (completion : Completion) (answers : Json)
  | exhausted (failures : List LegFailure)

/-! ## The body sent -/

def DEFAULT_MODEL : String := "jev-latest"

def jevModel (leg : ChainLeg) : String := if leg.model.isEmpty then DEFAULT_MODEL else leg.model

def Message.toJson (m : Message) : Json :=
  .object ([("role", str m.role)] ++
    (match m.content with
      | .null => []
      | content => [("content", content)]) ++
    (m.toolCalls.map fun calls => ("tool_calls", Json.array calls)).toList ++
    (m.toolCallId.map fun id => ("tool_call_id", Json.string id)).toList ++
    (m.name.map fun name => ("name", Json.string name)).toList)

def jevBody (messages : List Message) (ext : JevExt) (leg : ChainLeg) : Json :=
  (Json.object [
    ("state", .string (ext.state.getD (Json.array (messages.map Message.toJson)).toText)),
    ("questions", .object ext.questions)]).set "model" (str (jevModel leg))

/-! ## A leg -/

def jevStatusRetryable (status : Nat) : Bool := 500 ≤ status && status < 600 || status == 429 || status == 408

def decision (leg : ChainLeg) (value : Json) : JevAttempt :=
  .decided
    { provider := "typesafe"
      model := ((value.key "model").asStr.map String.ofList).getD (jevModel leg)
      content := (value.key "answers").toText
      toolCalls := []
      finishReason := .stop
      inputTokens := ((value.key "usage").key "input_tokens").asU64.getD 0
      outputTokens := ((value.key "usage").key "output_tokens").asU64.getD 0 }
    (value.key "answers")

def jevFailure (leg : ChainLeg) (message : String) : LegFailure := ⟨leg.provider, jevModel leg, message⟩

/-- A round of the loop: a failure to go on from, or what the attempt returns. -/
def jevRound (wire : JevWire) : JevCase → Except LegFailure (Except GatewayError JevAttempt)
  | (leg, .sendFailed message) =>
    let e := GatewayError.upstream 502 message
    if nativeStartRetryable e then .error (jevFailure leg e.message) else .ok (.error e)
  | (_, .response _ (.error message)) => .ok (.error (.upstream 502 message))
  | (leg, .response status (.ok bytes)) =>
    if isSuccess status then
      match wire.fromSlice bytes with
      | .error message => .ok (.error (.upstream 502 ("jev response is not JSON: " ++ message)))
      | .ok value => .ok (.ok (decision leg value))
    else
      let message := String.ofList (fromUtf8Lossy bytes)
      if jevStatusRetryable status then .error (jevFailure leg (wire.statusText status ++ ": " ++ message))
      else .ok (.error (.badRequest ("typesafe " ++ toString status ++ ": " ++ message)))

/-- The attempt over the legs left, with the failures and the bodies so far. -/
def jevFrom (wire : JevWire) (body : ChainLeg → Json) (failures : List LegFailure) (sent : List Json) :
    List JevCase → Except GatewayError JevAttempt × List Json
  | [] => (.ok (.exhausted failures), sent)
  | l :: legs =>
    match jevRound wire l with
    | .ok r => (r, sent ++ [body l.1])
    | .error failure => jevFrom wire body (failures ++ [failure]) (sent ++ [body l.1]) legs

def typesafeLegs (legs : List JevCase) : List JevCase := legs.filter fun l => l.1.provider == "typesafe"

/-- What `jev_attempt` returns, and the bodies it sends. -/
def jevAttempt (wire : JevWire) (route : String) (messages : List Message) (jev : Option JevExt) (configured : Bool)
    (legs : List JevCase) : Except GatewayError JevAttempt × List Json :=
  if (typesafeLegs legs).isEmpty then (.ok (.exhausted []), [])
  else
    match jev.filter fun ext => !ext.questions.isEmpty with
    | none =>
      (.error (.badRequest ("route '" ++ route ++
        "' uses provider 'typesafe'; send a 'jev' extension block with questions")), [])
    | some ext =>
      if configured then jevFrom wire (jevBody messages ext) [] [] (typesafeLegs legs)
      else (.error (.badRequest "typesafe legs require TYPESAFE_API_KEY to be configured"), [])

/-! ## The failover law -/

/-- A failure that another leg may not meet: the status, or the transport while
sending or reading. -/
def JevLegReply.Retryable : JevLegReply → Prop
  | .sendFailed _ => True
  | .response _ (.error _) => True
  | .response status (.ok _) => jevStatusRetryable status = true

def JevLegReply.ReadFails : JevLegReply → Prop
  | .response _ (.error _) => True
  | _ => False

def JevLegReply.Decides (wire : JevWire) (value : Json) : JevLegReply → Prop
  | .response status (.ok bytes) => isSuccess status = true ∧ wire.fromSlice bytes = .ok value
  | _ => False

/-- A body that is read, of neither kind. -/
def JevLegReply.Refuses (wire : JevWire) : JevLegReply → Prop
  | .response status (.ok bytes) =>
    jevStatusRetryable status = false ∧ (isSuccess status = true → ∃ message, wire.fromSlice bytes = .error message)
  | _ => False

structure JevFailsOver (wire : JevWire) (body : ChainLeg → Json) (legs : List JevCase)
    (r : Except GatewayError JevAttempt × List Json) : Prop where
  decided : ∀ pre l post value, legs = pre ++ l :: post → (∀ x ∈ pre, x.2.Retryable) → l.2.Decides wire value →
    r = (.ok (decision l.1 value), (pre ++ [l]).map fun x => body x.1)
  refused : ∀ pre l post, legs = pre ++ l :: post → (∀ x ∈ pre, x.2.Retryable) → l.2.Refuses wire →
    ∃ e, r = (.error e, (pre ++ [l]).map fun x => body x.1)
  exhausted : (∀ x ∈ legs, x.2.Retryable) → ∃ failures, r = (.ok (.exhausted failures), legs.map fun x => body x.1) ∧
    failures.map (fun f => (f.provider, f.model)) = legs.map fun x => (x.1.provider, jevModel x.1)

/-- No leg that is reached fails while its body is read. -/
def ReadsReached (legs : List JevCase) : Prop :=
  ∀ pre l post, legs = pre ++ l :: post → (∀ x ∈ pre, x.2.Retryable) → ¬ l.2.ReadFails

/-! ## The loop as its first stop -/

def attempted : Except (List LegFailure) (Except GatewayError JevAttempt) → Except GatewayError JevAttempt
  | .ok r => r
  | .error failures => .ok (.exhausted failures)

section
variable {wire : JevWire}

theorem jevFrom_eq (body : ChainLeg → Json) (failures : List LegFailure) (sent : List Json) (legs : List JevCase) :
    jevFrom wire body failures sent legs =
      (attempted ((firstOk (jevRound wire) legs).mapError (failures ++ ·)),
        sent ++ (tried (jevRound wire) legs).map fun x => body x.1) := by
  induction legs generalizing failures sent with
  | nil => simp [jevFrom, firstOk, tried, attempted, Except.mapError]
  | cons l legs ih =>
    rw [jevFrom, firstOk, tried]
    cases jevRound wire l with
    | ok r => rfl
    | error failure =>
      simp only [ih, List.map_cons, List.append_assoc, List.singleton_append]
      cases firstOk (jevRound wire) legs with
      | ok r => rfl
      | error rest => rfl

theorem jevFrom_nil_eq (body : ChainLeg → Json) (legs : List JevCase) :
    jevFrom wire body [] [] legs =
      (attempted (firstOk (jevRound wire) legs), (tried (jevRound wire) legs).map fun x => body x.1) := by
  rw [jevFrom_eq]
  cases firstOk (jevRound wire) legs with
  | ok r => rfl
  | error failures => rfl

theorem success_not_retryable {status : Nat} (h : isSuccess status = true) : jevStatusRetryable status = false := by
  simp only [isSuccess, jevStatusRetryable, Bool.and_eq_true, decide_eq_true_eq, Bool.or_eq_false_iff] at *
  simp
  omega

theorem jevRound_advances {l : JevCase} (h : l.2.Retryable) (hread : ¬ l.2.ReadFails) :
    ∃ failure, jevRound wire l = .error failure := by
  obtain ⟨leg, ⟨message⟩ | ⟨status, message | bytes⟩⟩ := l
  · exact ⟨_, rfl⟩
  · exact absurd trivial hread
  · have hstatus : jevStatusRetryable status = true := h
    have hsuccess : isSuccess status = false := by
      cases hs : isSuccess status with
      | false => rfl
      | true =>
        rw [success_not_retryable hs] at hstatus
        cases hstatus
    simp only [jevRound, hsuccess, hstatus]
    exact ⟨_, rfl⟩

theorem jevRound_readFails {l : JevCase} (h : l.2.ReadFails) : ∃ e, jevRound wire l = .ok (.error e) := by
  obtain ⟨leg, ⟨message⟩ | ⟨status, message | bytes⟩⟩ := l
  · exact absurd h id
  · exact ⟨_, rfl⟩
  · exact absurd h id

theorem jevRound_decides {l : JevCase} {value : Json} (h : l.2.Decides wire value) :
    jevRound wire l = .ok (.ok (decision l.1 value)) := by
  obtain ⟨leg, ⟨message⟩ | ⟨status, message | bytes⟩⟩ := l
  · exact absurd h id
  · exact absurd h id
  · simp only [jevRound, h.1, ite_true, h.2]

theorem jevRound_refuses {l : JevCase} (h : l.2.Refuses wire) : ∃ e, jevRound wire l = .ok (.error e) := by
  obtain ⟨leg, ⟨message⟩ | ⟨status, message | bytes⟩⟩ := l
  · exact absurd h id
  · exact absurd h id
  · obtain ⟨hstatus, hparse⟩ := h
    by_cases hs : isSuccess status = true
    · obtain ⟨message, hm⟩ := hparse hs
      simp only [jevRound, hs, ite_true, hm]
      exact ⟨_, rfl⟩
    · simp only [jevRound, hs, hstatus]
      exact ⟨_, rfl⟩

theorem decides_or_refuses {r : JevLegReply} (h : ¬ r.Retryable) : (∃ value, r.Decides wire value) ∨ r.Refuses wire := by
  obtain ⟨message⟩ | ⟨status, message | bytes⟩ := r
  · exact absurd trivial h
  · exact absurd trivial h
  · have hstatus : jevStatusRetryable status = false := by simpa [JevLegReply.Retryable] using h
    cases hparse : wire.fromSlice bytes with
    | error message => exact .inr ⟨hstatus, fun _ => ⟨message, hparse⟩⟩
    | ok value =>
      by_cases hs : isSuccess status = true
      · exact .inl ⟨value, hs, hparse⟩
      · exact .inr ⟨hstatus, fun h => absurd h hs⟩

theorem failure_names {l : JevCase} {failure : LegFailure} (h : jevRound wire l = .error failure) :
    (failure.provider, failure.model) = (l.1.provider, jevModel l.1) := by
  obtain ⟨leg, ⟨message⟩ | ⟨status, message | bytes⟩⟩ := l
  · simp only [jevRound] at h
    split at h
    · cases h
      rfl
    · cases h
  · cases h
  · simp only [jevRound] at h
    by_cases hs : isSuccess status = true
    · simp only [hs, ite_true] at h
      cases hparse : wire.fromSlice bytes with
      | error message => simp [hparse] at h
      | ok value => simp [hparse] at h
    · simp only [hs] at h
      by_cases hr : jevStatusRetryable status = true
      · simp only [hr] at h
        cases h
        rfl
      · simp [hr] at h

theorem failures_names {legs : List JevCase} {failures : List LegFailure}
    (h : List.Forall₂ (fun l failure => jevRound wire l = .error failure) legs failures) :
    failures.map (fun f => (f.provider, f.model)) = legs.map fun x => (x.1.provider, jevModel x.1) := by
  induction h with
  | nil => rfl
  | cons hl _ ih => rw [List.map_cons, List.map_cons, failure_names hl, ih]

/-! ## The law -/

theorem failsOver_of_readsReached {legs : List JevCase} (body : ChainLeg → Json) (h : ReadsReached legs) :
    JevFailsOver wire body legs (jevFrom wire body [] [] legs) := by
  have hadvance : ∀ pre post, legs = pre ++ post → (∀ x ∈ pre, x.2.Retryable) →
      ∀ x ∈ pre, ∃ failure, jevRound wire x = .error failure := by
    intro pre post heq hpre x hx
    obtain ⟨p, q, rfl⟩ := List.append_of_mem hx
    apply jevRound_advances (hpre x hx)
    apply h p x (q ++ post)
    · rw [heq, List.append_assoc, List.cons_append]
    · exact fun y hy => hpre y (List.mem_append_left _ hy)
  rw [jevFrom_nil_eq]
  constructor
  · intro pre l post value heq hpre hl
    obtain ⟨hfirst, htried⟩ := firstOk_of_ok post (hadvance pre (l :: post) heq hpre) (jevRound_decides hl)
    rw [heq, hfirst, htried]
    rfl
  · intro pre l post heq hpre hl
    obtain ⟨e, he⟩ := jevRound_refuses hl
    obtain ⟨hfirst, htried⟩ := firstOk_of_ok post (hadvance pre (l :: post) heq hpre) he
    rw [heq, hfirst, htried]
    exact ⟨e, rfl⟩
  · intro hall
    obtain ⟨failures, hfailures⟩ := errors_of_forall (hadvance legs [] (List.append_nil legs).symm hall)
    obtain ⟨hfirst, htried⟩ := firstOk_of_errors hfailures
    rw [hfirst, htried]
    exact ⟨failures, rfl, failures_names hfailures⟩

theorem retryable_of_readFails {r : JevLegReply} (h : r.ReadFails) : r.Retryable := by
  obtain ⟨message⟩ | ⟨status, message | bytes⟩ := r
  · trivial
  · trivial
  · exact absurd h id

theorem readsReached_of_stop {pre post : List JevCase} {l : JevCase} (hpre : ∀ x ∈ pre, ¬ x.2.ReadFails)
    (hl : ¬ l.2.Retryable) : ReadsReached (pre ++ l :: post) := by
  intro p x q heq hp hx
  rcases List.append_eq_append_iff.mp heq with ⟨t, rfl, ht⟩ | ⟨t, rfl, ht⟩
  · cases t with
    | nil =>
      cases ht
      exact hl (retryable_of_readFails hx)
    | cons y t =>
      cases ht
      exact hl (hp l (List.mem_append_right pre List.mem_cons_self))
  · cases t with
    | nil =>
      cases ht
      exact hl (retryable_of_readFails hx)
    | cons y t =>
      cases ht
      exact hpre x (List.mem_append_right p List.mem_cons_self) hx

/-- The loop returns the error of the read, where the law goes on. -/
theorem not_failsOver_of_readFails {pre : List JevCase} (post : List JevCase) {l : JevCase} (body : ChainLeg → Json)
    (hpre : ∀ x ∈ pre, x.2.Retryable ∧ ¬ x.2.ReadFails) (hl : l.2.ReadFails) :
    ¬ JevFailsOver wire body (pre ++ l :: post) (jevFrom wire body [] [] (pre ++ l :: post)) := by
  intro law
  obtain ⟨e, he⟩ := jevRound_readFails hl
  obtain ⟨hfirst, htried⟩ := firstOk_of_ok post (fun x hx => jevRound_advances (hpre x hx).1 (hpre x hx).2) he
  rw [jevFrom_nil_eq, hfirst, htried] at law
  rcases all_or_first (fun x : JevCase => x.2.Retryable) (pre ++ l :: post) with hall | ⟨p, x, q, heq, hp, hx⟩
  · obtain ⟨failures, hr, -⟩ := law.exhausted hall
    cases (Prod.ext_iff.mp hr).1
  · rcases decides_or_refuses hx with ⟨value, hdecides⟩ | hrefuses
    · cases (Prod.ext_iff.mp (law.decided p x q value heq hp hdecides)).1
    · obtain ⟨e', hr⟩ := law.refused p x q heq hp hrefuses
      have hsent := congrArg List.length (Prod.ext_iff.mp hr).2
      simp only [List.length_map, List.length_append, List.length_singleton, Nat.add_right_cancel_iff] at hsent
      obtain ⟨-, htail⟩ := List.append_inj heq hsent
      cases htail
      exact hx (retryable_of_readFails hl)

theorem failsOver_iff (body : ChainLeg → Json) (legs : List JevCase) :
    JevFailsOver wire body legs (jevFrom wire body [] [] legs) ↔ ReadsReached legs := by
  refine ⟨fun law => ?_, failsOver_of_readsReached body⟩
  rcases all_or_first (fun x : JevCase => x.2.Retryable ∧ ¬ x.2.ReadFails) legs with hall | ⟨pre, l, post, rfl, hpre, hl⟩
  · rintro p x q rfl -
    exact (hall x (List.mem_append_right p List.mem_cons_self)).2
  · by_cases hread : l.2.ReadFails
    · exact absurd law (not_failsOver_of_readFails post body hpre hread)
    · exact readsReached_of_stop (fun x hx => (hpre x hx).2) fun h => hl ⟨h, hread⟩

end

theorem jev_failover (wire : JevWire) (route : String) (messages : List Message) (ext : JevExt)
    (hquestions : ext.questions ≠ []) (legs : List JevCase) :
    JevFailsOver wire (jevBody messages ext) (typesafeLegs legs) (jevAttempt wire route messages (some ext) true legs) ↔
      ReadsReached (typesafeLegs legs) := by
  rw [← failsOver_iff (jevBody messages ext)]
  have hsome : (some ext).filter (fun ext => !ext.questions.isEmpty) = some ext := by
    simp [Option.filter, hquestions]
  unfold jevAttempt
  rw [hsome]
  cases hlegs : typesafeLegs legs with
  | nil => rfl
  | cons l rest => rfl

/-- A parser that knows the empty object. -/
def emptyObjectWire : JevWire where
  fromSlice bytes := if bytes = [123, 125] then .ok (.object []) else .error "expected value"
  statusText status := if status = 503 then "503 Service Unavailable" else toString status

def oneQuestion : JevExt := { questions := [("urgent", .object [("type", str "noul")])] }

def busyLeg : JevCase := (⟨"typesafe", "", none, none⟩, .response 503 (.ok []))
def cutLeg : JevCase := (⟨"typesafe", "", none, none⟩, .response 200 (.error "connection reset"))
def answeringLeg : JevCase := (⟨"typesafe", "jev-2", none, none⟩, .response 200 (.ok [123, 125]))

theorem jev_failover_busy :
    JevFailsOver emptyObjectWire (jevBody [] oneQuestion) (typesafeLegs [busyLeg, answeringLeg])
      (jevAttempt emptyObjectWire "triage" [] (some oneQuestion) true [busyLeg, answeringLeg]) := by
  rw [jev_failover emptyObjectWire "triage" [] oneQuestion (by simp [oneQuestion])]
  show ReadsReached ([busyLeg] ++ answeringLeg :: [])
  apply readsReached_of_stop
  · intro x hx
    rw [List.mem_singleton.mp hx]
    exact id
  · show ¬ jevStatusRetryable 200 = true
    decide

/-- The second leg would have answered. -/
theorem cut_body_refused : ¬ ∀ (wire : JevWire) (route : String) (messages : List Message) (ext : JevExt),
    ext.questions ≠ [] → ∀ legs : List JevCase,
    JevFailsOver wire (jevBody messages ext) (typesafeLegs legs)
      (jevAttempt wire route messages (some ext) true legs) := by
  intro h
  have law := h emptyObjectWire "triage" [] oneQuestion (by simp [oneQuestion]) [cutLeg, answeringLeg]
  have hdecided := law.decided [cutLeg] answeringLeg [] (.object []) rfl (fun x hx => ?_) ⟨rfl, rfl⟩
  · cases (Prod.ext_iff.mp hdecided).1
  · rw [List.mem_singleton.mp hx]
    trivial

end SynapseGateway
