import SynapseGateway.Json
import SynapseGateway.Stream

/-!
# The standard lane's stream

A `genai` event stream as stream items.
-/

namespace SynapseGateway

open Utf8 (Text)

inductive StopReason where
  | completed | maxTokens | toolCall | other
deriving DecidableEq, Repr

structure Usage where
  promptTokens : Option Int
  completionTokens : Option Int
deriving DecidableEq, Repr

inductive ChatStreamEvent where
  | start
  | chunk (content : Text)
  | reasoningChunk (content : Text)
  | thoughtSignatureChunk (content : Text)
  | toolCallChunk (callId fnName : String) (fnArguments : Json)
  | finish (capturedUsage : Option Usage) (capturedStopReason : Option StopReason)

def mapStopReason : Option StopReason → FinishReason
  | some .toolCall => .toolCalls
  | some .maxTokens => .length
  | _ => .stop

/-- The stable index of a call id, whether it is new, and the ids seen. -/
def indexOf (ids : List String) (callId : String) : Nat × Bool × List String :=
  match ids.idxOf? callId with
  | some pos => (pos, false, ids)
  | none => (ids.length, true, ids ++ [callId])

structure GenaiState where
  ids : List String := []
  inputTokens : Nat := 0
  outputTokens : Nat := 0

def genaiItem (st : GenaiState) : ChatStreamEvent → Option StreamItem × GenaiState
  | .chunk content => (if content.isEmpty then none else some (.delta content), st)
  | .toolCallChunk callId fnName fnArguments =>
    let (index, first, ids) := indexOf st.ids callId
    let args := match fnArguments with
      | .string s => s
      | other => other.toText
    (some (.toolCallDelta index (if first then some callId else none) (if first then some fnName else none) args),
      { st with ids := ids })
  | .finish capturedUsage capturedStopReason =>
    let st := match capturedUsage with
      | none => st
      | some u => { st with
          inputTokens := (u.promptTokens.getD 0).toNat
          outputTokens := (u.completionTokens.getD 0).toNat }
    (some (.done st.inputTokens st.outputTokens (mapStopReason capturedStopReason)), st)
  | .start | .reasoningChunk _ | .thoughtSignatureChunk _ => (none, st)

def normalizedFrom (st : GenaiState) : List (Except String ChatStreamEvent) → List (Except LegError StreamItem)
  | [] => []
  | .error e :: events => .error (.midStream e) :: normalizedFrom st events
  | .ok ev :: events => (genaiItem st ev).1.toList.map .ok ++ normalizedFrom (genaiItem st ev).2 events

def normalizedStream (events : List (Except String ChatStreamEvent)) : List (Except LegError StreamItem) :=
  normalizedFrom {} events

/-! ## What it yields -/

def ChatStreamEvent.isFinish : ChatStreamEvent → Bool
  | .finish _ _ => true
  | _ => false

theorem genaiItem_done (st : GenaiState) (ev : ChatStreamEvent) :
    (genaiItem st ev).1.any StreamItem.isDone = ev.isFinish := by
  cases ev with
  | chunk content => cases content <;> rfl
  | _ => rfl

/-- The stream yields a terminal item exactly when the terminal event came. -/
theorem normalizedFrom_done (events : List (Except String ChatStreamEvent)) (st : GenaiState) :
    (normalizedFrom st events).any isDoneItem = true ↔ ∃ ev, .ok ev ∈ events ∧ ev.isFinish = true := by
  induction events generalizing st with
  | nil => simp [normalizedFrom]
  | cons r events ih =>
    cases r with
    | error e =>
      rw [normalizedFrom, List.any_cons, Bool.or_eq_true, ih]
      simp [isDoneItem]
    | ok ev =>
      have hev : ((genaiItem st ev).1.toList.map Except.ok).any isDoneItem = ev.isFinish := by
        rw [← genaiItem_done st ev]
        cases (genaiItem st ev).1 <;> simp [isDoneItem]
      rw [normalizedFrom, List.any_append, Bool.or_eq_true, hev, ih]
      simp only [List.mem_cons, Except.ok.injEq, or_and_right, exists_or, exists_eq_left]

theorem normalizedFrom_error (events : List (Except String ChatStreamEvent)) (st : GenaiState) :
    (normalizedFrom st events).any isErrorItem = true ↔ ∃ e, .error e ∈ events := by
  induction events generalizing st with
  | nil => simp [normalizedFrom]
  | cons r events ih =>
    cases r with
    | error e =>
      rw [normalizedFrom, List.any_cons, Bool.or_eq_true]
      exact iff_of_true (.inl rfl) ⟨e, List.mem_cons_self ..⟩
    | ok ev =>
      have hev : ((genaiItem st ev).1.toList.map Except.ok).any isErrorItem = false := by
        cases (genaiItem st ev).1 <;> simp [isErrorItem]
      rw [normalizedFrom, List.any_append, hev, Bool.false_or, ih]
      simp

end SynapseGateway
