import SynapseGateway.Lib.Utf8

/-!
# Stream items

The lane-agnostic items both lanes normalize their upstream events into, and
the accumulator of the buffered consumers.
-/

namespace SynapseGateway

open Utf8 (Text)

inductive FinishReason where
  | stop | toolCalls | length | contentFilter
deriving DecidableEq, Repr

structure ToolCallOut where
  id : String
  name : String
  arguments : Text
deriving DecidableEq, Repr

inductive StreamItem where
  | delta (t : Text)
  | toolCallDelta (index : Nat) (id name : Option String) (argsFragment : Text)
  | done (inputTokens outputTokens : Nat) (finishReason : FinishReason)
  | blocked (policy : String) (scanners : List String)
deriving DecidableEq, Repr

inductive LegError where
  | start (message : String)
  | midStream (message : String)
deriving DecidableEq, Repr

def LegError.message : LegError → String
  | .start s => "start: " ++ s
  | .midStream s => "mid-stream: " ++ s

structure Accumulator where
  content : Text := []
  toolCalls : List ToolCallOut := []
  inputTokens : Nat := 0
  outputTokens : Nat := 0
  finishReason : FinishReason := .stop
  gotDone : Bool := false
deriving DecidableEq, Repr

/-- The slots up to `i`, with empty ones for indices not seen yet. -/
def resizeCalls (calls : List ToolCallOut) (i : Nat) : List ToolCallOut :=
  calls ++ List.replicate (i + 1 - calls.length) ⟨"", "", []⟩

def Accumulator.push (acc : Accumulator) : StreamItem → Accumulator
  | .delta t => { acc with content := acc.content ++ t }
  | .toolCallDelta index id name argsFragment =>
    { acc with toolCalls := (resizeCalls acc.toolCalls index).modify index fun slot =>
        { id := id.getD slot.id, name := name.getD slot.name, arguments := slot.arguments ++ argsFragment } }
  | .done inputTokens outputTokens finishReason =>
    { acc with
      inputTokens := inputTokens
      outputTokens := outputTokens
      finishReason := finishReason
      gotDone := true }
  | .blocked _ _ => acc

structure Completion where
  provider : String
  model : String
  content : Text
  toolCalls : List ToolCallOut
  finishReason : FinishReason
  inputTokens : Nat
  outputTokens : Nat
deriving DecidableEq, Repr

def Accumulator.completion (acc : Accumulator) (provider model : String) : Completion where
  provider := provider
  model := model
  content := acc.content
  toolCalls := acc.toolCalls
  finishReason := acc.finishReason
  inputTokens := acc.inputTokens
  outputTokens := acc.outputTokens

def StreamItem.isDone : StreamItem → Bool
  | .done _ _ _ => true
  | _ => false

def isDoneItem : Except LegError StreamItem → Bool
  | .ok item => item.isDone
  | .error _ => false

def isErrorItem : Except LegError StreamItem → Bool
  | .ok _ => false
  | .error _ => true

def StreamItem.text : StreamItem → Text
  | .delta t => t
  | _ => []

theorem push_gotDone (acc : Accumulator) (item : StreamItem) : (acc.push item).gotDone = (acc.gotDone || item.isDone) := by
  cases item <;> simp [Accumulator.push, StreamItem.isDone]

end SynapseGateway
