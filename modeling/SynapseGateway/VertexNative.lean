import SynapseGateway.Json
import SynapseGateway.Sse
import SynapseGateway.Stream

/-!
# The native Vertex stream

The body of a `streamGenerateContent` response as stream items. Bytes are
buffered until a blank line ends an event; each `data:` line of the event is
a JSON chunk. `parse` is `serde_json::from_str`.
-/

namespace SynapseGateway

open Utf8 (Text)

def isThoughtPart (p : Json) : Bool := ((p.get? "thought").bind Json.asBool).getD false

def mapVertexFinish (s : Text) : FinishReason :=
  if s = "MAX_TOKENS".toList then .length
  else .stop

def partToItems (p : Json) (toolIndex : Nat) : List StreamItem × Nat :=
  if isThoughtPart p then ([], toolIndex)
  else
    match (p.key "text").asStr with
    | some text => (if text.isEmpty then [] else [.delta text], toolIndex)
    | none =>
      match p.get? "functionCall" with
      | some fc =>
        let name := ((fc.key "name").asStr).getD []
        let args := (fc.get? "args").getD (.object [])
        ([.toolCallDelta toolIndex (some ("call_" ++ toString toolIndex)) (some (String.ofList name)) args.toText],
          toolIndex + 1)
      | none => ([], toolIndex)

def partsToItems : List Json → Nat → List StreamItem × Nat
  | [], toolIndex => ([], toolIndex)
  | p :: parts, toolIndex =>
    let (items, toolIndex) := partToItems p toolIndex
    let (rest, toolIndex) := partsToItems parts toolIndex
    (items ++ rest, toolIndex)

def finishOf (chunk : Json) : Option Text := (((chunk.key "candidates").index 0).key "finishReason").asStr

/-- One chunk as stream items. `Done` comes only with a `finishReason`: usage
alone is on intermediate chunks too. -/
def vertexChunkToItems (chunk : Json) (toolIndex : Nat) : List StreamItem × Nat :=
  let parts := (((((chunk.key "candidates").index 0).key "content").key "parts").asArray).getD []
  let (items, toolIndex) := partsToItems parts toolIndex
  match finishOf chunk with
  | some finish =>
    let usage := chunk.key "usageMetadata"
    (items ++ [.done ((usage.key "promptTokenCount").asU64.getD 0) ((usage.key "candidatesTokenCount").asU64.getD 0)
      (mapVertexFinish finish)], toolIndex)
  | none => (items, toolIndex)

/-! ## The decoder -/

structure ToolState where
  toolIndex : Nat := 0
  sawTool : Bool := false

def ToolState.note (sawTool : Bool) : StreamItem → StreamItem × Bool
  | .toolCallDelta index id name args => (.toolCallDelta index id name args, true)
  | .done i j finish => (.done i j (if sawTool then .toolCalls else finish), sawTool)
  | item => (item, sawTool)

def noteAll : Bool → List StreamItem → List StreamItem × Bool
  | sawTool, [] => ([], sawTool)
  | sawTool, item :: items =>
    let (item, sawTool) := ToolState.note sawTool item
    let (items, sawTool) := noteAll sawTool items
    (item :: items, sawTool)

/-- The payload of a line, if it is a data line that is not empty or `[DONE]`. -/
def dataOf (line : Text) : Option Text :=
  match stripPrefix "data:".toList line with
  | none => none
  | some d =>
    let data := trim d
    if data = "[DONE]".toList ∨ data.isEmpty then none else some data

def dataLines (event : Bytes) : List Text := (lines (fromUtf8Lossy event)).filterMap dataOf

section
variable (parse : Text → Except String Json)

def dataItems (st : ToolState) (data : Text) : List (Except LegError StreamItem) × ToolState :=
  match parse data with
  | .ok json =>
    let (items, toolIndex) := vertexChunkToItems json st.toolIndex
    let (items, sawTool) := noteAll st.sawTool items
    (items.map .ok, ⟨toolIndex, sawTool⟩)
  | .error e => ([.error (.midStream ("bad sse json: " ++ e))], st)

def datasItems : ToolState → List Text → List (Except LegError StreamItem) × ToolState
  | st, [] => ([], st)
  | st, data :: datas =>
    let (items, st) := dataItems parse st data
    let (rest, st) := datasItems st datas
    (items ++ rest, st)

/-- The items the response body yields. A transport error is an item, and the
stream goes on after it; what stays in the buffer at the end is dropped. -/
def decodeFrom (buf : Bytes) (st : ToolState) : List (Except String Bytes) → List (Except LegError StreamItem)
  | [] => []
  | .error e :: body => .error (.midStream e) :: decodeFrom buf st body
  | .ok bytes :: body =>
    let (events, buf) := sse.drain (buf ++ bytes)
    let (items, st) := datasItems parse st (events.flatMap dataLines)
    items ++ decodeFrom buf st body

def streamGenerate (body : List (Except String Bytes)) : List (Except LegError StreamItem) := decodeFrom parse [] {} body

end

end SynapseGateway
