import SynapseGateway.JsonRead
import SynapseGateway.MaskExact
import SynapseGateway.MeteredTee
import SynapseGateway.Stream

/-!
# Replies on the wire

The OpenAI bodies a chat reply is sent in, buffered and streamed, and a client
that reads them.
-/

namespace SynapseGateway

open Utf8 (Text)

def Json.ofU64 (n : Nat) : Json := .number (.posInt n)

def FinishReason.asStr : FinishReason → String
  | .stop => "stop"
  | .toolCalls => "tool_calls"
  | .length => "length"
  | .contentFilter => "content_filter"

/-! ## A buffered reply -/

def ToolCallOut.json (c : ToolCallOut) : Json :=
  .object [("id", str c.id), ("type", str "function"),
    ("function", .object [("name", str c.name), ("arguments", .string c.arguments)])]

/-- The sum of the tokens is a `u64`. -/
def Accumulator.toOpenaiResponse (acc : Accumulator) (id model : String) (now : Nat) : Json :=
  let message : Json :=
    if acc.toolCalls.isEmpty then .object [("role", str "assistant"), ("content", .string acc.content)]
    else .object [("role", str "assistant"), ("content", .null), ("tool_calls", .array (acc.toolCalls.map ToolCallOut.json))]
  .object [("id", str ("chatcmpl-" ++ id)), ("object", str "chat.completion"), ("created", .ofU64 now), ("model", str model),
    ("choices", .array [.object [("index", .ofU64 0), ("message", message), ("finish_reason", str acc.finishReason.asStr)]]),
    ("usage", .object [("prompt_tokens", .ofU64 acc.inputTokens), ("completion_tokens", .ofU64 acc.outputTokens),
      ("total_tokens", .ofU64 ((acc.inputTokens + acc.outputTokens) % 2 ^ 64))])]

/-- The items a completion is accumulated from again. The index is a `u32`. -/
def Completion.items (c : Completion) : List StreamItem :=
  (if c.toolCalls.isEmpty then [.delta c.content]
    else c.toolCalls.zipIdx.map fun p => .toolCallDelta (p.2 % 2 ^ 32) (some p.1.id) (some p.1.name) p.1.arguments) ++
  [.done c.inputTokens c.outputTokens c.finishReason]

def openaiJson (c : Completion) (requestId : String) (now : Nat) : Json :=
  (c.items.foldl Accumulator.push {}).toOpenaiResponse requestId c.model now

/-! ## A streamed reply -/

def chunkJson (id model : String) (delta finish : Json) : Json :=
  .object [("id", str ("chatcmpl-" ++ id)), ("object", str "chat.completion.chunk"), ("created", .ofU64 0),
    ("model", str model), ("choices", .array [.object [("index", .ofU64 0), ("delta", delta), ("finish_reason", finish)]])]

def blockedMessage (policy : String) (scanners : List String) : String :=
  "Response blocked by content policy '" ++ policy ++ "' (scanners: " ++ ", ".intercalate scanners ++ ")"

def toolCallJson (index : Nat) (id name : Option String) (argsFragment : Text) : Json :=
  let func := Json.object [("arguments", .string argsFragment)]
  let func := match name with
    | some name => func.set "name" (str name)
    | none => func
  let call := Json.object [("index", .ofU64 index), ("type", str "function"), ("function", func)]
  match id with
  | some id => call.set "id" (str id)
  | none => call

def streamItemToSseJson (item : StreamItem) (id model : String) : Json :=
  match item with
  | .delta t => chunkJson id model (.object [("content", .string t)]) .null
  | .toolCallDelta index callId name argsFragment =>
    chunkJson id model (.object [("tool_calls", .array [toolCallJson index callId name argsFragment])]) .null
  | .done _ _ finishReason => chunkJson id model (.object []) (str finishReason.asStr)
  | .blocked policy scanners =>
    .object [("error", .object [("type", str "content_policy_violation"), ("code", str "content_blocked"),
      ("message", str (blockedMessage policy scanners)), ("scanners", .array (scanners.map str))])]

def upstreamErrorJson (message : String) : Json :=
  .object [("error", .object [("type", str "upstream_error"), ("message", str message), ("code", str "upstream_error")])]

/-- The framing of the web framework: what an event with this data is sent as. -/
structure SseCrate where
  event : Text → Text

/-- `Event::default().data`: data of one line is one field, and an empty line ends the event. -/
def SseCrate.Framed (axum : SseCrate) : Prop :=
  ∀ d, '\n' ∉ d → '\r' ∉ d → axum.event d = "data: ".toList ++ d ++ ['\n'] ++ ['\n']

def itemData (requestId model : String) : Except LegError StreamItem → Text
  | .ok item => (streamItemToSseJson item requestId model).toText
  | .error e => (upstreamErrorJson e.message).toText

def sseFrames (axum : SseCrate) (items : List (Except LegError StreamItem)) (requestId model : String) : List Text :=
  (items.map (itemData requestId model) ++ ["[DONE]".toList]).map axum.event

def sseBody (axum : SseCrate) (items : List (Except LegError StreamItem)) (requestId model : String) : Bytes :=
  utf8Bytes (sseFrames axum items requestId model).flatten

/-! ## A client -/

def Json.asString (v : Json) : Option String := v.asStr.map String.ofList

def FinishReason.ofStr (s : String) : Option FinishReason :=
  [FinishReason.stop, .toolCalls, .length, .contentFilter].find? fun r => r.asStr == s

inductive ChatEvent where
  | item (item : StreamItem)
  | failed (kind code message : String) (scanners : List String)
  | finished

def readToolCall (call : Json) : Option StreamItem :=
  (call.key "index").asU64.bind fun index => ((call.key "function").key "arguments").asStr.map fun args =>
    .toolCallDelta index (call.key "id").asString ((call.key "function").key "name").asString args

/-- What a choice of a chunk adds. A chunk does not say what tokens were used. -/
def readChoice (choice : Json) : Option StreamItem :=
  match (choice.key "finish_reason").asString with
  | some reason => (FinishReason.ofStr reason).map fun reason => .done 0 0 reason
  | none =>
    match ((choice.key "delta").key "content").asStr with
    | some t => some (.delta t)
    | none => readToolCall (((choice.key "delta").key "tool_calls").index 0)

def readFailure (e : Json) : Option ChatEvent :=
  (e.key "type").asString.bind fun kind => (e.key "code").asString.bind fun code => (e.key "message").asString.map fun message =>
    .failed kind code message (((e.key "scanners").asArray.getD []).filterMap Json.asString)

def readChatEvent (data : Text) : Option ChatEvent :=
  if data = "[DONE]".toList then some .finished
  else (readJson data).bind fun v =>
    match v.get? "error" with
    | some e => readFailure e
    | none => (readChoice ((v.key "choices").index 0)).map .item

/-- The data of an event: that of its data lines, in lines. -/
def eventDataOf (event : Bytes) : Text :=
  ['\n'].intercalate ((lines (fromUtf8Lossy event)).filterMap (stripPrefix "data: ".toList))

def receive (chunks : List Bytes) : List (Option ChatEvent) :=
  (sse.feed [] chunks).map fun event => readChatEvent (eventDataOf event)

/-- An item as a client sees it. -/
def seenAs : Except LegError StreamItem → ChatEvent
  | .ok (.done _ _ finishReason) => .item (.done 0 0 finishReason)
  | .ok (.blocked policy scanners) =>
    .failed "content_policy_violation" "content_blocked" (blockedMessage policy scanners) scanners
  | .ok item => .item item
  | .error e => .failed "upstream_error" "upstream_error" e.message []

structure ChatReply where
  content : Option Text
  toolCalls : List ToolCallOut
  finish : Option FinishReason
deriving DecidableEq

def receivedItem : Option ChatEvent → Option StreamItem
  | some (.item item) => some item
  | _ => none

def itemsOf (events : List (Option ChatEvent)) : List StreamItem := events.filterMap receivedItem

/-- What the items of a stream amount to. -/
def assemble (events : List (Option ChatEvent)) : ChatReply :=
  let acc := (itemsOf events).foldl Accumulator.push {}
  { content := some acc.content, toolCalls := acc.toolCalls, finish := if acc.gotDone then some acc.finishReason else none }

def readCallOut (call : Json) : Option ToolCallOut :=
  (call.key "id").asString.bind fun id => ((call.key "function").key "name").asString.bind fun name =>
    ((call.key "function").key "arguments").asStr.map fun args => ⟨id, name, args⟩

structure ChatUsage where
  prompt : Nat
  completion : Nat
  total : Nat
deriving DecidableEq

def readReply (body : Bytes) : Option (ChatReply × ChatUsage) :=
  (readJson (fromUtf8Lossy body)).bind fun v =>
    let choice := (v.key "choices").index 0
    let message := choice.key "message"
    let usage := v.key "usage"
    (((message.key "tool_calls").asArray.getD []).mapM readCallOut).bind fun calls =>
      (usage.key "prompt_tokens").asU64.bind fun prompt => (usage.key "completion_tokens").asU64.bind fun completion =>
        (usage.key "total_tokens").asU64.map fun total =>
          ({ content := (message.key "content").asStr
             toolCalls := calls
             finish := (choice.key "finish_reason").asString.bind FinishReason.ofStr }, ⟨prompt, completion, total⟩)

end SynapseGateway
