import SynapseGateway.Request

/-!
# The two translators

`toGenaiRequest` builds the standard lane's request, `buildPayload` the native
lane's Vertex body. `parse` is the JSON parser of the arguments of a tool call.
-/

namespace SynapseGateway

open Utf8 (Text)

/-! ## genai -/

structure ToolCall where
  callId : Text
  fnName : Text
  fnArguments : Json

structure Tool where
  name : Text
  description : Option Text
  schema : Option Json

inductive ChatRole where
  | system | user | assistant | tool
deriving DecidableEq, Repr

inductive MessageContent where
  | parts (ps : List ContentPart)
  | toolCalls (calls : List ToolCall)
  | toolResponse (callId content : Text)

structure ChatMessage where
  role : ChatRole
  content : MessageContent

structure GenaiRequest where
  messages : List ChatMessage
  tools : Option (List Tool)

variable (parse : Text → Except String Json)

def openaiToolToGenai (v : Json) : Option Tool := do
  let f ← v.get? "function"
  let name ← (f.get? "name").bind Json.asStr
  some ⟨name, (f.get? "description").bind Json.asStr, f.get? "parameters"⟩

/-- The arguments of a tool call are JSON text, kept as a string where they do not parse. -/
def openaiToolCallToGenai (v : Json) : Option ToolCall := do
  let callId ← (v.get? "id").bind Json.asStr
  let f ← v.get? "function"
  let fnName ← (f.get? "name").bind Json.asStr
  let raw := ((f.get? "arguments").bind Json.asStr).getD "\x7b\x7d".toList
  let fnArguments := match parse raw with
    | .ok args => args
    | .error _ => .string raw
  some ⟨callId, fnName, fnArguments⟩

def toolText (content : Json) : Text := content.asStr.getD content.toText

def roleOf (role : String) : ChatRole :=
  if role = "system" then .system else if role = "assistant" then .assistant else .user

def toGenaiMessage (m : Message) : ChatMessage :=
  match m.role, m.toolCalls with
  | "assistant", some calls => ⟨.assistant, .toolCalls (calls.filterMap (openaiToolCallToGenai parse))⟩
  | "tool", _ => ⟨.tool, .toolResponse (m.toolCallId.getD []) (toolText m.content)⟩
  | role, _ => ⟨roleOf role, .parts (contentToGenaiParts m.content)⟩

def toGenaiRequest (req : ChatRequest) : GenaiRequest where
  messages := req.messages.map (toGenaiMessage parse)
  tools :=
    let mapped := (req.tools.getD []).filterMap openaiToolToGenai
    if mapped.isEmpty then none else some mapped

/-! ## Vertex -/

def mediaPart (uri : Text) : Json :=
  .object [("fileData", .object [("fileUri", .string uri), ("mimeType", str "video/mp4")])]

def functionCallPart (tc : Json) : Option Json := do
  let f ← tc.get? "function"
  let name ← (f.get? "name").bind Json.asStr
  let raw := ((f.get? "arguments").bind Json.asStr).getD "\x7b\x7d".toList
  let args := match parse raw with
    | .ok args => args
    | .error _ => .object []
  some (.object [("functionCall", .object [("name", .string name), ("args", args)])])

def functionResponsePart (name content : Text) : Json :=
  .object [("functionResponse",
    .object [("name", .string name), ("response", .object [("content", .string content)])])]

def turn (role : String) (parts : List Json) : Json := .object [("role", str role), ("parts", .array parts)]

def toVertexContent (m : Message) : Json :=
  match m.role, m.toolCalls with
  | "assistant", some calls => turn "model" (calls.filterMap (functionCallPart parse))
  | "tool", _ => turn "user" [functionResponsePart (m.name.getD []) (toolText m.content)]
  | role, _ => turn (if role = "assistant" then "model" else "user") (contentToVertexParts m.content)

def isUserTurn (c : Json) : Bool := (c.key "role").asStr == some "user".toList

def extendParts (media : List Json) (c : Json) : Json :=
  match c.key "parts" with
  | .array parts => c.set "parts" (.array (parts ++ media))
  | _ => c

def extendLastUser (media : List Json) : List Json → Option (List Json)
  | [] => none
  | c :: contents =>
    match extendLastUser media contents with
    | some contents => some (c :: contents)
    | none => if isUserTurn c then some (extendParts media c :: contents) else none

/-- Media go to the last user turn, or to a fresh one. -/
def attachMedia (media : List Json) (contents : List Json) : List Json :=
  if media.isEmpty then contents
  else (extendLastUser media contents).getD (contents ++ [turn "user" media])

def setIf (k : String) (value : Option Json) (body : Json) : Json :=
  match value with
  | some v => body.set k v
  | none => body

def generationConfig (req : ChatRequest) (ext : VertexExt) : List (String × Json) :=
  (match ext.responseSchema with
    | some schema => [("responseMimeType", str "application/json"), ("responseSchema", schema)]
    | none => []) ++
  (req.temperature.map fun t => ("temperature", Json.number t)).toList ++
  (req.maxTokens.map fun n => ("maxOutputTokens", Json.number (.posInt n))).toList ++
  (ext.thinkingConfig.map fun c => ("thinkingConfig", c)).toList

def functionDeclaration (t : Json) : Option Json := do
  let f ← t.get? "function"
  let name ← (f.get? "name").bind Json.asStr
  some (.object [("name", .string name),
    ("description", .string (((f.get? "description").bind Json.asStr).getD [])),
    ("parameters", (f.get? "parameters").getD (.object [("type", str "object")]))])

def callingMode : Json → String
  | .string s => if s = "none".toList then "NONE" else if s = "required".toList then "ANY" else "AUTO"
  | .object _ => "ANY"
  | _ => "AUTO"

def nonEmpty (xs : List α) (f : List α → Json) : Option Json := if xs.isEmpty then none else some (f xs)

def buildPayload (req : ChatRequest) (ext : VertexExt) : Json :=
  let media := (ext.mediaUris.getD []).map mediaPart
  let contents := attachMedia media (req.messages.map (toVertexContent parse))
  let decls := (req.tools.getD []).filterMap functionDeclaration
  let body := Json.object [("contents", .array contents)]
  let body := setIf "cachedContent" (ext.cachedContent.map .string) body
  let body := setIf "generationConfig" (nonEmpty (generationConfig req ext) .object) body
  let body := setIf "tools" (nonEmpty decls fun ds => .array [.object [("functionDeclarations", .array ds)]]) body
  setIf "toolConfig"
    (req.toolChoice.map fun c => .object [("functionCallingConfig", .object [("mode", str (callingMode c))])]) body

/-! ## The text of a message -/

def ContentPart.textOf : ContentPart → Option Text
  | .text t => some t
  | .binary _ _ => none

/-- The texts a genai message carries to the model. -/
def MessageContent.texts : MessageContent → List Text
  | .parts ps => ps.filterMap ContentPart.textOf
  | .toolCalls _ => []
  | .toolResponse _ content => [content]

/-- The text of a Vertex part: its own, or that of the function response it is. -/
def vertexText (part : Json) : Option Text :=
  ((part.get? "text").bind Json.asStr).or (((part.key "functionResponse").key "response").key "content").asStr

def vertexTexts (content : Json) : List Text := ((content.key "parts").asArray.getD []).filterMap vertexText

def contentsOf (body : Json) : List Json := (body.key "contents").asArray.getD []

end SynapseGateway
