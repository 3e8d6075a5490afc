import SynapseGateway.Json
import SynapseGateway.Segment
import SynapseGateway.Sse

/-!
# Chat requests

The OpenAI-style request of the chat lane, the parts of a multimodal content
for genai and for Vertex, and the text leaves the guard scans.
-/

namespace SynapseGateway

open Utf8 (Text)

structure Message where
  role : String
  /-- A string, an array of parts, or null on a tool-call turn. -/
  content : Json
  toolCalls : Option (List Json) := none
  toolCallId : Option Text := none
  name : Option Text := none

structure VertexExt where
  cachedContent : Option Text := none
  mediaUris : Option (List Text) := none
  responseSchema : Option Json := none
  thinkingConfig : Option Json := none

structure ChatRequest where
  messages : List Message
  temperature : Option Number := none
  maxTokens : Option Nat := none
  tools : Option (List Json) := none
  toolChoice : Option Json := none

/-! ## Content parts -/

def splitOnce (c : Char) : Text → Option (Text × Text)
  | [] => none
  | x :: t => if x = c then some ([], t) else (splitOnce c t).map fun (a, b) => (x :: a, b)

def stripSuffix (s t : Text) : Option Text := if s.isSuffixOf t then some (t.take (t.length - s.length)) else none

def parseDataUrl (url : Text) : Option (Text × Text) := do
  let rest ← stripPrefix "data:".toList url
  let (kind, data) ← splitOnce ',' rest
  let mime ← stripSuffix ";base64".toList kind
  some (mime, data)

def inlineOf (part : Json) : Option (Text × Text) := do
  let obj ← (part.get? "inline_data").or (part.get? "inlineData")
  let mime ← ((obj.get? "mimeType").or (obj.get? "mime_type")).bind Json.asStr
  let data ← (obj.get? "data").bind Json.asStr
  some (mime, data)

def mediaOf (ty : Text) (part : Json) : Option (Text × Text) :=
  if ty = "image_url".toList then (((part.key "image_url").key "url").asStr).bind parseDataUrl
  else if ty = "inline_data".toList ∨ ty = "inlineData".toList then inlineOf part
  else none

inductive ContentPart where
  | text (t : Text)
  | binary (mime data : Text)
deriving DecidableEq, Repr

def partToGenai (part : Json) : Option ContentPart := do
  let ty ← (part.get? "type").bind Json.asStr
  if ty = "text".toList then (part.key "text").asStr.map .text
  else (mediaOf ty part).map fun (mime, data) => .binary mime data

def contentToGenaiParts : Json → List ContentPart
  | .string s => [.text s]
  | .array parts => parts.filterMap partToGenai
  | other => [.text other.toText]

def textPart (t : Text) : Json := .object [("text", .string t)]

def inlineDataPart (mime data : Text) : Json :=
  .object [("inlineData", .object [("mimeType", .string mime), ("data", .string data)])]

def partToVertex (part : Json) : Option Json := do
  let ty ← (part.get? "type").bind Json.asStr
  if ty = "text".toList then (part.key "text").asStr.map textPart
  else (mediaOf ty part).map fun (mime, data) => inlineDataPart mime data

def contentToVertexParts : Json → List Json
  | .string s => [textPart s]
  | .array parts => parts.filterMap partToVertex
  | other => [textPart other.toText]

/-! ## The text leaves -/

def leafOf (part : Json) : Option Text := (part.get? "text").bind Json.asStr

def contentLeaves : Json → List Text
  | .string s => if s.isEmpty then [] else [s]
  | .array parts =>
    let leaves := parts.filterMap leafOf
    -- a message whose text is empty contributes nothing
    let blank := leaves.all List.isEmpty && leaves.length ≤ 1
    if blank then [] else leaves
  | _ => []

def scannedRole (role : String) : Bool := role == "system" || role == "user" || role == "tool"

/-- One segment: the text of `system`, `user` and `tool` messages. -/
def chatLeaves (req : ChatRequest) : List Segment :=
  [(req.messages.filter fun m => scannedRole m.role).flatMap fun m => contentLeaves m.content]

end SynapseGateway
