import SynapseGateway.PassthroughScreen
import SynapseGateway.Request

/-!
# The screened request

The leaves of a chat request are references into its messages: what the guard
leaves of them goes on in their place.
-/

namespace SynapseGateway

open String (utf8Len utf8Len_nil)
open Traversal (Fields)
open Utf8

/-! ## The leaves of a content -/

def chatPart : Traversal Json Text := asObjectMut (Fields.member "text" textLeaf).toTraversal

def contentText : Traversal Json Text where
  read
    | .string s => [s]
    | .array parts => chatPart.each.read parts
    | _ => []
  write
    | .string s, ts => .string (ts.headD s)
    | .array parts, ts => .array (chatPart.each.write parts ts)
    | v, _ => v
  read_write v ts h := by
    cases v with
    | string s =>
      obtain ⟨t, rfl⟩ := List.length_eq_one_iff.mp h
      rfl
    | array parts => exact chatPart.each.read_write parts ts h
    | _ => exact (List.length_eq_zero_iff.mp h).symm
  write_read v := by
    cases v with
    | array parts => exact congrArg Json.array (chatPart.each.write_read parts)
    | _ => rfl

def blank (ts : List Text) : Bool := ts.all List.isEmpty && ts.length ≤ 1

/-- The content with new leaves. A content that contributes none stays as it is. -/
def writeContent (c : Json) (ts : List Text) : Json :=
  if blank (contentText.read c) then c else contentText.write c ts

def writeMessages : List Message → List Text → List Message
  | [], _ => []
  | m :: ms, ts =>
    if scannedRole m.role then
      let n := (contentLeaves m.content).length
      { m with content := writeContent m.content (ts.take n) } :: writeMessages ms (ts.drop n)
    else m :: writeMessages ms ts

def leavesOf (messages : List Message) : Segment :=
  (messages.filter fun m => scannedRole m.role).flatMap fun m => contentLeaves m.content

/-- The leaves that are empty are the same. -/
def AlikeEmpty (ts ts' : List Text) : Prop := ts.map List.isEmpty = ts'.map List.isEmpty

theorem AlikeEmpty.length {ts ts' : List Text} (h : AlikeEmpty ts ts') : ts.length = ts'.length := by
  have hlen := congrArg List.length h
  simpa using hlen

theorem AlikeEmpty.blank {ts ts' : List Text} (h : AlikeEmpty ts ts') : blank ts = blank ts' := by
  have hall : ts.all List.isEmpty = ts'.all List.isEmpty := by
    have hmap := congrArg (fun bs => bs.all id) h
    simpa [List.all_map] using hmap
  rw [SynapseGateway.blank, SynapseGateway.blank, hall, h.length]

end SynapseGateway
