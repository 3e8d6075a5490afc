import Mathlib.Data.List.Sort
import SynapseGateway.Lib.Rewrite
import SynapseGateway.Policy
import SynapseGateway.Segment

/-!
# What a match does, and mask spans

A match's effect under a policy, and the spans of text that masking replaces.
Spans are merged before they are applied: overlapping ones become one, under
the label of the scanner that comes first in the policy.
-/

namespace SynapseGateway

open String (utf8Len)
open Utf8

inductive Effect where
  | block | mask | record
deriving DecidableEq, Repr

/-- The wanted action (explicit, else from severity) and what it does under `mode`. -/
def effect (action : Option Action) (severity : Severity) (mode : PolicyMode) : Action × Effect :=
  let wanted := action.getD (match severity with
    | .block => .block
    | _ => .log)
  (wanted, match wanted, mode with
    | .log, _ | _, .observe => .record
    | .block, .block => .block
    | .mask, .block => .mask)

def outcomeLabel (wanted : List Action) (effects : List Effect) : String :=
  if effects.contains .block then "block"
  else if effects.contains .mask then "masked"
  else if wanted.any (· != .log) then "observe"
  else if !wanted.isEmpty then "flag"
  else "pass"

/-- A byte range of a segment's joined text to redact; `order` is the scanner's
position in the policy. -/
structure MaskSpan where
  start : Nat
  stop : Nat
  label : String
  order : Nat
deriving DecidableEq, Repr

/-- One step of the merge, with the spans merged so far from the last to the first. -/
def mergeStep (out : List MaskSpan) (s : MaskSpan) : List MaskSpan :=
  match out with
  | [] => [s]
  | last :: rest =>
    if s.start < last.stop then
      let last := { last with stop := max last.stop s.stop }
      (if s.order < last.order then { last with order := s.order, label := s.label } else last) :: rest
    else s :: last :: rest

def merge (spans : List MaskSpan) : List MaskSpan :=
  ((spans.insertionSort (·.start ≤ ·.start)).foldl mergeStep []).reverse

def shiftedFrom (p : Nat) : Int → List MaskSpan → Nat
  | delta, [] => (p + delta).toNat
  | delta, s :: spans =>
    if p ≤ s.start then (p + delta).toNat
    else
      let repl := "[REDACTED:]".utf8ByteSize + s.label.utf8ByteSize
      if p < s.stop then (s.start + delta).toNat
      else shiftedFrom p (delta + (repl - ((s.stop - s.start : Nat) : Int))) spans

/-- Where offset `p` (into the unmasked text) lands once `spans` are applied;
an offset inside a span lands at the span's start. -/
def shifted (spans : List MaskSpan) (p : Nat) : Nat := shiftedFrom p 0 spans

def redacted (label : String) : Text := "[REDACTED:".toList ++ (label.toList ++ "]".toList)

def applyLeaf (spans : List MaskSpan) (own : Nat) (leaf : Text) : Text :=
  spans.foldr (fun s t =>
    let from' := max s.start own
    let upto := min s.stop (own + utf8Len leaf)
    if from' < upto then replaceRange t (from' - own) (upto - own) (redacted s.label) else t) leaf

def applyFrom (spans : List MaskSpan) : Nat → Segment → Segment
  | _, [] => []
  | start, leaf :: leaves =>
    applyLeaf spans start leaf :: applyFrom spans (start + utf8Len leaf + utf8Len SEPARATOR) leaves

/-- Replace each leaf's share of every merged span with `[REDACTED:<label>]`.
Span offsets are into the leaves joined with `SEPARATOR`. -/
def apply (leaves : Segment) (spans : List MaskSpan) : Segment := applyFrom spans 0 leaves

end SynapseGateway
