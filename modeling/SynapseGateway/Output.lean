import SynapseGateway.Engine

/-!
# Screening a streamed reply

`OutputGuard` holds back the tail of a streamed reply as raw text, so that the
output scanners see matches that span deltas, and releases a prefix only after
it has been screened and masked.
-/

namespace SynapseGateway

open String (utf8Len)
open Utf8

inductive Release where
  | text (t : Text)
  | blocked (scanners : List String)
deriving DecidableEq, Repr

def Release.isBlocked : Release → Bool
  | .text _ => false
  | .blocked _ => true

def Release.released : Release → Text
  | .text t => t
  | .blocked _ => []

structure OutputGuard where
  policy : String
  holdback : Nat
  held : Text
  worst : String
  matched : List String
  recorded : Bool
deriving DecidableEq

structure OutputStep where
  release : Release
  next : OutputGuard
  records : List MatchRecord
  scans : List ScanRecord

def rank (outcome : String) : Nat :=
  match outcome with
  | "block" => 4
  | "masked" => 3
  | "observe" => 2
  | "flag" => 1
  | _ => 0

def worse (a b : String) : String := if rank b > rank a then b else a

def OutputGuard.new (eng : GuardEngine) (policy : String) : OutputGuard where
  policy := policy
  holdback := eng.holdback policy
  held := []
  worst := "pass"
  matched := []
  recorded := false

def OutputGuard.record (g : OutputGuard) : OutputGuard × List ScanRecord :=
  if g.recorded then (g, [])
  else
    let matched := sortedDedup g.matched
    ({ g with recorded := true, matched := matched },
      [⟨g.policy, GuardLane.chat.label, "output", g.worst, matched⟩])

variable (llm : LlmGuard) (eng : GuardEngine)

def OutputGuard.release (g : OutputGuard) (windowCut : Nat) : OutputStep :=
  let r := eng.releaseOutput llm g.policy g.held (some windowCut)
  let g := { g with held := r.held, worst := worse g.worst r.scan.outcome, matched := g.matched ++ r.scan.matched }
  if r.scan.blockers.isEmpty then ⟨.text r.released, g, r.records, []⟩
  else
    let (g, scans) := { g with held := [] }.record
    ⟨.blocked r.scan.blockers, g, r.records, scans⟩

/-- Where the last `holdback` characters of the held text begin. -/
def OutputGuard.windowCut (g : OutputGuard) : Nat :=
  let chars := g.held.length
  if g.holdback ≤ chars then (charOffset (chars - g.holdback) g.held).getD (utf8Len g.held) else 0

/-- Screen `delta` with the held text and release all but the last `holdback`
characters, screened and masked. -/
def OutputGuard.push (g : OutputGuard) (delta : Text) : OutputStep :=
  let g := { g with held := g.held ++ delta }
  g.release llm eng g.windowCut

def OutputGuard.flush (g : OutputGuard) : OutputStep := g.release llm eng (utf8Len g.held)

def OutputGuard.finish (g : OutputGuard) : OutputStep :=
  let s := g.flush llm eng
  let (next, scans) := s.next.record
  { s with next := next, scans := s.scans ++ scans }

def OutputGuard.drop (g : OutputGuard) : List ScanRecord := g.record.2

end SynapseGateway
