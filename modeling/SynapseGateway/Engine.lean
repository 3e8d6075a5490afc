import SynapseGateway.Error
import SynapseGateway.Mask
import SynapseGateway.Scanners

/-!
# The guard engine

One compiled policy per name. `scanSegment` scans a segment's joined text and
rewrites its leaves, `screen` judges a request, and `releaseOutput` screens
held reply text and splits a screened prefix off it. What the source reports to
metrics and logs is returned as records.
-/

namespace SynapseGateway

open String (utf8Len)
open Utf8

inductive GuardLane where
  | chat | passthrough | embeddings | jev | write
deriving DecidableEq, Repr

def GuardLane.label : GuardLane → String
  | .chat => "chat"
  | .passthrough => "passthrough"
  | .embeddings => "embeddings"
  | .jev => "jev"
  | .write => "write"

def severityLabel : Severity → String
  | .info => "info"
  | .warn => "warn"
  | .block => "block"

/-- The match's pattern id for logs; `-` for substring scanners, whose pattern
id is the banned text itself. -/
def patternLabel (m : Match) : String :=
  if m.scanner == "ban_substrings" || m.scanner == "injection" then "-" else m.pattern

structure MatchRecord where
  policy : String
  lane : String
  direction : String
  scanner : String
  pattern : String
  severity : String
  start : Nat
  stop : Nat
  effect : Effect
deriving DecidableEq, Repr

structure ScanRecord where
  policy : String
  lane : String
  direction : String
  outcome : String
  scanners : List String
deriving DecidableEq, Repr

/-! ## One segment -/

structure SegmentVerdict where
  wanted : List Action := []
  effects : List Effect := []
  blockers : List String := []
  patterns : List String := []
  matched : List String := []
  masked : Bool := false
  /-- Each input segment's joined text with every mask span applied, in both
  modes. Empty for output. -/
  classified : List Text := []
  /-- Byte offset up to which matches were judged, in the segment text as it
  stands after any masks were applied. -/
  cut : Nat := 0

def SegmentVerdict.merge (a b : SegmentVerdict) : SegmentVerdict where
  wanted := a.wanted ++ b.wanted
  effects := a.effects ++ b.effects
  blockers := a.blockers ++ b.blockers
  patterns := a.patterns ++ b.patterns
  matched := a.matched ++ b.matched
  masked := a.masked || b.masked
  classified := a.classified ++ b.classified
  cut := a.cut

def dedup : List String → List String
  | [] => []
  | [a] => [a]
  | a :: b :: l => if a = b then dedup (b :: l) else a :: dedup (b :: l)

def sortedDedup (v : List String) : List String := dedup (v.insertionSort (· ≤ ·))

def SegmentVerdict.intoDecision (v : SegmentVerdict) (policy : String) : Except GatewayError Bool :=
  if v.blockers.isEmpty then .ok v.masked
  else .error (.contentBlocked policy (sortedDedup v.blockers) (sortedDedup v.patterns))

def settleFrom (ms : List Match) : Nat → Nat → Nat
  | 0, cut => cut
  | fuel + 1, cut =>
    match ((ms.filter fun m => m.start < cut && cut < m.stop).map (·.start)).min? with
    | none => cut
    | some start => settleFrom ms fuel start

/-- `cut` pulled back to the start of every match whose span crosses it, until
no match crosses. Every round lowers `cut`, so there are at most `cut` rounds. -/
def settledCut (ms : List Match) (cut : Nat) : Nat := settleFrom ms cut cut

/-- `window_cut.min(len)`; `none` is `usize::MAX`, which no text reaches. -/
def clampCut : Option Nat → Nat → Nat
  | some w, len => min w len
  | none, len => len

structure Judged where
  m : Match
  wanted : Action
  eff : Effect

def CompiledScanners.judge (scanners : CompiledScanners) (mode : PolicyMode) (m : Match) : Judged :=
  let (wanted, eff) := effect (scanners.actions.lookup m.scanner) m.severity mode
  ⟨m, wanted, eff⟩

/-- Blocking matches anywhere, other matches only when they end at or before the cut. -/
def Judged.kept (cut : Nat) (j : Judged) : Bool := j.eff == .block || j.m.stop ≤ cut

def Judged.record (policy : String) (lane : GuardLane) (direction : String) (j : Judged) : MatchRecord :=
  ⟨policy, lane.label, direction, j.m.scanner, patternLabel j.m, severityLabel j.m.severity, j.m.start, j.m.stop,
    j.eff⟩

/-- A name with no position is last, as `usize::MAX` is. -/
def CompiledScanners.position (scanners : CompiledScanners) (name : String) : Nat :=
  (scanners.order.lookup name).getD (2 ^ 64 - 1)

def CompiledScanners.span (scanners : CompiledScanners) (j : Judged) : MaskSpan :=
  ⟨j.m.start, j.m.stop, j.m.scanner, scanners.position j.m.scanner⟩

variable (llm : LlmGuard)

def scanSegment (policy : String) (lane : GuardLane) (direction : String) (scanners : CompiledScanners)
    (mode : PolicyMode) (leaves : Segment) (windowCut : Option Nat) :
    SegmentVerdict × Segment × List MatchRecord :=
  let text := joined leaves
  let ms := llm.pipelineScan scanners.pipeline text
  let cut := settledCut ms (clampCut windowCut (utf8Len text))
  let judged := (ms.map (scanners.judge mode)).filter (Judged.kept cut)
  let blocking := judged.filter (·.eff == .block)
  let spans := merge ((judged.filter (·.wanted == .mask)).map scanners.span)
  let v : SegmentVerdict := {
    wanted := judged.map (·.wanted)
    effects := judged.map (·.eff)
    blockers := blocking.map (·.m.scanner)
    patterns := (blocking.map fun j => patternLabel j.m).filter (· != "-")
    matched := judged.map (·.m.scanner)
    classified := if direction == "input" then
        [if spans.isEmpty then text else List.intercalate SEPARATOR (apply leaves spans)]
      else []
    cut := cut }
  let records := judged.map (Judged.record policy lane direction)
  if v.blockers.isEmpty && v.effects.contains .mask then
    ({ v with cut := shifted spans cut, masked := true }, apply leaves spans, records)
  else (v, leaves, records)

/-! ## Policies -/

structure Scored where
  model : String
  scores : List (String × ℚ)
  inputTokens : Nat
  outputTokens : Nat

structure Classifier where
  route : String
  onError : OnError
  questions : List (String × ClassifierQuestion)
  score : Text → Option Scored

structure CompiledPolicy where
  mode : PolicyMode
  input : CompiledScanners
  wantsClassifier : Bool
  classifier : Option Classifier
  output : Option CompiledScanners
  holdback : Nat

structure GuardEngine where
  policies : List (String × CompiledPolicy)

def compilePolicy (name : String) (p : Policy) : Except String CompiledPolicy := do
  checkPolicy name p
  let input ← CompiledScanners.compile llm name p.scanners
  let output ←
    if p.outputScanners.isEmpty then .ok none
    else (CompiledScanners.compile llm name p.outputScanners).map some
  .ok {
    mode := p.mode
    input := input
    wantsClassifier := p.classifier.isSome
    classifier := none
    output := output
    holdback := p.outputHoldbackChars }

def GuardEngine.fromConfig (cfg : GuardrailsConfig) : Except String GuardEngine :=
  (cfg.guardrails.mapM fun (name, p) => do .ok (name, ← compilePolicy llm name p)).map GuardEngine.mk

def GuardEngine.policy (eng : GuardEngine) (name : String) : Option CompiledPolicy := eng.policies.lookup name

def GuardEngine.hasOutput (eng : GuardEngine) (policy : String) : Bool :=
  (eng.policy policy).any (·.output.isSome)

def GuardEngine.holdback (eng : GuardEngine) (policy : String) : Nat :=
  ((eng.policy policy).map (·.holdback)).getD 256

/-! ## Requests -/

structure Screened where
  classifier : Option Scored
  outcome : Except GatewayError Bool

/-- Each score at or above its threshold is a match named `classifier.<question>`. -/
def judgeScores (c : Classifier) (mode : PolicyMode) (s : Scored) : SegmentVerdict :=
  (s.scores.zip c.questions).foldl (fun v ((question, score), (_, q)) =>
    if score < q.threshold then v
    else
      let name := "classifier." ++ question
      let (wanted, eff) := effect (some (q.action.getD .block)) .block mode
      { v with
        matched := v.matched ++ [name]
        blockers := if eff == .block then v.blockers ++ [name] else v.blockers
        wanted := v.wanted ++ [wanted]
        effects := v.effects ++ [eff] }) {}

def scanSegments (policy : String) (lane : GuardLane) (scanners : CompiledScanners) (mode : PolicyMode)
    (segments : List Segment) : List (SegmentVerdict × Segment × List MatchRecord) :=
  segments.map fun leaves => scanSegment llm policy lane "input" scanners mode leaves none

/-- A call of `screen` with what it does besides: the text it asks the
classifier about, and the outcome it records. -/
structure ScreenRun where
  screened : Screened
  segments : List Segment
  asked : Option Text := none
  recorded : Option String := none

/-- Scan each segment, apply mask spans and judge all matches together. When
no span scanner blocks, the policy's classifier scores the masked segments. -/
def GuardEngine.screenRun (eng : GuardEngine) (policyName : String) (lane : GuardLane) (segments : List Segment) :
    ScreenRun :=
  match eng.policy policyName with
  | none => ⟨⟨none, .ok false⟩, segments, none, none⟩
  | some policy =>
    let scans := scanSegments llm policyName lane policy.input policy.mode segments
    let verdict := (scans.map (·.1)).foldl SegmentVerdict.merge {}
    let segments := scans.map (·.2.1)
    match verdict.blockers.isEmpty, policy.classifier with
    | true, some c =>
      let text := List.intercalate SEPARATOR verdict.classified
      match c.score text with
      | some s =>
        let verdict := verdict.merge (judgeScores c policy.mode s)
        ⟨⟨some s, verdict.intoDecision policyName⟩, segments, some text,
          some (outcomeLabel verdict.wanted verdict.effects)⟩
      | none =>
        match c.onError, policy.mode with
        | .allow, _ | .block, .observe =>
          ⟨⟨none, verdict.intoDecision policyName⟩, segments, some text, some "classifier_error"⟩
        | .block, .block =>
          ⟨⟨none, .error (.guardUnavailable policyName)⟩, segments, some text, some "classifier_error"⟩
    | _, _ =>
      ⟨⟨none, verdict.intoDecision policyName⟩, segments, none, some (outcomeLabel verdict.wanted verdict.effects)⟩

def GuardEngine.screen (eng : GuardEngine) (policyName : String) (lane : GuardLane) (segments : List Segment) :
    Screened × List Segment :=
  let run := eng.screenRun llm policyName lane segments
  (run.screened, run.segments)

/-! ## Replies -/

structure OutputScan where
  blockers : List String := []
  matched : List String := []
  outcome : String
deriving DecidableEq, Repr

structure OutputRelease where
  scan : OutputScan
  released : Text
  held : Text
  records : List MatchRecord

/-- Screen streamed output held in `held` and release a screened prefix. -/
def GuardEngine.releaseOutput (eng : GuardEngine) (policyName : String) (held : Text) (windowCut : Option Nat) :
    OutputRelease :=
  match (eng.policy policyName).bind fun p => p.output.map fun o => (p, o) with
  | none =>
    let cut := clampCut windowCut (utf8Len held)
    ⟨{ outcome := "pass" }, takeBytes cut held, dropBytes cut held, []⟩
  | some (policy, scanners) =>
    let (v, leaves, records) := scanSegment llm policyName .chat "output" scanners policy.mode [held] windowCut
    let held := leaves.headD held
    let blockers := sortedDedup v.blockers
    let scan := ⟨blockers, sortedDedup v.matched, outcomeLabel v.wanted v.effects⟩
    if blockers.isEmpty then ⟨scan, takeBytes v.cut held, dropBytes v.cut held, records⟩
    else ⟨scan, [], held, records⟩

def GuardEngine.screenOutput (eng : GuardEngine) (policyName : String) (text : Text) :
    OutputScan × Text × List MatchRecord :=
  let r := eng.releaseOutput llm policyName text none
  (r.scan, if r.scan.blockers.isEmpty then r.released else r.held, r.records)

end SynapseGateway
