import Mathlib.Data.List.DropRight
import SynapseGateway.StreamAgree

/-!
# Streamed replies and the `secrets` scanner

`SecretsScan` drops a match by what stands before or after it. A push sees only
the characters still held and its delta, so what it blocks is decided window
by window.
-/

namespace SynapseGateway

open String (utf8Len)
open Utf8

/-! ## Windows -/

theorem rtake_rtake_append (n : Nat) (x d : Text) : (x.rtake n ++ d).rtake n = (x ++ d).rtake n := by
  unfold List.rtake
  by_cases hx : x.length ≤ n
  · rw [Nat.sub_eq_zero_of_le hx, List.drop_zero]
  · have hk : x.length - n + (x.drop (x.length - n) ++ d).length = (x ++ d).length := by
      simp only [List.length_append, List.length_drop]
      omega
    have hdrop : (x ++ d).drop (x.length - n) = x.drop (x.length - n) ++ d :=
      List.drop_append_of_le_length (Nat.sub_le ..)
    rw [← hdrop, List.drop_drop, hdrop, ← hk]
    congr 1
    simp only [List.length_append, List.length_drop]
    omega

/-- What the calls over a reply screen: before each delta the last `n`
characters of what came before it, then the delta; and at the end the last `n`
characters. `pre` is what came before. -/
def windows (n : Nat) (pre : Text) : List Text → List Text
  | [] => [pre.rtake n]
  | d :: ds => (pre.rtake n ++ d) :: windows n (pre ++ d) ds

/-! ## A policy that blocks every match -/

section
variable {llm : LlmGuard} {eng : GuardEngine} {name : String} {p : CompiledPolicy} {o : CompiledScanners}

structure BlocksAll (llm : LlmGuard) (eng : GuardEngine) (name : String) (p : CompiledPolicy) (o : CompiledScanners) :
    Prop where
  policy : eng.policy name = some p
  output : p.output = some o
  blocks : ∀ t, ∀ m ∈ llm.pipelineScan o.pipeline t, (o.judge p.mode m).eff = .block

theorem settledCut_nil (cut : Nat) : settledCut [] cut = cut :=
  settleFrom_of_settled (fun m hm => by cases hm) cut

theorem BlocksAll.release_found (hs : BlocksAll llm eng name p o) {held : Text} (w : Option Nat)
    (h : llm.pipelineScan o.pipeline held ≠ []) : (eng.releaseOutput llm name held w).scan.blockers ≠ [] := by
  obtain ⟨m, ms, hms⟩ := List.exists_cons_of_ne_nil h
  have heff := hs.blocks held m (hms ▸ List.mem_cons_self ..)
  simp only [GuardEngine.releaseOutput, hs.policy, hs.output, Option.bind_some, Option.map_some, scanSegment,
    joined_singleton]
  generalize settledCut _ _ = cut
  have hm : o.judge p.mode m ∈
      (((llm.pipelineScan o.pipeline held).map (o.judge p.mode)).filter (Judged.kept cut)).filter (·.eff == .block) := by
    simp only [List.mem_filter, hms]
    exact ⟨⟨List.mem_cons_self .., by simp [Judged.kept, heff]⟩, by simp [heff]⟩
  generalize (((llm.pipelineScan o.pipeline held).map (o.judge p.mode)).filter (Judged.kept cut)) = J at hm ⊢
  have hne : ((J.filter (·.eff == .block)).map (·.m.scanner)).isEmpty = false := by
    rw [List.isEmpty_eq_false_iff]
    exact fun hnil => List.ne_nil_of_mem hm (List.map_eq_nil_iff.mp hnil)
  have hdedup := sortedDedup_isEmpty ((J.filter (·.eff == .block)).map (·.m.scanner))
  rw [hne] at hdedup
  simp only [hne, hdedup, Bool.false_and, Bool.false_eq_true, if_false]
  intro hnil
  rw [hnil] at hdedup
  cases hdedup

theorem BlocksAll.release_clean (hs : BlocksAll llm eng name p o) {held : Text} (w : Option Nat)
    (h : llm.pipelineScan o.pipeline held = []) :
    (eng.releaseOutput llm name held w).scan.blockers = [] ∧
      (eng.releaseOutput llm name held w).held = dropBytes (clampCut w (utf8Len held)) held := by
  simp only [GuardEngine.releaseOutput, hs.policy, hs.output, Option.bind_some, Option.map_some, scanSegment,
    joined_singleton, h, settledCut_nil]
  exact ⟨rfl, rfl⟩

theorem BlocksAll.screenOutput (hs : BlocksAll llm eng name p o) (t : Text) :
    (eng.screenOutput llm name t).1.blockers ≠ [] ↔ llm.pipelineScan o.pipeline t ≠ [] := by
  constructor
  · intro hb h
    exact hb (hs.release_clean none h).1
  · exact hs.release_found none

structure Holds (name : String) (p : CompiledPolicy) (pre : Text) (g : OutputGuard) : Prop where
  policy : g.policy = name
  holdback : g.holdback = p.holdback
  held : g.held = pre.rtake p.holdback

theorem BlocksAll.release_isBlocked (hs : BlocksAll llm eng name p o) {g : OutputGuard} (hg : g.policy = name) (w : Nat) :
    (g.release llm eng w).release.isBlocked = true ↔ llm.pipelineScan o.pipeline g.held ≠ [] := by
  unfold OutputGuard.release
  rw [hg]
  by_cases h : llm.pipelineScan o.pipeline g.held = []
  · simp only [(hs.release_clean (some w) h).1, List.isEmpty_nil, if_true]
    exact iff_of_false (by simp [Release.isBlocked]) (not_not_intro h)
  · have hne := hs.release_found (some w) h
    rw [← List.isEmpty_eq_false_iff] at hne
    simp only [hne, Bool.false_eq_true, if_false]
    exact iff_of_true rfl h

theorem BlocksAll.release_next (hs : BlocksAll llm eng name p o) {g : OutputGuard} (hg : g.policy = name) {w : Nat}
    (hw : w ≤ utf8Len g.held) (h : llm.pipelineScan o.pipeline g.held = []) :
    (g.release llm eng w).next.policy = name ∧ (g.release llm eng w).next.holdback = g.holdback ∧
      (g.release llm eng w).next.held = dropBytes w g.held := by
  subst hg
  obtain ⟨hpass, hrest⟩ := hs.release_clean (some w) h
  rw [show clampCut (some w) (utf8Len g.held) = w from Nat.min_eq_left hw] at hrest
  unfold OutputGuard.release
  simp only [hpass, List.isEmpty_nil, if_true, hrest, and_self]

theorem BlocksAll.push_holds (hs : BlocksAll llm eng name p o) {g : OutputGuard} {pre d : Text}
    (hg : Holds name p pre g) (h : llm.pipelineScan o.pipeline (pre.rtake p.holdback ++ d) = []) :
    Holds name p (pre ++ d) (g.push llm eng d).next := by
  rw [← hg.held] at h
  have hwin : OutputGuard.windowCut { g with held := g.held ++ d } =
      utf8Len ((g.held ++ d).take ((g.held ++ d).length - g.holdback)) := windowCut_take _
  have hle : OutputGuard.windowCut { g with held := g.held ++ d } ≤ utf8Len (g.held ++ d) := by
    rw [hwin]
    exact utf8Len_take_le _ _
  obtain ⟨h₁, h₂, h₃⟩ := hs.release_next (g := { g with held := g.held ++ d }) hg.policy hle h
  refine ⟨h₁, h₂.trans hg.holdback, h₃.trans ?_⟩
  have hsplit := List.take_append_drop ((g.held ++ d).length - g.holdback) (g.held ++ d)
  calc dropBytes (OutputGuard.windowCut { g with held := g.held ++ d }) (g.held ++ d)
      = (g.held ++ d).rtake g.holdback := by
        rw [hwin]
        conv_lhs => arg 2; rw [← hsplit]
        rw [dropBytes_utf8Len_append]
        rfl
    _ = (pre ++ d).rtake p.holdback := by rw [hg.holdback, hg.held, rtake_rtake_append]

/-- Feeding deltas blocks exactly when the pipeline reports a match in one of
the windows. -/
theorem BlocksAll.feed (hs : BlocksAll llm eng name p o) (ds : List Text) {pre : Text} {g : OutputGuard}
    (hg : Holds name p pre g) : (∃ s ∈ g.feed llm eng ds, s.release.isBlocked = true) ↔
      ∃ t ∈ windows p.holdback pre ds, llm.pipelineScan o.pipeline t ≠ [] := by
  induction ds generalizing pre g with
  | nil =>
    rw [OutputGuard.feed, windows]
    simp only [List.mem_singleton, exists_eq_left, ← hg.held]
    exact hs.release_isBlocked hg.policy (utf8Len g.held)
  | cons d ds ih =>
    have hpush : (g.push llm eng d).release.isBlocked = true ↔
        llm.pipelineScan o.pipeline (pre.rtake p.holdback ++ d) ≠ [] := by
      rw [← hg.held]
      exact hs.release_isBlocked (g := { g with held := g.held ++ d }) hg.policy _
    rw [OutputGuard.feed, windows]
    simp only [List.mem_cons, exists_eq_or_imp, hpush]
    by_cases h : llm.pipelineScan o.pipeline (pre.rtake p.holdback ++ d) = []
    · rw [ih (hs.push_holds hg h)]
    · exact iff_of_true (.inl h) (.inl h)

end

/-! ## The `secrets` scanner -/

/-- What the crate documents of a pipeline with one scanner and of a regex
scanner: every match is reported, under the scanner's name, with its pattern's
id and severity. -/
structure ReportsMatches (llm : LlmGuard) : Prop where
  single : ∀ (s : Scanner) (t : Text), (llm.pipelineScan [s] t).Perm (s.scan t)
  regex : ∀ (name : String) (pats : List RegexPattern) (t : Text), ∀ m ∈ llm.regexScan name pats t,
    m.scanner = name ∧ ∃ q ∈ pats, m.pattern = q.id ∧ m.severity = q.severity

theorem compile_secrets (llm : LlmGuard) (name : String) {spec : ScannerSpec} (hkind : spec.kind = "secrets") :
    CompiledScanners.compile llm name [spec] = .ok {
      pipeline := [secretsScan llm]
      actions := match spec.action with
        | some a => [("secrets", a)]
        | none => []
      order := [("secrets", 0)] } := by
  have hb : buildScanners llm spec = .ok [secretsScan llm] := by
    cases spec with
    | named n =>
      change n = "secrets" at hkind
      subst hkind
      rfl
    | detailed d =>
      change d.kind = "secrets" at hkind
      show build llm d.kind (some d) = _
      rw [hkind]
      rfl
  unfold CompiledScanners.compile
  rw [compileFrom, hb]
  rfl

theorem secretPatterns_block : ∀ r ∈ secretPatterns, r.severity = .block := by decide

theorem secrets_blocks_all {llm : LlmGuard} {cfg : GuardrailsConfig} {eng : GuardEngine} {name : String} {q : Policy}
    {spec : ScannerSpec} (hcrate : ReportsMatches llm) (heng : GuardEngine.fromConfig llm cfg = .ok eng)
    (hq : cfg.guardrails.lookup name = some q) (hmode : q.mode = .block) (hout : q.outputScanners = [spec])
    (hkind : spec.kind = "secrets") (haction : spec.action = none ∨ spec.action = some .block) :
    ∃ p o, BlocksAll llm eng name p o ∧ p.holdback = q.outputHoldbackChars ∧ o.pipeline = [secretsScan llm] := by
  rcases policy_of_config heng with ⟨hn, -⟩ | ⟨q', p, hq', hp, hc⟩
  · rw [hn] at hq
    cases hq
  cases hq.symm.trans hq'
  unfold compilePolicy at hc
  obtain ⟨_, -, hc⟩ := Fallible.of_bind_ok hc
  obtain ⟨input, -, hc⟩ := Fallible.of_bind_ok hc
  rw [hout, compile_secrets llm name hkind] at hc
  obtain ⟨output, hoc, hc⟩ := Fallible.of_bind_ok hc
  cases hoc
  cases hc
  refine ⟨_, _, ⟨hp, rfl, ?_⟩, rfl, rfl⟩
  intro t m hm
  have hm := (hcrate.single _ t).mem_iff.mp hm
  obtain ⟨hscanner, r, hr, -, hsev⟩ := hcrate.regex _ _ t m (List.mem_filter.mp hm).1
  have hblock : m.severity = .block := hsev.trans (secretPatterns_block r hr)
  unfold CompiledScanners.judge
  simp only [hscanner, hblock, hmode]
  rcases haction with ha | ha <;> rw [ha] <;> rfl

/-- A text of a reply in which the scanner keeps no match: what the patterns
find there, the text itself shows to be a presigned key ID or a longer value. -/
def KeepsNone (llm : LlmGuard) (t : Text) : Prop :=
  ∀ m ∈ llm.regexScan "secrets" secretPatterns t, inPresignedUrl t m = true ∨ longerThanASecretKey t m = true

theorem secretsScan_nil {llm : LlmGuard} {t : Text} : (secretsScan llm).scan t = [] ↔ KeepsNone llm t := by
  unfold KeepsNone secretsScan
  simp only [List.filter_eq_nil_iff, Bool.and_eq_true, Bool.not_eq_true', not_and_or, Bool.not_eq_false]

/-- A reply that passes screened whole also passes streamed exactly when the
scanner keeps no match in any of the windows. -/
theorem secrets_stream_agrees_iff {llm : LlmGuard} {cfg : GuardrailsConfig} {eng : GuardEngine} {name : String}
    {q : Policy} {spec : ScannerSpec} (hcrate : ReportsMatches llm) (heng : GuardEngine.fromConfig llm cfg = .ok eng)
    (hq : cfg.guardrails.lookup name = some q) (hmode : q.mode = .block) (hout : q.outputScanners = [spec])
    (hkind : spec.kind = "secrets") (haction : spec.action = none ∨ spec.action = some .block) (deltas : List Text) :
    ((eng.screenOutput llm name deltas.flatten).1.blockers = [] →
        ∀ s ∈ (OutputGuard.new eng name).feed llm eng deltas, s.release.isBlocked = false) ↔
      ¬ KeepsNone llm deltas.flatten ∨ ∀ t ∈ windows q.outputHoldbackChars [] deltas, KeepsNone llm t := by
  obtain ⟨p, o, hs, hhold, hpipe⟩ := secrets_blocks_all hcrate heng hq hmode hout hkind haction
  have hnil : ∀ t, llm.pipelineScan o.pipeline t = [] ↔ KeepsNone llm t := by
    intro t
    rw [hpipe, ← secretsScan_nil]
    exact ⟨fun h => (h ▸ hcrate.single _ t).nil_eq.symm, fun h => (h ▸ hcrate.single _ t).eq_nil⟩
  have hnew : Holds name p [] (OutputGuard.new eng name) :=
    ⟨rfl, by simp [OutputGuard.new, GuardEngine.holdback, hs.policy], by simp [OutputGuard.new, List.rtake]⟩
  have hwhole : (eng.screenOutput llm name deltas.flatten).1.blockers = [] ↔ KeepsNone llm deltas.flatten := by
    rw [← hnil, ← not_iff_not]
    exact hs.screenOutput deltas.flatten
  have hfeed : (∀ s ∈ (OutputGuard.new eng name).feed llm eng deltas, s.release.isBlocked = false) ↔
      ∀ t ∈ windows q.outputHoldbackChars [] deltas, KeepsNone llm t := by
    have h := not_congr (hs.feed deltas hnew)
    simp only [not_exists, not_and, Bool.not_eq_true, not_not, hnil, hhold] at h
    exact h
  rw [hwhole, hfeed, imp_iff_not_or]

/-! ## A key that is longer than a key -/

def labelledKey : Text := "aws_secret_access_key=".toList ++ List.replicate 40 'A'

def labelledKeyGuard : LlmGuard where
  pipelineScan scanners t := scanners.flatMap (·.scan t)
  regexScan name pats t :=
    if labelledKey.isPrefixOf t then
      (pats.filter (·.id == "aws_secret_key")).map fun r => ⟨name, r.id, r.severity, 0, labelledKey.length⟩
    else []
  piiPatterns := ⟨"pii", fun _ => []⟩
  invisibleText := ⟨"invisible_text", fun _ => []⟩
  roleOverride := ⟨"role_override", fun _ => []⟩
  scriptMix _ := ⟨"script_mix", fun _ => []⟩
  tokenLimit _ := ⟨"token_limit", fun _ => []⟩
  banSubstrings name _ _ := ⟨name, fun _ => []⟩
  commonInjectionPatterns := []

theorem labelledKeyGuard_reports : ReportsMatches labelledKeyGuard where
  single s t := List.Perm.of_eq (List.append_nil _)
  regex name pats t m hm := by
    unfold labelledKeyGuard at hm
    simp only at hm
    split at hm
    · obtain ⟨r, hr, rfl⟩ := List.mem_map.mp hm
      exact ⟨rfl, r, (List.mem_filter.mp hr).1, rfl, rfl⟩
    · cases hm

def secretsPolicy : Policy where
  scanners := []
  outputScanners := [.named "secrets"]

def secretsEngine : GuardEngine := ⟨[("p", {
  mode := .block
  input := ⟨[], [], []⟩
  wantsClassifier := false
  classifier := none
  output := some ⟨[secretsScan labelledKeyGuard], [], [("secrets", 0)]⟩
  holdback := 256 })]⟩

theorem secretsEngine_config : GuardEngine.fromConfig labelledKeyGuard ⟨[("p", secretsPolicy)]⟩ = .ok secretsEngine := rfl

/-- The value goes on for one more character, which arrives in a delta of its own. -/
theorem secrets_stream_agrees_iff_longer :
    (((secretsEngine.screenOutput labelledKeyGuard "p" [labelledKey, ['A']].flatten).1.blockers = [] →
        ∀ s ∈ (OutputGuard.new secretsEngine "p").feed labelledKeyGuard secretsEngine [labelledKey, ['A']],
          s.release.isBlocked = false) ↔
      ¬ KeepsNone labelledKeyGuard [labelledKey, ['A']].flatten ∨
        ∀ t ∈ windows 256 [] [labelledKey, ['A']], KeepsNone labelledKeyGuard t) :=
  secrets_stream_agrees_iff labelledKeyGuard_reports secretsEngine_config (q := secretsPolicy) rfl rfl rfl rfl
    (.inl rfl) [labelledKey, ['A']]

theorem longer_value_blocked_streaming :
    (secretsEngine.screenOutput labelledKeyGuard "p" (labelledKey ++ ['A'])).1.blockers = [] ∧
      ((OutputGuard.new secretsEngine "p").push labelledKeyGuard secretsEngine labelledKey).release =
        .blocked ["secrets"] ∧
      ¬ ((secretsEngine.screenOutput labelledKeyGuard "p" [labelledKey, ['A']].flatten).1.blockers = [] →
        ∀ s ∈ (OutputGuard.new secretsEngine "p").feed labelledKeyGuard secretsEngine [labelledKey, ['A']],
          s.release.isBlocked = false) := by
  have hwhole : (secretsEngine.screenOutput labelledKeyGuard "p" (labelledKey ++ ['A'])).1.blockers = [] := by
    decide +kernel
  have hpush : ((OutputGuard.new secretsEngine "p").push labelledKeyGuard secretsEngine labelledKey).release =
      .blocked ["secrets"] := by decide +kernel
  refine ⟨hwhole, hpush, ?_⟩
  intro h
  have hb := h hwhole _ (List.mem_cons_self ..)
  rw [hpush] at hb
  cases hb

end SynapseGateway
