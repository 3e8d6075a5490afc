import SynapseGateway.OutputSound

/-!
# Streaming and buffered screening agree

For every configured policy whose output pipeline reports the occurrences of
patterns no longer than the holdback.
-/

namespace SynapseGateway

open Utf8

/-! ## What a configured policy promises -/

theorem compilePolicy_output {llm : LlmGuard} {name : String} {q : Policy} {p : CompiledPolicy} {o : CompiledScanners}
    (h : compilePolicy llm name q = .ok p) (ho : p.output = some o) :
    checkMasks name "output_scanners" q.outputScanners = .ok () ∧
      CompiledScanners.compile llm name q.outputScanners = .ok o := by
  unfold compilePolicy at h
  obtain ⟨_, hcheck, h⟩ := Fallible.of_bind_ok h
  obtain ⟨input, -, h⟩ := Fallible.of_bind_ok h
  refine ⟨(checkPolicy_ok hcheck).2.1, ?_⟩
  split at h
  · obtain ⟨output, hout, h⟩ := Fallible.of_bind_ok h
    cases hout
    cases h
    cases ho
  · obtain ⟨output, hout, h⟩ := Fallible.of_bind_ok h
    obtain ⟨o', hc, rfl⟩ := Fallible.of_map_ok hout
    cases h
    cases ho
    exact hc

theorem mapM_compilePolicy {llm : LlmGuard} (name : String) {l : List (String × Policy)}
    {l' : List (String × CompiledPolicy)}
    (h : (l.mapM fun (name, p) => do .ok (name, ← compilePolicy llm name p)) = Except.ok (ε := String) l') :
    (l.lookup name = none ∧ l'.lookup name = none) ∨
      ∃ q p, l.lookup name = some q ∧ l'.lookup name = some p ∧ compilePolicy llm name q = .ok p := by
  induction l generalizing l' with
  | nil =>
    cases h
    exact .inl ⟨rfl, rfl⟩
  | cons np l ih =>
    obtain ⟨n, q⟩ := np
    rw [List.mapM_cons] at h
    obtain ⟨_, hx, h⟩ := Fallible.of_bind_ok h
    obtain ⟨p', hp', hx⟩ := Fallible.of_bind_ok hx
    cases hx
    obtain ⟨l'', hl'', h⟩ := Fallible.of_bind_ok h
    cases h
    rw [Assoc.lookup_cons, Assoc.lookup_cons]
    by_cases heq : name = n
    · rw [if_pos heq, if_pos heq]
      exact .inr ⟨q, p', rfl, rfl, heq ▸ hp'⟩
    · rw [if_neg heq, if_neg heq]
      exact ih hl''

theorem policy_of_config {llm : LlmGuard} {cfg : GuardrailsConfig} {eng : GuardEngine} {name : String}
    (heng : GuardEngine.fromConfig llm cfg = .ok eng) :
    (cfg.guardrails.lookup name = none ∧ eng.policy name = none) ∨
      ∃ q p, cfg.guardrails.lookup name = some q ∧ eng.policy name = some p ∧ compilePolicy llm name q = .ok p := by
  obtain ⟨l, hl, rfl⟩ := Fallible.of_map_ok heng
  exact mapM_compilePolicy name hl

theorem screens_of_config {llm : LlmGuard} {cfg : GuardrailsConfig} {eng : GuardEngine} {name : String}
    {p : CompiledPolicy} {o : CompiledScanners} {pats : List (Pattern MatchTag)}
    (heng : GuardEngine.fromConfig llm cfg = .ok eng) (hp : eng.policy name = some p) (ho : p.output = some o)
    (hrep : ∀ t, (llm.pipelineScan o.pipeline t).Perm ((hits pats t).map toMatch))
    (hlen : ∀ q ∈ pats, q.text.length ≤ eng.holdback name) : Screens llm eng name p o pats := by
  obtain ⟨q, hq⟩ : ∃ q, compilePolicy llm name q = .ok p := by
    rcases policy_of_config heng with ⟨-, hn⟩ | ⟨q, p', -, hp', hq⟩
    · rw [hn] at hp
      cases hp
    · cases hp.symm.trans hp'
      exact ⟨q, hq⟩
  obtain ⟨hm, hc⟩ := compilePolicy_output hq ho
  refine ⟨hp, ho, hrep, fun q hqm => ?_, fun n n' => compile_mask_order llm hc hm⟩
  have := hlen q hqm
  rwa [GuardEngine.holdback, hp] at this

/-- Feeding a reply in deltas blocks exactly when screening it whole does; when
it does not, it releases the same text and records the same matches. -/
theorem feed_agrees {llm : LlmGuard} {cfg : GuardrailsConfig} {eng : GuardEngine} {name : String}
    {p : CompiledPolicy} {o : CompiledScanners} {pats : List (Pattern MatchTag)}
    (heng : GuardEngine.fromConfig llm cfg = .ok eng) (hp : eng.policy name = some p) (ho : p.output = some o)
    (hrep : ∀ t, (llm.pipelineScan o.pipeline t).Perm ((hits pats t).map toMatch))
    (hlen : ∀ q ∈ pats, q.text.length ≤ eng.holdback name) (deltas : List Text) :
    ((∃ s ∈ (OutputGuard.new eng name).feed llm eng deltas, s.release.isBlocked = true) ↔
        (eng.screenOutput llm name deltas.flatten).1.blockers ≠ []) ∧
      ((eng.screenOutput llm name deltas.flatten).1.blockers = [] →
        (((OutputGuard.new eng name).feed llm eng deltas).map (·.release.released)).flatten =
            (eng.screenOutput llm name deltas.flatten).2.1 ∧
          ((OutputGuard.new eng name).feedRecords llm eng 0 deltas).Perm
            (eng.screenOutput llm name deltas.flatten).2.2) := by
  have hs := screens_of_config heng hp ho hrep hlen
  have hg := new_under hs
  have hheld : (OutputGuard.new eng name).held ++ deltas.flatten = deltas.flatten := rfl
  constructor
  · rw [feed_blocks hs _ hg, hheld, screenOutput_blocks hs]
  · intro hpass
    have hb : ¬ Blocks p o pats deltas.flatten := fun h => (screenOutput_blocks hs _).mpr h hpass
    obtain ⟨h₁, h₂⟩ := feed_passes hs 0 hg (hheld ▸ hb)
    obtain ⟨h₃, h₄⟩ := screenOutput_passes hs hb
    rw [hheld] at h₁ h₂
    refine ⟨h₁.trans h₃.symm, h₂.trans (List.Perm.trans (List.Perm.of_eq ?_) h₄.symm)⟩
    exact List.map_id'' (fun r => rfl) _

/-! ## A crate of substring scanners -/

def substringPatterns (name : String) (subs : List String) (severity : Severity) : List (Pattern MatchTag) :=
  subs.filterMap fun s => if h : s.toList ≠ [] then some ⟨s.toList, h, ⟨name, s, severity⟩⟩ else none

def substringGuard : LlmGuard where
  pipelineScan scanners t := scanners.flatMap (·.scan t)
  regexScan _ _ _ := []
  piiPatterns := ⟨"pii", fun _ => []⟩
  invisibleText := ⟨"invisible_text", fun _ => []⟩
  roleOverride := ⟨"role_override", fun _ => []⟩
  scriptMix _ := ⟨"script_mix", fun _ => []⟩
  tokenLimit _ := ⟨"token_limit", fun _ => []⟩
  banSubstrings name subs severity := ⟨name, fun t => (hits (substringPatterns name subs severity) t).map toMatch⟩
  commonInjectionPatterns := []

def hashConfig (action : Action) : GuardrailsConfig := ⟨[("p", {
  scanners := []
  outputScanners := [.detailed { kind := "ban_substrings", substrings := ["##"], action := some action }]
  outputHoldbackChars := 2 })]⟩

def hashScanners (action : Action) : CompiledScanners where
  pipeline := [substringGuard.banSubstrings "ban_substrings" ["##"] .block]
  actions := [("ban_substrings", action)]
  order := [("ban_substrings", 0)]

def hashPolicy (action : Action) : CompiledPolicy where
  mode := .block
  input := ⟨[], [], []⟩
  wantsClassifier := false
  classifier := none
  output := some (hashScanners action)
  holdback := 2

def hashEngine (action : Action) : GuardEngine := ⟨[("p", hashPolicy action)]⟩

theorem hashEngine_config (action : Action) :
    GuardEngine.fromConfig substringGuard (hashConfig action) = .ok (hashEngine action) := by
  cases action <;> rfl

theorem hashScanners_reports (action : Action) (t : Text) :
    (substringGuard.pipelineScan (hashScanners action).pipeline t).Perm
      ((hits (substringPatterns "ban_substrings" ["##"] .block) t).map toMatch) :=
  List.Perm.of_eq (List.append_nil _)

theorem hashPatterns_short (action : Action) :
    ∀ q ∈ substringPatterns "ban_substrings" ["##"] .block, q.text.length ≤ (hashEngine action).holdback "p" := by
  cases action <;> decide

/-- The two hash signs arrive in two deltas. -/
theorem feed_agrees_hashes :
    ((∃ s ∈ (OutputGuard.new (hashEngine .mask) "p").feed substringGuard (hashEngine .mask) ["x#".toList, "#y".toList],
        s.release.isBlocked = true) ↔
          ((hashEngine .mask).screenOutput substringGuard "p" "x##y".toList).1.blockers ≠ []) ∧
      (((hashEngine .mask).screenOutput substringGuard "p" "x##y".toList).1.blockers = [] →
        (((OutputGuard.new (hashEngine .mask) "p").feed substringGuard (hashEngine .mask)
            ["x#".toList, "#y".toList]).map (·.release.released)).flatten =
              ((hashEngine .mask).screenOutput substringGuard "p" "x##y".toList).2.1 ∧
          ((OutputGuard.new (hashEngine .mask) "p").feedRecords substringGuard (hashEngine .mask) 0
            ["x#".toList, "#y".toList]).Perm
              ((hashEngine .mask).screenOutput substringGuard "p" "x##y".toList).2.2) :=
  feed_agrees (hashEngine_config .mask) rfl rfl (hashScanners_reports .mask) (hashPatterns_short .mask)
    ["x#".toList, "#y".toList]

end SynapseGateway
