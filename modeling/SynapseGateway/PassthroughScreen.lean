import SynapseGateway.GuardLeaves
import SynapseGateway.MaskedMatches
import SynapseGateway.PassthroughPolicies

/-!
# Screening a passthrough body

A body is screened under one policy after the other, in the order of their
names, and each writes its masks back before the next one scans. So a policy may
be shown less, or other, text than the caller sent.
-/

namespace SynapseGateway

open Utf8 (Text hits)

/-- Passthrough actions whose body is a Gemini request. -/
def GEMINI_BODY_ACTIONS : List String :=
  ["generateContent", "streamGenerateContent", "embedContent", "batchEmbedContents"]

def leavesFor (action : String) : Traversal Json Text :=
  if action ∈ GEMINI_BODY_ACTIONS then geminiLeaves else bodyLeaves

section
variable (llm : LlmGuard) (eng : GuardEngine)

/-- One policy of `screenGemini`: the verdict, and the body with its leaves written back. -/
def screenBody (action policy : String) (body : Json) : Except GatewayError Bool × Json :=
  let r := eng.screen llm policy .passthrough [(leavesFor action).read body]
  (r.1.outcome, (leavesFor action).write body (r.2.headD []))

def screenUnder (action : String) : List String → Json → Bool → Except GatewayError (Json × Bool)
  | [], body, masked => .ok (body, masked)
  | policy :: policies, body, masked =>
    let r := screenBody llm eng action policy body
    match r.1 with
    | .error e => .error e
    | .ok d => screenUnder action policies r.2 (masked || d)

/-- Screens a Gemini passthrough body under every policy of the routes that list
`model`. The request is masked when any policy masked it. -/
def screenGemini (routes : RouteTable) (model action : String) (body : Json) : Except GatewayError (Json × Bool) :=
  screenUnder llm eng action (routes.passthroughPolicies model) body false

end

/-! ## What each policy is shown -/

section
variable (llm : LlmGuard) (eng : GuardEngine)

def GuardEngine.RejectsSegment (policy : String) (seg : Segment) : Prop :=
  ∃ p, eng.policy policy = some p ∧ p.Rejects llm [seg]

/-- The leaves a policy leaves. -/
def GuardEngine.leaves (policy : String) (seg : Segment) : Segment :=
  match eng.policy policy with
  | none => seg
  | some p => if ¬ p.BlocksSegment llm seg ∧ p.MasksSegment llm seg then p.maskedLeaves llm seg else seg

/-- The leaves as the policies before have left them. -/
def GuardEngine.shown (before : List String) (seg : Segment) : Segment :=
  before.foldl (fun seg policy => eng.leaves llm policy seg) seg

/-- Some policy rejects what the policies before it leave of a segment. -/
def GuardEngine.RejectsInTurn (policies : List String) (seg : Segment) : Prop :=
  ∃ before policy after, policies = before ++ policy :: after ∧
    eng.RejectsSegment llm policy (eng.shown llm before seg)

end

section
variable {llm : LlmGuard} {eng : GuardEngine} {policy action : String} {body : Json} {seg : Segment}

theorem shownLeaves_length (llm : LlmGuard) (eng : GuardEngine) (policy : String) (seg : Segment) :
    (eng.leaves llm policy seg).length = seg.length := by
  unfold GuardEngine.leaves
  split
  · rfl
  · split
    · exact applyFrom_length _ _ _
    · rfl

theorem screen_singleton (llm : LlmGuard) (eng : GuardEngine) (policy : String) (lane : GuardLane) (seg : Segment) :
    (eng.screen llm policy lane [seg]).2 = [eng.leaves llm policy seg] := by
  rw [screen_eq_screenRun]
  unfold GuardEngine.leaves
  cases hp : eng.policy policy with
  | none =>
    unfold GuardEngine.screenRun
    rw [hp]
  | some p =>
    simp only
    rw [screenRun_segments hp]
    exact congrArg (fun leaves => [leaves]) scan_leaves

theorem screen_error_iff (llm : LlmGuard) (eng : GuardEngine) (policy : String) (lane : GuardLane) (seg : Segment) :
    (∃ e, (eng.screen llm policy lane [seg]).1.outcome = .error e) ↔ eng.RejectsSegment llm policy seg := by
  rw [screen_eq_screenRun]
  unfold GuardEngine.RejectsSegment
  cases hp : eng.policy policy with
  | none =>
    unfold GuardEngine.screenRun
    rw [hp]
    simp
  | some p =>
    rw [screenRun_error_iff hp]
    simp

theorem screenBody_error_iff : (∃ e, (screenBody llm eng action policy body).1 = .error e) ↔
    eng.RejectsSegment llm policy ((leavesFor action).read body) := screen_error_iff llm eng policy _ _

theorem screenBody_read : (leavesFor action).read (screenBody llm eng action policy body).2 =
    eng.leaves llm policy ((leavesFor action).read body) := by
  unfold screenBody
  simp only [screen_singleton, List.headD_cons]
  exact (leavesFor action).read_write body _ (shownLeaves_length llm eng policy _)

theorem rejectsInTurn_cons {policies : List String} :
    eng.RejectsInTurn llm (policy :: policies) seg ↔
      eng.RejectsSegment llm policy seg ∨ eng.RejectsInTurn llm policies (eng.leaves llm policy seg) := by
  constructor
  · intro h
    obtain ⟨before, p, after, heq, hrej⟩ := h
    cases before with
    | nil =>
      obtain ⟨rfl, rfl⟩ := List.cons.inj heq
      exact .inl hrej
    | cons q before =>
      obtain ⟨rfl, rfl⟩ := List.cons.inj heq
      exact .inr ⟨before, p, after, rfl, hrej⟩
  · intro h
    obtain hrej | ⟨before, p, after, rfl, hrej⟩ := h
    · exact ⟨[], policy, policies, rfl, hrej⟩
    · exact ⟨policy :: before, p, after, rfl, hrej⟩

/-- The request is rejected when some policy rejects what it is shown. -/
theorem screenUnder_error_iff (policies : List String) (body : Json) (masked : Bool) :
    (∃ e, screenUnder llm eng action policies body masked = .error e) ↔
      eng.RejectsInTurn llm policies ((leavesFor action).read body) := by
  induction policies generalizing body masked with
  | nil => simp [screenUnder, GuardEngine.RejectsInTurn]
  | cons policy policies ih =>
    rw [rejectsInTurn_cons, ← screenBody_error_iff]
    unfold screenUnder
    cases hr : (screenBody llm eng action policy body).1 with
    | error e =>
      simp only [hr]
      exact iff_of_true ⟨e, rfl⟩ (.inl ⟨e, rfl⟩)
    | ok d =>
      have hok : ¬ ∃ e, (Except.ok d : Except GatewayError Bool) = .error e := by simp
      simp only [hr]
      rw [ih, screenBody_read, or_iff_right hok]

end

/-! ## One verdict for any order -/

/-- The request is rejected when one of its policies, by itself, rejects the body. -/
def ScreensTogether (llm : LlmGuard) (eng : GuardEngine) (routes : RouteTable) (model action : String) (body : Json) :
    Prop :=
  (∃ e, screenGemini llm eng routes model action body = .error e) ↔
    ∃ policy ∈ routes.passthroughPolicies model, ∃ e, (screenBody llm eng action policy body).1 = .error e

/-- The classifier of a policy, asked about the masked leaves, rejects them. -/
def GuardEngine.ClassifierRejects (llm : LlmGuard) (eng : GuardEngine) (name : String) (seg : Segment) : Prop :=
  ∃ p, eng.policy name = some p ∧
    ∃ c, p.classifier = some c ∧ c.Rejects p.mode (c.score (p.classifiedText llm [seg]))

/-- A policy by itself finds a match that blocks, or its classifier rejects. -/
def SomeFinds (llm : LlmGuard) (eng : GuardEngine) (policies : List String) (seg : Segment) : Prop :=
  ∃ name ∈ policies, eng.blocking llm name seg ≠ [] ∨ eng.ClassifierRejects llm name seg

/-- A match that blocks survives the masks of the policies before its own. -/
def SomeBlockKept (llm : LlmGuard) (eng : GuardEngine) (policies : List String) (seg : Segment) : Prop :=
  ∃ before name after, policies = before ++ name :: after ∧ eng.KeepsBlock llm before name seg

/-- A redaction is part of a match that blocks. -/
def SomeBlockMade (llm : LlmGuard) (eng : GuardEngine) (policies : List String) (seg : Segment) : Prop :=
  ∃ first mask between name after, policies = first ++ mask :: (between ++ name :: after) ∧
    eng.MakesBlock llm first mask between name seg

/-- A classifier rejects what the masks before it leave. -/
def SomeClassifierRejects (llm : LlmGuard) (eng : GuardEngine) (policies : List String) (seg : Segment) : Prop :=
  ∃ before name after, policies = before ++ name :: after ∧
    eng.ClassifierRejects llm name (eng.masked llm before seg)

/-- A match that blocks survives the masks; or, where none does, one is made by a
redaction or a classifier rejects exactly when a policy by itself finds something. -/
def MasksKeepBlocks (llm : LlmGuard) (eng : GuardEngine) (policies : List String) (seg : Segment) : Prop :=
  SomeBlockKept llm eng policies seg ∨
    (SomeBlockMade llm eng policies seg ∨ SomeClassifierRejects llm eng policies seg ↔ SomeFinds llm eng policies seg)

def RouteTable.rename (σ : String → String) (t : RouteTable) : RouteTable :=
  { t with policies := t.policies.map fun e => (e.1, σ e.2) }

def GuardEngine.rename (σ : String → String) (eng : GuardEngine) : GuardEngine :=
  ⟨eng.policies.map fun e => (σ e.1, e.2)⟩

section
variable {llm : LlmGuard} {eng : GuardEngine} {routes : RouteTable} {model action : String} {body : Json}
  {σ : String → String}

theorem leaves_eq_apply (name : String) (seg : Segment) :
    eng.leaves llm name seg = apply seg (eng.masks llm name seg) := by
  unfold GuardEngine.leaves GuardEngine.masks
  cases eng.policy name with
  | none => exact (applyFrom_nil 0 seg).symm
  | some p => exact CompiledPolicy.apply_masks.symm

theorem shown_eq_masked (before : List String) (seg : Segment) : eng.shown llm before seg = eng.masked llm before seg := by
  induction before generalizing seg with
  | nil => rfl
  | cons name before ih =>
    show eng.shown llm before (eng.leaves llm name seg) = _
    rw [ih, leaves_eq_apply]
    rfl

theorem rejectsSegment_iff (name : String) (seg : Segment) : eng.RejectsSegment llm name seg ↔
    eng.blocking llm name seg ≠ [] ∨ eng.ClassifierRejects llm name seg := by
  unfold GuardEngine.RejectsSegment GuardEngine.blocking GuardEngine.ClassifierRejects CompiledPolicy.Rejects
  cases eng.policy name with
  | none => simp
  | some p =>
    simp only [Option.some.injEq, exists_eq_left', List.mem_singleton, exists_eq_left, forall_eq,
      CompiledPolicy.blocks_iff_blocking]
    exact or_congr_right' fun hnot => and_iff_right hnot

/-- What rejects a segment under policies in turn, match by match. -/
theorem rejectsInTurn_iff {policies : List String} {seg : Segment}
    (hrep : ∀ name ∈ policies, eng.ReportsPatterns llm name) : eng.RejectsInTurn llm policies seg ↔
      SomeBlockKept llm eng policies seg ∨ SomeBlockMade llm eng policies seg ∨
        SomeClassifierRejects llm eng policies seg := by
  have hsplit : ∀ before name after, policies = before ++ name :: after →
      (eng.blocking llm name (eng.masked llm before seg) ≠ [] ↔ eng.KeepsBlock llm before name seg ∨
        ∃ first mask between, before = first ++ mask :: between ∧ eng.MakesBlock llm first mask between name seg) := by
    rintro before name after rfl
    exact blocking_after (fun n hn => hrep n (List.mem_append_left _ hn))
      (hrep name (List.mem_append_right before List.mem_cons_self))
  unfold GuardEngine.RejectsInTurn SomeBlockKept SomeBlockMade SomeClassifierRejects
  simp only [rejectsSegment_iff, shown_eq_masked]
  constructor
  · rintro ⟨before, name, after, heq, hblock | hclass⟩
    · rcases (hsplit before name after heq).mp hblock with hkept | ⟨first, mask, between, rfl, hmade⟩
      · exact .inl ⟨before, name, after, heq, hkept⟩
      · refine .inr (.inl ⟨first, mask, between, name, after, ?_, hmade⟩)
        rw [heq, List.append_assoc, List.cons_append]
    · exact .inr (.inr ⟨before, name, after, heq, hclass⟩)
  · rintro (⟨before, name, after, heq, hkept⟩ | ⟨first, mask, between, name, after, heq, hmade⟩ |
      ⟨before, name, after, heq, hclass⟩)
    · exact ⟨before, name, after, heq, .inl ((hsplit before name after heq).mpr (.inl hkept))⟩
    · have heq' : policies = (first ++ mask :: between) ++ name :: after := by
        rw [heq, List.append_assoc, List.cons_append]
      exact ⟨_, name, after, heq', .inl ((hsplit _ name after heq').mpr (.inr ⟨first, mask, between, rfl, hmade⟩))⟩
    · exact ⟨before, name, after, heq, .inr hclass⟩

theorem or_iff_of_imp {a b c : Prop} (h : a → c) : (a ∨ b ↔ c) ↔ a ∨ (b ↔ c) := by
  by_cases ha : a
  · exact iff_of_true (iff_of_true (.inl ha) (h ha)) (.inl ha)
  · rw [or_iff_right ha, or_iff_right ha]

theorem SomeBlockKept.finds {policies : List String} {seg : Segment} (h : SomeBlockKept llm eng policies seg) :
    SomeFinds llm eng policies seg := by
  obtain ⟨before, name, after, rfl, m, hm, -⟩ := h
  exact ⟨name, List.mem_append_right before List.mem_cons_self, .inl (List.ne_nil_of_mem hm)⟩

theorem screensTogether_iff (hrep : ∀ name ∈ routes.passthroughPolicies model, eng.ReportsPatterns llm name) :
    ScreensTogether llm eng routes model action body ↔
      MasksKeepBlocks llm eng (routes.passthroughPolicies model) ((leavesFor action).read body) := by
  unfold ScreensTogether screenGemini
  simp only [screenUnder_error_iff, screenBody_error_iff, rejectsInTurn_iff hrep, rejectsSegment_iff]
  exact or_iff_of_imp SomeBlockKept.finds

theorem policy_rename (hσ : σ.Injective) (policy : String) : (eng.rename σ).policy (σ policy) = eng.policy policy := by
  unfold GuardEngine.policy GuardEngine.rename
  induction eng.policies with
  | nil => rfl
  | cons e es ih =>
    obtain ⟨n, p⟩ := e
    rw [List.map_cons, Assoc.lookup_cons, Assoc.lookup_cons, ih]
    simp only [hσ.eq_iff]

theorem policyOf_rename (hdef : σ "default" = "default") (name : String) :
    ((routes.rename σ).policyOf name).getD "default" = σ ((routes.policyOf name).getD "default") := by
  have h : (routes.rename σ).policyOf name = (routes.policyOf name).map σ :=
    Assoc.lookup_map routes.policies (fun _ => σ) name
  rw [h]
  cases routes.policyOf name with
  | none => exact hdef.symm
  | some p => rfl

theorem listing_rename : (routes.rename σ).listing model = routes.listing model := rfl

theorem mem_passthroughPolicies_rename (hdef : σ "default" = "default") {p : String} :
    p ∈ (routes.rename σ).passthroughPolicies model ↔ ∃ q ∈ routes.passthroughPolicies model, σ q = p := by
  unfold RouteTable.passthroughPolicies
  by_cases h : routes.Eligible model
  · rw [if_pos h, if_pos (show (routes.rename σ).Eligible model from h)]
    simp [policyOf_rename hdef, eq_comm]
  · rw [if_neg h, if_neg (show ¬ (routes.rename σ).Eligible model from h)]
    simp only [mem_sortedDedup, policyOf_rename hdef, listing_rename]
    cases routes.listing model with
    | nil =>
      simp only [List.map_nil, List.isEmpty_nil, if_true, List.mem_singleton, exists_eq_left, hdef]
      exact eq_comm
    | cons e es =>
      simp only [List.map_cons, List.isEmpty_cons, Bool.false_eq_true, if_false]
      rw [← List.mem_map, List.map_cons, List.map_map]
      rfl

/-- Renaming the policies changes neither which of them there are nor what each does alone. -/
theorem alone_rename (hσ : σ.Injective) (hdef : σ "default" = "default") :
    (∃ policy ∈ (routes.rename σ).passthroughPolicies model, ∃ e,
        (screenBody llm (eng.rename σ) action policy body).1 = .error e) ↔
      ∃ policy ∈ routes.passthroughPolicies model, ∃ e, (screenBody llm eng action policy body).1 = .error e := by
  simp only [screenBody_error_iff, mem_passthroughPolicies_rename hdef, GuardEngine.RejectsSegment]
  constructor
  · intro h
    obtain ⟨_, ⟨q, hq, rfl⟩, hrej⟩ := h
    rw [policy_rename hσ] at hrej
    exact ⟨q, hq, hrej⟩
  · intro h
    obtain ⟨q, hq, hrej⟩ := h
    refine ⟨σ q, ⟨q, hq, rfl⟩, ?_⟩
    rwa [policy_rename hσ]

theorem reports_rename (hσ : σ.Injective) (hdef : σ "default" = "default")
    (hrep : ∀ name ∈ routes.passthroughPolicies model, eng.ReportsPatterns llm name) :
    ∀ name ∈ (routes.rename σ).passthroughPolicies model, (eng.rename σ).ReportsPatterns llm name := by
  intro name hname p hp
  obtain ⟨q, hq, rfl⟩ := (mem_passthroughPolicies_rename hdef).mp hname
  rw [policy_rename hσ] at hp
  exact hrep q hq p hp

end

/-- One verdict under the policies' names and under any others: exactly when, in
both orders, the masks keep what blocks. -/
theorem screenGemini_together_iff (llm : LlmGuard) (eng : GuardEngine) (routes : RouteTable) (model action : String)
    (body : Json) {σ : String → String} (hσ : σ.Injective) (hdef : σ "default" = "default")
    (hrep : ∀ name ∈ routes.passthroughPolicies model, eng.ReportsPatterns llm name) :
    (ScreensTogether llm eng routes model action body ∧
        ((∃ e, screenGemini llm (eng.rename σ) (routes.rename σ) model action body = .error e) ↔
          ∃ e, screenGemini llm eng routes model action body = .error e)) ↔
      MasksKeepBlocks llm eng (routes.passthroughPolicies model) ((leavesFor action).read body) ∧
        MasksKeepBlocks llm (eng.rename σ) ((routes.rename σ).passthroughPolicies model)
          ((leavesFor action).read body) := by
  rw [← screensTogether_iff hrep, ← screensTogether_iff (reports_rename hσ hdef hrep)]
  unfold ScreensTogether
  rw [alone_rename hσ hdef]
  constructor
  · intro h
    exact ⟨h.1, h.2.trans h.1⟩
  · intro h
    exact ⟨h.1, h.2.trans h.1.symm⟩

/-! ## A mask that hides a block -/

def twoPolicies : GuardrailsConfig := ⟨[
  ("a", { scanners := [.detailed { kind := "ban_substrings", substrings := ["##"], action := some .mask }] }),
  ("strict", { scanners := [.detailed { kind := "ban_substrings", substrings := ["##"], action := some .block }] })]⟩

def twoRoutes : RoutesFile where
  routes := [
    ("aaa", { legs := some [{ provider := "vertex", model := "gemini-2.5-flash" }], policy := some "a" }),
    ("chat", { legs := some [{ provider := "vertex", model := "gemini-2.5-flash" }], policy := some "strict" })]
  nodup := by decide

def hashBody : Json :=
  .object [("contents", .array [.object [("role", str "user"), ("parts", .array [.object [("text", str "x##y")]])]])]

/-- The names `a` and `z` change places. -/
def renameA (name : String) : String := if name = "a" then "z" else if name = "z" then "a" else name

theorem renameA_injective : renameA.Injective := by
  apply Function.Involutive.injective
  intro n
  unfold renameA
  by_cases ha : n = "a"
  · simp [ha]
  · by_cases hz : n = "z"
    · simp [hz]
    · simp [ha, hz]

theorem twoPolicies_report {eng : GuardEngine} (heng : GuardEngine.fromConfig substringGuard twoPolicies = .ok eng)
    (name : String) (p : CompiledPolicy) (hp : eng.policy name = some p) :
    p.mode = .block ∧ ∀ t, substringGuard.pipelineScan p.input.pipeline t =
      (hits (substringPatterns "ban_substrings" ["##"] .block) t).map toMatch := by
  cases heng
  have hmem := Assoc.mem_of_lookup hp
  obtain h | hmem := List.mem_cons.mp hmem
  · cases h
    exact ⟨rfl, fun t => List.append_nil _⟩
  · obtain h := List.mem_singleton.mp hmem
    cases h
    exact ⟨rfl, fun t => List.append_nil _⟩

theorem screenGemini_together_swapped : ∃ eng routes, GuardEngine.fromConfig substringGuard twoPolicies = .ok eng ∧
    RouteTable.fromFile twoRoutes = .ok routes ∧
    ((ScreensTogether substringGuard eng routes "gemini-2.5-flash" "generateContent" hashBody ∧
        ((∃ e, screenGemini substringGuard (eng.rename renameA) (routes.rename renameA)
            "gemini-2.5-flash" "generateContent" hashBody = .error e) ↔
          ∃ e, screenGemini substringGuard eng routes "gemini-2.5-flash" "generateContent" hashBody = .error e)) ↔
      MasksKeepBlocks substringGuard eng (routes.passthroughPolicies "gemini-2.5-flash")
          ((leavesFor "generateContent").read hashBody) ∧
        MasksKeepBlocks substringGuard (eng.rename renameA)
          ((routes.rename renameA).passthroughPolicies "gemini-2.5-flash")
          ((leavesFor "generateContent").read hashBody)) := by
  obtain ⟨eng, heng⟩ : ∃ eng, GuardEngine.fromConfig substringGuard twoPolicies = .ok eng := ⟨_, rfl⟩
  obtain ⟨routes, hroutes⟩ : ∃ routes, RouteTable.fromFile twoRoutes = .ok routes := ⟨_, rfl⟩
  refine ⟨eng, routes, heng, hroutes, screenGemini_together_iff substringGuard eng routes "gemini-2.5-flash"
    "generateContent" hashBody renameA_injective (by decide) ?_⟩
  intro name _ p hp
  exact ⟨_, fun t => List.Perm.of_eq ((twoPolicies_report heng name p hp).2 t)⟩

/-- Policy `strict` by itself rejects the body; after policy `a` has masked it,
it passes. Named `z`, that policy comes last and the request is rejected. -/
theorem mask_hides_block : ∃ eng routes, GuardEngine.fromConfig substringGuard twoPolicies = .ok eng ∧
    RouteTable.fromFile twoRoutes = .ok routes ∧
    routes.passthroughPolicies "gemini-2.5-flash" = ["a", "strict"] ∧
    (∀ name p, eng.policy name = some p → p.mode = .block ∧ ∀ t,
      substringGuard.pipelineScan p.input.pipeline t =
        (hits (substringPatterns "ban_substrings" ["##"] .block) t).map toMatch) ∧
    (screenBody substringGuard eng "generateContent" "strict" hashBody).1 =
      .error (.contentBlocked "strict" ["ban_substrings"] []) ∧
    (screenGemini substringGuard eng routes "gemini-2.5-flash" "generateContent" hashBody).isOk = true ∧
    renameA.Injective ∧
    (screenGemini substringGuard (eng.rename renameA) (routes.rename renameA) "gemini-2.5-flash" "generateContent"
      hashBody).isOk = false ∧
    ¬ ScreensTogether substringGuard eng routes "gemini-2.5-flash" "generateContent" hashBody := by
  obtain ⟨eng, heng⟩ : ∃ eng, GuardEngine.fromConfig substringGuard twoPolicies = .ok eng := ⟨_, rfl⟩
  obtain ⟨routes, hroutes⟩ : ∃ routes, RouteTable.fromFile twoRoutes = .ok routes := ⟨_, rfl⟩
  have hpolicies : routes.passthroughPolicies "gemini-2.5-flash" = ["a", "strict"] := by
    cases hroutes
    decide +kernel
  have halone : (screenBody substringGuard eng "generateContent" "strict" hashBody).1 =
      .error (.contentBlocked "strict" ["ban_substrings"] []) := by
    cases heng
    decide +kernel
  have hok : (screenGemini substringGuard eng routes "gemini-2.5-flash" "generateContent" hashBody).isOk = true := by
    cases heng
    cases hroutes
    decide +kernel
  refine ⟨eng, routes, heng, hroutes, hpolicies, twoPolicies_report heng, halone, hok, renameA_injective, ?_, ?_⟩
  · cases heng
    cases hroutes
    decide +kernel
  · intro h
    obtain ⟨e, he⟩ := h.mpr ⟨"strict", by rw [hpolicies]; decide, _, halone⟩
    rw [he] at hok
    cases hok

end SynapseGateway
