import SynapseGateway.HarnessSound
import SynapseGateway.StreamAgree

/-!
# Screening harness turns

A harness route names a policy, and no part of a turn reads it: a prompt the
policy blocks goes outside as any other does.
-/

namespace SynapseGateway

variable {g : Gateway} {t : Turn}

def Gateway.policyOf (g : Gateway) (t : Turn) : String := (g.harnesses.policy t.routeAlias).getD "default"

def Gateway.BlocksPrompt (llm : LlmGuard) (g : Gateway) (t : Turn) : Prop :=
  (∃ p, g.guard.policy (g.policyOf t) = some p ∧ p.mode = .block) ∧
    ∃ scanners patterns, (g.guard.screen llm (g.policyOf t) .chat [[t.req.promptText]]).1.outcome =
      .error (.contentBlocked (g.policyOf t) scanners patterns)

/-- A request whose prompt its policy blocks ends in an error, with no Jev call,
no runner call and no recorded response. -/
def TurnScreened (llm : LlmGuard) (g : Gateway) (store : UhpSessionStore) (ctx : RequestCtx) (ids : FreshIds)
    (req : UhpCreateRequest) : Prop :=
  ∀ t, g.resolveTurn store ctx ids req = .ok t → g.BlocksPrompt llm t →
    (g.uhpResponse store ctx ids req).Refuses TurnEvent.Outside

/-- The turn ends before anything outside is reached: its session is busy, its
route has no leg for it, or there is neither a runner nor a decision to ask for. -/
def Gateway.EndsInside (g : Gateway) (store : UhpSessionStore) (t : Turn) : Prop :=
  t.sessionId ∈ store.busySessions ∨ ¬ g.HasLeg t ∨ g.uhpRunner = none ∧ ¬ g.AsksJev t

theorem walkLegs_executes {plan : HarnessRoutePlan} (runner : UhpRunner) (attempt : Nat) (failures : List LegFailure)
    {legs : List PlannedHarnessLeg} (hne : legs ≠ []) :
    ¬ (g.walkLegs t plan runner attempt failures legs).Refuses TurnEvent.Outside := by
  cases legs with
  | nil => exact absurd rfl hne
  | cons leg legs =>
    unfold Gateway.walkLegs
    exact Trace.not_refuses_of_mem (List.mem_singleton_self _) trivial _

theorem uhpResponse_refuses_iff {store : UhpSessionStore} {ctx : RequestCtx} {ids : FreshIds} {req : UhpCreateRequest}
    (ht : g.resolveTurn store ctx ids req = .ok t) :
    (g.uhpResponse store ctx ids req).Refuses TurnEvent.Outside ↔ g.EndsInside store t := by
  unfold Gateway.uhpResponse Gateway.EndsInside
  rw [ht, Trace.lift_bind_ok]
  unfold UhpSessionStore.tryAcquireSession
  by_cases hbusy : t.sessionId ∈ store.busySessions
  · rw [if_pos (List.contains_iff_mem.mpr hbusy), Trace.lift_bind_error]
    exact iff_of_true (Trace.refuses_fail _ _) (.inl hbusy)
  rw [if_neg (fun h => hbusy (List.contains_iff_mem.mp h)), Trace.lift_bind_ok]
  by_cases hleg : g.HasLeg t
  · have hplanned := planHarnessRoute_planned hleg
    obtain ⟨plan, hplan, hne⟩ := hplanned.ok
    by_cases hask : g.AsksJev t
    · obtain ⟨body, hbody⟩ := hplanned.asks hask
      refine iff_of_false (Trace.not_refuses_of_mem hbody trivial _) ?_
      intro h
      obtain h | h | h := h
      · exact hbusy h
      · exact h hleg
      · exact h.2 hask
    · rw [Trace.refuses_bind_ok hplan (hplanned.quiet hask)]
      cases hr : g.uhpRunner with
      | none => exact iff_of_true (Trace.refuses_fail _ _) (.inr (.inr ⟨rfl, hask⟩))
      | some runner =>
        refine iff_of_false (walkLegs_executes runner 0 [] hne) ?_
        intro h
        obtain h | h | h := h
        · exact hbusy h
        · exact h hleg
        · cases h.1
  · exact iff_of_true ((planHarnessRoute_refuses hleg).bind _) (.inr (.inl hleg))

/-- A turn is screened exactly when its policy does not block its prompt or it
ends inside for another reason. -/
theorem turn_screened_iff (llm : LlmGuard) (g : Gateway) (store : UhpSessionStore) (ctx : RequestCtx) (ids : FreshIds)
    (req : UhpCreateRequest) : TurnScreened llm g store ctx ids req ↔
      ∀ t, g.resolveTurn store ctx ids req = .ok t → ¬ g.BlocksPrompt llm t ∨ g.EndsInside store t := by
  unfold TurnScreened
  constructor
  · intro h t ht
    by_cases hblocks : g.BlocksPrompt llm t
    · exact .inr ((uhpResponse_refuses_iff ht).mp (h t ht hblocks))
    · exact .inl hblocks
  · intro h t ht hblocks
    exact (uhpResponse_refuses_iff ht).mpr ((h t ht).resolve_left (not_not_intro hblocks))

/-! ## A blocked prompt that runs -/

def promptConfig : GuardrailsConfig := ⟨[("default", {
  scanners := [.detailed { kind := "ban_substrings", substrings := ["##"], action := some .block }] })]⟩

def promptPolicy : CompiledPolicy := { hashPolicy .block with input := hashScanners .block, output := none, holdback := 256 }

def autoLeg : StaticHarnessLeg := ⟨"pi", { provider := "anthropic", model := "claude-haiku" }, .anthropicMessages⟩

def autoGateway : Gateway where
  harnesses := {
    bases := [("pi", { wire := [.anthropicMessages] })]
    harnesses := [("chrn_default", { name := "default-agent", base := "auto", route := some "auto" })]
    staticRoutes := [("auto", [autoLeg])]
    policies := [("auto", "default")] }
  guard := ⟨[("default", promptPolicy)]⟩
  uhpRunner := some fun _ _ => .ok ⟨"done".toList, 1, 1, 1⟩

def hashRequest : UhpCreateRequest := { input := str "x##y" }

/-- The runner is called and the response recorded, though the policy of the
route blocks the prompt. -/
theorem blocked_prompt_runs :
    GuardEngine.fromConfig substringGuard promptConfig = .ok autoGateway.guard ∧
    (∃ t, autoGateway.resolveTurn {} {} ⟨"sess_1", "resp_1"⟩ hashRequest = .ok t ∧
      autoGateway.BlocksPrompt substringGuard t) ∧
    (∃ d, TurnEvent.executeTurn d ∈ (autoGateway.uhpResponse {} {} ⟨"sess_1", "resp_1"⟩ hashRequest).events) ∧
    (∃ s, TurnEvent.recordResponse s ∈ (autoGateway.uhpResponse {} {} ⟨"sess_1", "resp_1"⟩ hashRequest).events) ∧
    ¬ TurnScreened substringGuard autoGateway {} {} ⟨"sess_1", "resp_1"⟩ hashRequest := by
  obtain ⟨t, ht⟩ : ∃ t, autoGateway.resolveTurn {} {} ⟨"sess_1", "resp_1"⟩ hashRequest = .ok t := ⟨_, rfl⟩
  have hblocks : autoGateway.BlocksPrompt substringGuard t := by
    cases ht
    exact ⟨⟨promptPolicy, rfl, rfl⟩, ["ban_substrings"], [], rfl⟩
  have hruns : ∃ d, TurnEvent.executeTurn d ∈ (autoGateway.uhpResponse {} {} ⟨"sess_1", "resp_1"⟩ hashRequest).events :=
    ⟨_, List.mem_cons_self ..⟩
  refine ⟨rfl, ⟨t, ht, hblocks⟩, hruns, ⟨_, List.mem_cons_of_mem _ (List.mem_cons_of_mem _ (List.mem_cons_self ..))⟩, ?_⟩
  intro h
  obtain ⟨d, hd⟩ := hruns
  exact (h t ht hblocks).2 _ hd trivial

end SynapseGateway
