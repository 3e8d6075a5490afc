import SynapseGateway.HarnessPin
import SynapseGateway.HarnessSession
import SynapseGateway.Lib.Slots

/-!
# What is stored and what is busy

Only what a call has run is recorded, under an id of its own, and a turn goes on from a
response that is stored. A session that a call holds is busy.
-/

namespace SynapseGateway

/-! ## What a run records -/

section
variable {g : Gateway} {t : Turn}

theorem storedBy_append (xs ys : List TurnEvent) : storedBy (xs ++ ys) = (storedBy xs).or (storedBy ys) :=
  List.findSome?_append

theorem storedBy_bind {α β : Type} (x : TurnM α) (f : α → TurnM β) (hx : storedBy x.events = none) :
    ∀ r, storedBy (x >>= f).events = some r → ∃ a, x.result = .ok a ∧ storedBy (f a).events = some r := by
  intro r hr
  cases ha : x.result with
  | error e =>
    rw [Trace.bind_of_error ha, hx] at hr
    cases hr
  | ok a =>
    rw [Trace.bind_of_ok ha] at hr
    simp only [storedBy_append, hx, Option.none_or] at hr
    exact ⟨a, rfl, hr⟩

theorem decideHarness2d_stores (route : HarnessJevRoute) (grid : EligibleGrid) (askProfile askHorizon : Bool) :
    storedBy (g.decideHarness2d t route grid askProfile askHorizon).events = none := by
  unfold Gateway.decideHarness2d
  cases g.jevNative with
  | none => rfl
  | some provider =>
    simp only [Trace.emit_bind]
    cases callHarnessJev provider _ with
    | error outcome => rfl
    | ok d => rfl

theorem planJevHarness_stores (route : HarnessJevRoute) (mode : RoutingMode) :
    storedBy (g.planJevHarness t route mode).events = none := by
  unfold Gateway.planJevHarness
  cases eligibleGrid route g.harnesses.bases t.requirements with
  | none => rfl
  | some grid =>
    simp only
    by_cases hmode : mode = .staticOverride
    · rw [if_pos hmode, Trace.pure_bind]
      split <;> rfl
    · rw [if_neg hmode]
      obtain ⟨selection, hs⟩ := decideHarness2d_ok g t route grid
        (t.session.isNone && decide (grid.activeProfiles.length ≥ 2)) route.router.horizonThreshold.isSome
      rw [Trace.bind_of_ok hs]
      simp only [storedBy_append, decideHarness2d_stores, Option.none_or]
      split <;> rfl

theorem planHarnessRoute_stores : storedBy (g.planHarnessRoute t).events = none := by
  unfold Gateway.planHarnessRoute
  split
  · rfl
  · simp only
    split
    · rfl
    · split
      · exact planJevHarness_stores _ _
      · exact planJevHarness_stores _ _
      · rfl

theorem walkLegs_stores {plan : HarnessRoutePlan} {runner : UhpRunner} {attempt : Nat} {failures : List LegFailure}
    {legs : List PlannedHarnessLeg} {r : StoredUhpResponse}
    (h : storedBy (g.walkLegs t plan runner attempt failures legs).events = some r) :
    ∃ leg ∈ legs, ∃ output envId cost, r = ⟨t.responseId, t.sessionRecord (t.dispatch plan leg) output,
      t.responseBody (t.dispatch plan leg) output envId cost⟩ := by
  induction legs generalizing attempt failures with
  | nil => cases h
  | cons leg legs ih =>
    unfold Gateway.walkLegs at h
    rw [Trace.emit_bind] at h
    cases hrun : runner attempt (t.dispatch plan leg) with
    | ok output =>
      rw [hrun] at h
      exact ⟨leg, List.mem_cons_self .., output, _, _, (Option.some.inj h).symm⟩
    | error err =>
      rw [hrun] at h
      obtain ⟨leg', hleg', hr⟩ := ih h
      exact ⟨leg', List.mem_cons_of_mem _ hleg', hr⟩

/-- The response is one the turn can have recorded: a leg of its plan was run. -/
def Gateway.Ran (g : Gateway) (t : Turn) (r : StoredUhpResponse) : Prop :=
  ∃ answers plan leg output envId cost, ((g.under answers).planHarnessRoute t).result = .ok plan ∧ leg ∈ plan.legs ∧
    r = ⟨t.responseId, t.sessionRecord (t.dispatch plan leg) output,
      t.responseBody (t.dispatch plan leg) output envId cost⟩

theorem runTurn_ran {answers : Answers} {r : StoredUhpResponse}
    (h : storedBy ((g.under answers).runTurn t).events = some r) : g.Ran t r := by
  obtain ⟨plan, hplan, h⟩ := storedBy_bind _ _ planHarnessRoute_stores r h
  split at h
  · cases h
  · obtain ⟨leg, hleg, output, envId, cost, hr⟩ := walkLegs_stores h
    exact ⟨answers, plan, leg, output, envId, cost, hplan, hleg, hr⟩

theorem ofRun_ran {answers : Answers} {t' : Turn} {r : StoredUhpResponse}
    {result : Except GatewayError (Json × HarnessRoutingReport)}
    (h : TurnPhase.ofRun t ((g.under answers).runTurn t) = .ran t' r result) : g.Ran t' r := by
  unfold TurnPhase.ofRun at h
  split at h
  · rename_i stored hstored
    cases h
    exact runTurn_ran hstored
  · cases h

end

/-! ## What a recorded response says -/

namespace Gateway.Ran

variable {g : Gateway} {t : Turn} {r : StoredUhpResponse}

theorem responseId (h : g.Ran t r) : r.responseId = t.responseId := by
  obtain ⟨_, _, _, _, _, _, -, -, rfl⟩ := h
  rfl

theorem sessionId (h : g.Ran t r) : r.session.sessionId = t.sessionId := by
  obtain ⟨_, _, _, _, _, _, -, -, rfl⟩ := h
  rfl

theorem harnessId (h : g.Ran t r) : r.session.harnessId = t.harnessId := by
  obtain ⟨_, _, _, _, _, _, -, -, rfl⟩ := h
  rfl

theorem turnCount (h : g.Ran t r) : r.session.turnCount = (t.session.map (·.turnCount + 1)).getD 1 := by
  obtain ⟨_, _, _, _, _, _, -, -, rfl⟩ := h
  rfl

theorem previous (h : g.Ran t r) : r.previous = t.req.previousResponseId := by
  obtain ⟨_, _, _, _, _, _, -, -, rfl⟩ := h
  show ((some (optStr (t.req.previousResponseId.map String.toList))).bind Json.asStr).map String.ofList = _
  cases t.req.previousResponseId with
  | none => rfl
  | some id => exact congrArg some (String.ofList_toList ..)

theorem history (h : g.Ran t r) : r.session.history =
    (t.session.map (·.history)).getD [] ++ [("user", t.req.promptText), ("assistant", r.outputText)] := by
  obtain ⟨_, _, _, _, _, _, -, -, rfl⟩ := h
  rfl

theorem pins (h : g.Ran t r) : g.Pins t.routeAlias r.session := by
  obtain ⟨answers, plan, leg, output, _, _, hplan, hleg, rfl⟩ := h
  exact sessionRecord_pins hplan hleg output

theorem keeps_pin (h : g.Ran t r) (hg : g.harnesses.Valid) {session : UhpSessionRecord} (hs : t.session = some session)
    (hpins : g.Pins t.routeAlias session) :
    r.session.pinnedBase = session.pinnedBase ∧ r.session.pinnedProfile = session.pinnedProfile := by
  obtain ⟨answers, plan, leg, output, _, _, hplan, hleg, rfl⟩ := h
  exact ⟨plan_keeps_base hs hplan hleg, plan_keeps_profile (g := g.under answers) hg hs hpins hplan hleg⟩

end Gateway.Ran

/-! ## What holds of every state -/

def Gateway.routeOf (g : Gateway) (harnessId : String) : String :=
  ((g.harnesses.harness harnessId).getD { name := harnessId, base := "auto", route := some harnessId }).route.getD
    harnessId

/-- The turn goes on from a response that is stored, on its session and its harness. -/
structure Gateway.Resolved (g : Gateway) (stored : List StoredUhpResponse) (t : Turn) : Prop where
  previous : t.req.previousResponseId = t.prior.map (·.responseId)
  stored : ∀ p, t.prior = some p → p ∈ stored
  session : ∀ p, t.prior = some p → t.sessionId = p.session.sessionId
  harness : ∀ p, t.prior = some p → t.harnessId = p.session.harnessId
  route : t.routeAlias = g.routeOf t.harnessId

/-- Stored is what recorded, each response under an id of its own. -/
structure UhpState.StoreInv (g : Gateway) (s : UhpState) : Prop where
  responses : s.store.responses = s.recorded.map fun c => (c.2.responseId, c.2)
  nodup : (s.recorded.map (·.2.responseId)).Nodup
  used : ∀ c ∈ s.recorded, c.2.responseId ∈ s.responseIds
  turns : ∀ c ∈ s.recorded, g.Resolved (s.recorded.map (·.2)) c.1 ∧ g.Ran c.1 c.2
  pending : ∀ (c : Nat) (phase : TurnPhase) (t : Turn), s.calls[c]? = some phase → phase.pending = some t →
    g.Resolved (s.recorded.map (·.2)) t ∧ t.responseId ∈ s.responseIds ∧
      ∀ d ∈ s.recorded, d.2.responseId ≠ t.responseId
  own : ∀ (c d : Nat) (p q : TurnPhase) (t u : Turn), s.calls[c]? = some p → p.pending = some t →
    s.calls[d]? = some q → q.pending = some u → t.responseId = u.responseId → c = d
  ran : ∀ (c : Nat) (t : Turn) (r : StoredUhpResponse) (result : Except GatewayError (Json × HarnessRoutingReport)),
    s.calls[c]? = some (.ran t r result) → g.Ran t r

/-- Of the calls of one session, at most one is between its acquire and its release. -/
def UhpState.Exclusive (s : UhpState) : Prop :=
  ∀ (c d : Nat) (p q : TurnPhase) (t u : Turn), s.calls[c]? = some p → p.holds = some t → s.calls[d]? = some q →
    q.holds = some u → t.sessionId = u.sessionId → c = d

/-- A session that a call holds is busy, and no other call holds it. -/
structure UhpState.LockInv (s : UhpState) : Prop where
  busy : ∀ (c : Nat) (phase : TurnPhase) (t : Turn), s.calls[c]? = some phase → phase.holds = some t →
    t.sessionId ∈ s.store.busySessions
  exclusive : s.Exclusive

section
variable {g : Gateway} {s s' : UhpState} {a : UhpAction}

theorem Gateway.Resolved.mono {t : Turn} {stored stored' : List StoredUhpResponse} (h : g.Resolved stored t)
    (hsub : ∀ r ∈ stored, r ∈ stored') : g.Resolved stored' t :=
  { h with stored := fun p hp => hsub p (h.stored p hp) }

theorem UhpState.StoreInv.lookup_iff (h : s.StoreInv g) {id : String} {r : StoredUhpResponse} :
    s.store.getResponse id = some r ↔ r ∈ s.recorded.map (·.2) ∧ r.responseId = id := by
  unfold UhpSessionStore.getResponse
  rw [h.responses]
  constructor
  · intro hr
    obtain ⟨c, hc, heq⟩ := List.mem_map.mp (Assoc.mem_of_lookup hr)
    cases heq
    exact ⟨List.mem_map_of_mem hc, rfl⟩
  · intro h
    obtain ⟨hr, rfl⟩ := h
    obtain ⟨c, hc, rfl⟩ := List.mem_map.mp hr
    refine Assoc.lookup_of_mem ?_ (List.mem_map.mpr ⟨c, hc, rfl⟩)
    rw [List.map_map]
    exact h.nodup

/-- A step that records nothing and lets no call become pending. -/
theorem UhpState.StoreInv.put (h : s.StoreInv g) {c : Nat} {old new : TurnPhase} (hc : s.calls[c]? = some old)
    (hpending : ∀ t, new.pending = some t → old.pending = some t)
    (hran : ∀ t r result, new = .ran t r result → g.Ran t r) (hcalls : s'.calls = s.calls.set c new)
    (hresponses : s'.store.responses = s.store.responses) (hids : s'.responseIds = s.responseIds)
    (hrecorded : s'.recorded = s.recorded) : s'.StoreInv g := by
  have hbefore : ∀ (d : Nat) (phase : TurnPhase) (t : Turn), s'.calls[d]? = some phase → phase.pending = some t →
      ∃ phase', s.calls[d]? = some phase' ∧ phase'.pending = some t := by
    intro d phase t hd ht
    rw [hcalls] at hd
    rcases Slots.of_set hd with ⟨rfl, rfl⟩ | ⟨-, hd⟩
    · exact ⟨old, hc, hpending t ht⟩
    · exact ⟨phase, hd, ht⟩
  refine { responses := ?_, nodup := ?_, used := ?_, turns := ?_, pending := ?_, own := ?_, ran := ?_ }
  · rw [hresponses, hrecorded]
    exact h.responses
  · rw [hrecorded]
    exact h.nodup
  · rw [hrecorded, hids]
    exact h.used
  · rw [hrecorded]
    exact h.turns
  · rw [hrecorded, hids]
    intro d phase t hd ht
    obtain ⟨phase', hd, ht⟩ := hbefore d phase t hd ht
    exact h.pending d phase' t hd ht
  · intro d e p q t u hd ht he hu hsame
    obtain ⟨p', hd, ht⟩ := hbefore d p t hd ht
    obtain ⟨q', he, hu⟩ := hbefore e q u he hu
    exact h.own d e p' q' t u hd ht he hu hsame
  · intro d t r result hd
    rw [hcalls] at hd
    rcases Slots.of_set hd with ⟨-, hnew⟩ | ⟨-, hd⟩
    · exact hran t r result hnew.symm
    · exact h.ran d t r result hd

theorem priorOf_ok {store : UhpSessionStore} {req : UhpCreateRequest} {prior : Option StoredUhpResponse}
    (h : priorOf store req = .ok prior) :
    (req.previousResponseId = none ∧ prior = none) ∨
      ∃ id p, req.previousResponseId = some id ∧ store.getResponse id = some p ∧ prior = some p := by
  unfold priorOf at h
  split at h
  · rename_i hnone
    cases h
    exact .inl ⟨hnone, rfl⟩
  · rename_i id hid
    split at h
    · rename_i p hp
      cases h
      exact .inr ⟨id, p, hid, hp, rfl⟩
    · cases h

theorem harnessIdOf_ok {req : UhpCreateRequest} {p : StoredUhpResponse} {harnessId : String}
    (h : g.harnessIdOf req (some p) = .ok harnessId) : harnessId = p.session.harnessId := by
  unfold Gateway.harnessIdOf at h
  cases hreq : req.harnessId with
  | none =>
    rw [hreq] at h
    cases h
    rfl
  | some requested =>
    rw [hreq] at h
    simp only at h
    split at h
    · cases h
    · rename_i hsame
      cases h
      simpa using hsame

theorem resolveTurn_ok (h : s.StoreInv g) {ctx : RequestCtx} {ids : FreshIds} {req : UhpCreateRequest} {t : Turn}
    (ht : g.resolveTurn s.store ctx ids req = .ok t) :
    g.Resolved (s.recorded.map (·.2)) t ∧ t.responseId = ids.response := by
  obtain ⟨prior, hprior, ht⟩ := Fallible.of_bind_ok ht
  obtain ⟨harnessId, hharness, ht⟩ := Fallible.of_bind_ok ht
  cases ht
  rcases priorOf_ok hprior with ⟨hprev, rfl⟩ | ⟨id, p, hprev, hp, rfl⟩
  · exact ⟨⟨hprev, fun _ h => (by cases h), fun _ h => (by cases h), fun _ h => (by cases h), rfl⟩, rfl⟩
  · obtain ⟨hmem, hid⟩ := h.lookup_iff.mp hp
    refine ⟨⟨?_, ?_, ?_, ?_, rfl⟩, rfl⟩
    · show req.previousResponseId = some p.responseId
      rw [hprev, hid]
    · intro q hq
      cases hq
      exact hmem
    · intro q hq
      cases hq
      rfl
    · intro q hq
      cases hq
      exact harnessIdOf_ok hharness

theorem pending_ofLookup {r : Except GatewayError Turn} {t : Turn} (h : (TurnPhase.ofLookup r).pending = some t) :
    r = .ok t := by
  cases r with
  | error e => cases h
  | ok u =>
    cases h
    rfl

theorem UhpState.StoreInv.lookup (h : s.StoreInv g) (ctx : RequestCtx) {ids : FreshIds} (req : UhpCreateRequest)
    (hr : ids.response ∉ s.responseIds) :
    UhpState.StoreInv g { s with
      calls := s.calls ++ [.ofLookup (g.resolveTurn s.store ctx ids req)]
      responseIds := ids.response :: s.responseIds } := by
  have hnew : ∀ {phase : TurnPhase} {t : Turn}, phase = .ofLookup (g.resolveTurn s.store ctx ids req) →
      phase.pending = some t → g.Resolved (s.recorded.map (·.2)) t ∧ t.responseId = ids.response := by
    rintro phase t rfl ht
    exact resolveTurn_ok h (pending_ofLookup ht)
  refine { responses := h.responses, nodup := h.nodup, used := ?_, turns := h.turns, pending := ?_, own := ?_, ran := ?_ }
  · exact fun c hc => List.mem_cons_of_mem _ (h.used c hc)
  · intro c phase t hc ht
    rcases Slots.of_concat hc with ⟨-, hphase⟩ | hc
    · obtain ⟨hresolved, hid⟩ := hnew hphase ht
      refine ⟨hresolved, hid ▸ List.mem_cons_self .., ?_⟩
      intro d hd hsame
      exact hr (hid ▸ hsame ▸ h.used d hd)
    · obtain ⟨hresolved, hused, hfresh⟩ := h.pending c phase t hc ht
      exact ⟨hresolved, List.mem_cons_of_mem _ hused, hfresh⟩
  · intro c d p q t u hc ht hd hu hsame
    rcases Slots.of_concat hc with ⟨rfl, hp⟩ | hc <;> rcases Slots.of_concat hd with ⟨rfl, hq⟩ | hd
    · rfl
    · exact absurd ((hnew hp ht).2 ▸ hsame ▸ (h.pending d q u hd hu).2.1) hr
    · exact absurd ((hnew hq hu).2 ▸ hsame ▸ (h.pending c p t hc ht).2.1) hr
    · exact h.own c d p q t u hc ht hd hu hsame
  · intro c t r result hc
    rcases Slots.of_concat hc with ⟨-, hphase⟩ | hc
    · cases hlookup : g.resolveTurn s.store ctx ids req with
      | error e =>
        rw [hlookup] at hphase
        cases hphase
      | ok u =>
        rw [hlookup] at hphase
        cases hphase
    · exact h.ran c t r result hc

theorem UhpState.StoreInv.record (h : s.StoreInv g) {c : Nat} {t : Turn} {r : StoredUhpResponse}
    {result : Except GatewayError (Json × HarnessRoutingReport)} (hc : s.calls[c]? = some (.ran t r result)) :
    UhpState.StoreInv g (UhpState.put
      { s with
        store := s.store.recordResponse r
        recorded := (t, r) :: s.recorded } c (.closing t result)) := by
  have hran := h.ran c t r result hc
  obtain ⟨hresolved, hused, hfresh⟩ := h.pending c _ t hc rfl
  have hsub : ∀ q ∈ s.recorded.map (·.2), q ∈ ((t, r) :: s.recorded).map (·.2) :=
    fun q hq => List.mem_cons_of_mem _ hq
  refine { responses := ?_, nodup := ?_, used := ?_, turns := ?_, pending := ?_, own := ?_, ran := ?_ }
  · exact congrArg (List.cons (r.responseId, r)) h.responses
  · refine List.nodup_cons.mpr ⟨?_, h.nodup⟩
    intro hmem
    obtain ⟨d, hd, hsame⟩ := List.mem_map.mp hmem
    exact hfresh d hd (hsame.trans hran.responseId)
  · refine List.forall_mem_cons.mpr ⟨?_, h.used⟩
    rw [hran.responseId]
    exact hused
  · refine List.forall_mem_cons.mpr ⟨⟨hresolved.mono hsub, hran⟩, ?_⟩
    exact fun d hd => ⟨(h.turns d hd).1.mono hsub, (h.turns d hd).2⟩
  · intro d phase u hd hu
    rcases Slots.of_set hd with ⟨-, rfl⟩ | ⟨hne, hd⟩
    · cases hu
    · obtain ⟨hresolved', hused', hfresh'⟩ := h.pending d phase u hd hu
      refine ⟨hresolved'.mono hsub, hused', List.forall_mem_cons.mpr ⟨?_, hfresh'⟩⟩
      rw [hran.responseId]
      exact fun hsame => hne (h.own d c phase _ u t hd hu hc rfl hsame.symm)
  · intro d e p q u v hd hu he hv hsame
    rcases Slots.of_set hd with ⟨-, rfl⟩ | ⟨-, hd⟩
    · cases hu
    rcases Slots.of_set he with ⟨-, rfl⟩ | ⟨-, he⟩
    · cases hv
    · exact h.own d e p q u v hd hu he hv hsame
  · intro d u r' result' hd
    rcases Slots.of_set hd with ⟨-, hphase⟩ | ⟨-, hd⟩
    · cases hphase
    · exact h.ran d u r' result' hd

theorem pending_ofRun {t u : Turn} {r : TurnM (Json × HarnessRoutingReport)} (h : (TurnPhase.ofRun t r).pending = some u) :
    u = t := by
  unfold TurnPhase.ofRun at h
  split at h
  · cases h
    rfl
  · cases h

theorem storeInv_step (h : s.StoreInv g) (hstep : UhpStep g s a s') : s'.StoreInv g := by
  cases hstep with
  | lookup ctx ids req hr => exact h.lookup ctx req hr
  | acquire hc hfree =>
    refine h.put hc ?_ ?_ rfl rfl rfl rfl
    · exact fun _ ht => ht
    · exact fun _ _ _ hp => by cases hp
  | reject hc hbusy =>
    refine h.put hc ?_ ?_ rfl rfl rfl rfl
    · exact fun _ ht => by cases ht
    · exact fun _ _ _ hp => by cases hp
  | run hc answers =>
    refine h.put hc ?_ (fun _ _ _ hp => ofRun_ran hp) rfl rfl rfl rfl
    intro u hu
    rw [pending_ofRun hu]
    rfl
  | record hc => exact h.record hc
  | release hc =>
    refine h.put hc ?_ ?_ rfl rfl rfl rfl
    · exact fun _ ht => by cases ht
    · exact fun _ _ _ hp => by cases hp
  | drop hc =>
    refine h.put hc ?_ ?_ rfl rfl rfl rfl
    · exact fun _ ht => by cases ht
    · exact fun _ _ _ hp => by cases hp

/-! ## Locks -/

/-- A step that leaves the locks and lets no call hold one it did not. -/
theorem UhpState.LockInv.put (h : s.LockInv) {c : Nat} {old new : TurnPhase} (hc : s.calls[c]? = some old)
    (hholds : ∀ t, new.holds = some t → old.holds = some t) (hcalls : s'.calls = s.calls.set c new)
    (hbusy : s'.store.busySessions = s.store.busySessions) : s'.LockInv := by
  have hbefore : ∀ (d : Nat) (phase : TurnPhase) (t : Turn), s'.calls[d]? = some phase → phase.holds = some t →
      ∃ phase', s.calls[d]? = some phase' ∧ phase'.holds = some t := by
    intro d phase t hd ht
    rw [hcalls] at hd
    rcases Slots.of_set hd with ⟨rfl, rfl⟩ | ⟨-, hd⟩
    · exact ⟨old, hc, hholds t ht⟩
    · exact ⟨phase, hd, ht⟩
  constructor
  · intro d phase t hd ht
    obtain ⟨phase', hd, ht⟩ := hbefore d phase t hd ht
    rw [hbusy]
    exact h.busy d phase' t hd ht
  · intro d e p q t u hd ht he hu hsame
    obtain ⟨p', hd, ht⟩ := hbefore d p t hd ht
    obtain ⟨q', he, hu⟩ := hbefore e q u he hu
    exact h.exclusive d e p' q' t u hd ht he hu hsame

theorem tryAcquire_ok {store : UhpSessionStore} {id : String} (h : store.tryAcquireSession id = .ok ()) :
    id ∉ store.busySessions := by
  unfold UhpSessionStore.tryAcquireSession at h
  split at h
  · cases h
  · rename_i hfree
    exact fun hmem => hfree (List.contains_iff_mem.mpr hmem)

theorem UhpState.LockInv.acquire (h : s.LockInv) {c : Nat} {t : Turn} (hfree : t.sessionId ∉ s.store.busySessions) :
    (UhpState.put { s with store := s.store.acquire t.sessionId } c (.acquired t)).LockInv := by
  constructor
  · intro d phase u hd hu
    rcases Slots.of_set hd with ⟨-, rfl⟩ | ⟨-, hd⟩
    · cases hu
      exact List.mem_cons_self ..
    · exact List.mem_cons_of_mem _ (h.busy d phase u hd hu)
  · intro d e p q u v hd hu he hv hsame
    rcases Slots.of_set hd with ⟨hdc, hp⟩ | ⟨-, hd'⟩ <;> rcases Slots.of_set he with ⟨hec, hq⟩ | ⟨-, he'⟩
    · exact hdc.trans hec.symm
    · rw [hp] at hu
      cases hu
      exact absurd (hsame ▸ h.busy e q v he' hv) hfree
    · rw [hq] at hv
      cases hv
      exact absurd (hsame ▸ h.busy d p u hd' hu) hfree
    · exact h.exclusive d e p q u v hd' hu he' hv hsame

theorem UhpState.LockInv.release (h : s.LockInv) {c : Nat} {old new : TurnPhase} {t : Turn}
    (hc : s.calls[c]? = some old) (ht : old.holds = some t) (hnew : new.holds = none) :
    (UhpState.put { s with store := s.store.release t.sessionId } c new).LockInv := by
  constructor
  · intro d phase u hd hu
    rcases Slots.of_set hd with ⟨-, rfl⟩ | ⟨hne, hd⟩
    · rw [hnew] at hu
      cases hu
    · refine List.mem_filter.mpr ⟨h.busy d phase u hd hu, ?_⟩
      rw [bne_iff_ne]
      exact fun hsame => hne (h.exclusive d c phase old u t hd hu hc ht hsame)
  · intro d e p q u v hd hu he hv hsame
    rcases Slots.of_set hd with ⟨-, rfl⟩ | ⟨-, hd⟩
    · rw [hnew] at hu
      cases hu
    rcases Slots.of_set he with ⟨-, rfl⟩ | ⟨-, he⟩
    · rw [hnew] at hv
      cases hv
    · exact h.exclusive d e p q u v hd hu he hv hsame

theorem holds_ofRun {t : Turn} (r : TurnM (Json × HarnessRoutingReport)) : (TurnPhase.ofRun t r).holds = some t := by
  unfold TurnPhase.ofRun
  split <;> rfl

theorem lockInv_step (h : s.LockInv) (hstep : UhpStep g s a s') : s'.LockInv := by
  cases hstep with
  | lookup ctx ids req hr =>
    have hold : ∀ r : Except GatewayError Turn, (TurnPhase.ofLookup r).holds = none := by
      intro r
      cases r <;> rfl
    constructor
    · intro c phase t hc ht
      rcases Slots.of_concat hc with ⟨-, rfl⟩ | hc
      · rw [hold] at ht
        cases ht
      · exact h.busy c phase t hc ht
    · intro c d p q t u hc ht hd hu hsame
      rcases Slots.of_concat hc with ⟨-, rfl⟩ | hc
      · rw [hold] at ht
        cases ht
      rcases Slots.of_concat hd with ⟨-, rfl⟩ | hd
      · rw [hold] at hu
        cases hu
      · exact h.exclusive c d p q t u hc ht hd hu hsame
  | acquire hc hfree => exact h.acquire (tryAcquire_ok hfree)
  | reject hc hbusy =>
    refine h.put hc ?_ rfl rfl
    exact fun _ ht => by cases ht
  | run hc answers =>
    refine h.put hc ?_ rfl rfl
    intro u hu
    rw [holds_ofRun] at hu
    exact hu
  | record hc =>
    refine h.put hc ?_ rfl rfl
    exact fun _ ht => ht
  | release hc => exact h.release hc rfl rfl
  | drop hc => exact h.release hc rfl rfl

end

end SynapseGateway
