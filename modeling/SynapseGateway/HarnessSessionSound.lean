import SynapseGateway.HarnessSessionInv

/-!
# Sessions go on

Whatever order the steps of concurrent calls take, a stored response continues the
one it names: same session, same harness, same pin, one more turn, and a history that
grows by what was said. A session has one call at a time.
-/

namespace SynapseGateway

open Steps

section
variable {g : Gateway} {s s' : UhpState} {a : UhpAction}

/-! ## Chains -/

structure UhpSessionRecord.SameSession (a b : UhpSessionRecord) : Prop where
  sessionId : a.sessionId = b.sessionId
  harnessId : a.harnessId = b.harnessId
  pinnedBase : a.pinnedBase = b.pinnedBase
  pinnedProfile : a.pinnedProfile = b.pinnedProfile

theorem UhpSessionRecord.SameSession.trans {a b c : UhpSessionRecord} (hab : a.SameSession b) (hbc : b.SameSession c) :
    a.SameSession c :=
  ⟨hab.sessionId.trans hbc.sessionId, hab.harnessId.trans hbc.harnessId, hab.pinnedBase.trans hbc.pinnedBase,
    hab.pinnedProfile.trans hbc.pinnedProfile⟩

theorem UhpState.StoreInv.exchange_eq (h : s.StoreInv g) {c : Turn × StoredUhpResponse} (hc : c ∈ s.recorded) :
    s.exchange c.2 = [("user", c.1.req.promptText), ("assistant", c.2.outputText)] := by
  unfold UhpState.exchange
  cases hf : s.recorded.find? fun d => d.2.responseId == c.2.responseId with
  | none =>
    have := List.find?_eq_none.mp hf c hc
    simp at this
  | some d =>
    have hid := List.find?_some hf
    have hd : d = c := List.inj_on_of_nodup_map h.nodup (List.mem_of_find?_eq_some hf) hc (beq_iff_eq.mp hid)
    rw [hd]
    rfl

theorem UhpState.StoreInv.recorded_of (h : s.StoreInv g) {id : String} {r : StoredUhpResponse}
    (hr : s.store.getResponse id = some r) :
    ∃ t, (t, r) ∈ s.recorded ∧ g.Resolved (s.recorded.map (·.2)) t ∧ g.Ran t r := by
  obtain ⟨⟨t, r'⟩, hc, rfl⟩ := List.mem_map.mp (h.lookup_iff.mp hr).1
  exact ⟨t, hc, h.turns _ hc⟩

theorem UhpState.StoreInv.starts (h : s.StoreInv g) {id : String} {r : StoredUhpResponse}
    (hr : s.store.getResponse id = some r) (hprev : r.previous = none) :
    r.session.turnCount = 1 ∧ r.session.history = s.exchange r := by
  obtain ⟨t, hc, hresolved, hran⟩ := h.recorded_of hr
  have hprior : t.prior = none := by
    rw [hran.previous, hresolved.previous] at hprev
    exact Option.map_eq_none_iff.mp hprev
  have hsession : t.session = none := by
    unfold Turn.session
    rw [hprior]
    rfl
  have hturn := hran.turnCount
  have hhistory := hran.history
  rw [hsession] at hturn hhistory
  exact ⟨hturn, hhistory.trans (h.exchange_eq hc).symm⟩

/-- A stored response goes on from the one it names. -/
theorem UhpState.StoreInv.continues (h : s.StoreInv g) (hg : g.harnesses.Valid) {id id' : String}
    {p r : StoredUhpResponse} (hp : s.store.getResponse id = some p) (hr : s.store.getResponse id' = some r)
    (hprev : r.previous = some p.responseId) : r.session.SameSession p.session ∧
      r.session.turnCount = p.session.turnCount + 1 ∧ r.session.history = p.session.history ++ s.exchange r := by
  obtain ⟨t, hc, hresolved, hran⟩ := h.recorded_of hr
  -- the prior response of the turn is the stored one of that id
  have hprior : t.prior = some p := by
    rw [hran.previous, hresolved.previous, Option.map_eq_some_iff] at hprev
    obtain ⟨p', hp', hid⟩ := hprev
    have hstored := h.lookup_iff.mpr ⟨hresolved.stored p' hp', hid⟩
    rw [← (h.lookup_iff.mp hp).2] at hp
    rw [hp', ← Option.some.inj (hp.symm.trans hstored)]
  have hsession : t.session = some p.session := by
    unfold Turn.session
    rw [hprior]
    rfl
  have hharness := hresolved.harness p hprior
  have hpins : g.Pins t.routeAlias p.session := by
    obtain ⟨u, -, huresolved, huran⟩ := h.recorded_of hp
    rw [hresolved.route, hharness, huran.harnessId, ← huresolved.route]
    exact huran.pins
  obtain ⟨hbase, hprofile⟩ := hran.keeps_pin hg hsession hpins
  have hturn := hran.turnCount
  have hhistory := hran.history
  rw [hsession] at hturn hhistory
  refine ⟨⟨?_, hran.harnessId.trans hharness, hbase, hprofile⟩, hturn, ?_⟩
  · exact hran.sessionId.trans (hresolved.session p hprior)
  · rw [h.exchange_eq hc]
    exact hhistory

/-- Along a chain the session is one, and its last response has counted and heard it all. -/
def UhpState.ChainsContinue (s : UhpState) : Prop :=
  ∀ rs r, s.store.Chain rs r → (∀ q ∈ rs, q.session.SameSession r.session) ∧ r.session.turnCount = rs.length ∧
    r.session.history = rs.flatMap s.exchange

theorem Chain.stored {store : UhpSessionStore} {rs : List StoredUhpResponse} {r : StoredUhpResponse}
    (h : store.Chain rs r) : ∃ id, store.getResponse id = some r := by
  cases h with
  | first hr _ => exact ⟨_, hr⟩
  | next _ hr _ => exact ⟨_, hr⟩

theorem UhpState.StoreInv.chainsContinue (h : s.StoreInv g) (hg : g.harnesses.Valid) : s.ChainsContinue := by
  intro rs r hchain
  induction hchain with
  | @first id r hr hprev =>
    obtain ⟨hturn, hhistory⟩ := h.starts hr hprev
    refine ⟨List.forall_mem_singleton.mpr ⟨rfl, rfl, rfl, rfl⟩, hturn, ?_⟩
    rw [List.flatMap_singleton]
    exact hhistory
  | @next rs p id r hchain hr hprev ih =>
    obtain ⟨hsame, hturns, hhistory⟩ := ih
    obtain ⟨id', hp⟩ := Chain.stored hchain
    obtain ⟨hrp, hturn, hhist⟩ := h.continues hg hp hr hprev
    have hpr : p.session.SameSession r.session :=
      ⟨hrp.sessionId.symm, hrp.harnessId.symm, hrp.pinnedBase.symm, hrp.pinnedProfile.symm⟩
    refine ⟨?_, ?_, ?_⟩
    · intro q hq
      rcases List.mem_append.mp hq with hq | hq
      · exact (hsame q hq).trans hpr
      · obtain rfl := List.mem_singleton.mp hq
        exact ⟨rfl, rfl, rfl, rfl⟩
    · rw [hturn, hturns, List.length_append, List.length_singleton]
    · rw [hhist, hhistory, List.flatMap_append, List.flatMap_singleton]

theorem recorded_cases (hstep : UhpStep g s a s') : s'.recorded = s.recorded ∨
    ∃ (c : Nat) (t : Turn) (r : StoredUhpResponse) (result : Except GatewayError (Json × HarnessRoutingReport)),
      s.calls[c]? = some (.ran t r result) ∧ s'.recorded = (t, r) :: s.recorded := by
  cases hstep with
  | record hc => exact .inr ⟨_, _, _, _, hc, rfl⟩
  | _ => exact .inl rfl

theorem recorded_stays (hstep : UhpStep g s a s') : ∀ c ∈ s.recorded, c ∈ s'.recorded := by
  intro c hc
  rcases recorded_cases hstep with hsame | ⟨_, t, r, _, -, hmore⟩
  · rw [hsame]
    exact hc
  · rw [hmore]
    exact List.mem_cons_of_mem _ hc

theorem getResponse_stays (h : s.StoreInv g) (hstep : UhpStep g s a s') {id : String} {r : StoredUhpResponse}
    (hr : s.store.getResponse id = some r) : s'.store.getResponse id = some r := by
  obtain ⟨hmem, hid⟩ := h.lookup_iff.mp hr
  obtain ⟨c, hc, rfl⟩ := List.mem_map.mp hmem
  exact (storeInv_step h hstep).lookup_iff.mpr ⟨List.mem_map_of_mem (recorded_stays hstep c hc), hid⟩

theorem Chain.mono {store store' : UhpSessionStore}
    (hstays : ∀ id r, store.getResponse id = some r → store'.getResponse id = some r) {rs : List StoredUhpResponse}
    {r : StoredUhpResponse} (h : store.Chain rs r) : store'.Chain rs r := by
  induction h with
  | first hr hprev => exact .first (hstays _ _ hr) hprev
  | next _ hr hprev ih => exact .next ih (hstays _ _ hr) hprev

def UhpState.Chained (s : UhpState) : Prop := ∀ id r, s.store.getResponse id = some r → ∃ rs, s.store.Chain rs r

theorem chained_step (h : s.StoreInv g) (hchained : s.Chained) (hstep : UhpStep g s a s') : s'.Chained := by
  intro id r hr
  have h' := storeInv_step h hstep
  have hold : ∀ q ∈ s.recorded.map (·.2), ∃ rs, s'.store.Chain rs q := by
    intro q hq
    obtain ⟨rs, hchain⟩ := hchained q.responseId q (h.lookup_iff.mpr ⟨hq, rfl⟩)
    exact ⟨rs, Chain.mono (fun _ _ => getResponse_stays h hstep) hchain⟩
  have hmem := (h'.lookup_iff.mp hr).1
  rcases recorded_cases hstep with hsame | ⟨c, t, r', result, hc, hmore⟩
  · rw [hsame] at hmem
    exact hold r hmem
  rw [hmore, List.map_cons, List.mem_cons] at hmem
  rcases hmem with rfl | hmem
  · -- the response just recorded goes on from the prior response of its turn
    have hran := h.ran c t r result hc
    have hresolved := (h.pending c _ t hc rfl).1
    have hprev := hran.previous.trans hresolved.previous
    cases hprior : t.prior with
    | none =>
      rw [hprior] at hprev
      exact ⟨[r], .first hr hprev⟩
    | some p =>
      rw [hprior] at hprev
      obtain ⟨rs, hchain⟩ := hold p (hresolved.stored p hprior)
      exact ⟨rs ++ [r], .next hchain hr hprev⟩
  · exact hold r hmem

/-! ## Who lets go of a session -/

/-- A call that was not rejected and has got past its acquire, or ended without one. -/
def TurnPhase.past : TurnPhase → Bool
  | .acquired _ | .ran _ _ _ | .closing _ _ | .ended _ | .dropped => true
  | .resolved _ | .rejected _ => false

theorem past_ofRun (t : Turn) (r : TurnM (Json × HarnessRoutingReport)) : (TurnPhase.ofRun t r).past = true := by
  unfold TurnPhase.ofRun
  split <;> rfl

theorem past_step (hstep : UhpStep g s a s') {c : Nat} (h : ∃ phase, s.calls[c]? = some phase ∧ phase.past = true) :
    ∃ phase, s'.calls[c]? = some phase ∧ phase.past = true := by
  have hput : ∀ {d : Nat} {old new : TurnPhase}, s.calls[d]? = some old → (old.past = true → new.past = true) →
      ∃ phase, (s.calls.set d new)[c]? = some phase ∧ phase.past = true :=
    fun hd hnew => Slots.keeps_set (p := fun phase : TurnPhase => phase.past = true) hd hnew h
  cases hstep with
  | lookup _ _ _ _ =>
    obtain ⟨phase, hc, hpast⟩ := h
    exact ⟨phase, Slots.concat_old hc _, hpast⟩
  | acquire hd _ => exact hput hd fun _ => rfl
  | reject hd _ => exact hput hd fun h => by cases h
  | run hd answers => exact hput hd fun _ => past_ofRun _ _
  | record hd => exact hput hd fun _ => rfl
  | release hd => exact hput hd fun _ => rfl
  | drop hd => exact hput hd fun _ => rfl

/-- The step of a call that changes the locks leaves the call past its acquire. -/
theorem past_of_lock (hstep : UhpStep g s a s') {c : Nat} (hcaller : a.caller = some c)
    (hlocks : s'.store.busySessions ≠ s.store.busySessions) :
    ∃ phase, s'.calls[c]? = some phase ∧ phase.past = true := by
  cases hstep with
  | lookup _ _ _ _ => cases hcaller
  | acquire hd _ =>
    cases hcaller
    exact ⟨_, Slots.set_self hd _, rfl⟩
  | reject _ _ => exact absurd rfl hlocks
  | run _ _ => exact absurd rfl hlocks
  | record _ => exact absurd rfl hlocks
  | release hd =>
    cases hcaller
    exact ⟨_, Slots.set_self hd _, rfl⟩
  | drop hd =>
    cases hcaller
    exact ⟨_, Slots.set_self hd _, rfl⟩

theorem released_by_holder (hstep : UhpStep g s a s') {id : String} (hbefore : id ∈ s.store.busySessions)
    (hafter : id ∉ s'.store.busySessions) : ∃ c phase t, a.caller = some c ∧ s.calls[c]? = some phase ∧
      phase.holds = some t ∧ t.sessionId = id := by
  have hother : ∀ {id' : String}, id ∉ (s.store.release id').busySessions → id' = id := by
    intro id' h
    by_contra hne
    exact h (List.mem_filter.mpr ⟨hbefore, bne_iff_ne.mpr (Ne.symm hne)⟩)
  cases hstep with
  | lookup _ _ _ _ => exact absurd hbefore hafter
  | acquire _ _ => exact absurd (List.mem_cons_of_mem _ hbefore) hafter
  | reject _ _ => exact absurd hbefore hafter
  | run _ _ => exact absurd hbefore hafter
  | record _ => exact absurd hbefore hafter
  | release hc => exact ⟨_, _, _, rfl, hc, rfl, hother hafter⟩
  | drop hc => exact ⟨_, _, _, rfl, hc, rfl, hother hafter⟩

/-! ## Runs -/

variable {tr : List (Taken UhpState UhpAction)}

theorem storeInv_run (h : Run (UhpStep g) {} tr s) : s.StoreInv g := by
  refine h.inv ?_ fun _ _ _ hi hstep => storeInv_step hi hstep
  refine { responses := rfl, nodup := List.nodup_nil, used := ?_, turns := ?_, pending := ?_, own := ?_, ran := ?_ }
  · exact fun _ hc => by cases hc
  · exact fun _ hc => by cases hc
  · exact fun _ _ _ hc => by cases hc
  · exact fun _ _ _ _ _ _ hc => by cases hc
  · exact fun _ _ _ _ hc => by cases hc

theorem lockInv_run (h : Run (UhpStep g) {} tr s) : s.LockInv := by
  refine h.inv ?_ fun _ _ _ hi hstep => lockInv_step hi hstep
  constructor
  · exact fun _ _ _ hc => by cases hc
  · exact fun _ _ _ _ _ _ hc => by cases hc

def StoredStays (tr : List (Taken UhpState UhpAction)) (s : UhpState) : Prop :=
  ∀ x ∈ tr, ∀ id r, x.before.store.getResponse id = some r → s.store.getResponse id = some r

def ReleasedByHolder (tr : List (Taken UhpState UhpAction)) : Prop :=
  ∀ x ∈ tr, ∀ id ∈ x.before.store.busySessions, id ∉ x.after.store.busySessions →
    ∃ c phase t, x.action.caller = some c ∧ x.before.calls[c]? = some phase ∧ phase.holds = some t ∧ t.sessionId = id

/-- No step of a call that was rejected changes which sessions are busy. -/
def RejectedLeavesLocks (tr : List (Taken UhpState UhpAction)) (s : UhpState) : Prop :=
  ∀ (c : Nat) (e : GatewayError), s.calls[c]? = some (.rejected e) → ∀ x ∈ tr, x.action.caller = some c →
    x.after.store.busySessions = x.before.store.busySessions

theorem chained_run (h : Run (UhpStep g) {} tr s) : s.Chained := by
  have hstart : UhpState.Chained {} := fun _ _ hr => by cases hr
  exact (h.inv (p := fun u => u.StoreInv g ∧ u.Chained) ⟨storeInv_run .nil, hstart⟩
    fun _ _ _ hi hstep => ⟨storeInv_step hi.1 hstep, chained_step hi.1 hi.2 hstep⟩).2

theorem storedStays_run (h : Run (UhpStep g) {} tr s) : StoredStays tr s := by
  intro x hx id r hr
  obtain ⟨hstep, ⟨_, hbefore⟩, _, hafter⟩ := h.split hx
  have hinv := storeInv_run hbefore
  refine (hafter.inv (p := fun u => u.StoreInv g ∧ u.store.getResponse id = some r)
    ⟨storeInv_step hinv hstep, getResponse_stays hinv hstep hr⟩ ?_).2
  exact fun _ _ _ hi hstep => ⟨storeInv_step hi.1 hstep, getResponse_stays hi.1 hstep hi.2⟩

theorem rejectedLeavesLocks_run (h : Run (UhpStep g) {} tr s) : RejectedLeavesLocks tr s := by
  intro c e hrejected x hx hcaller
  obtain ⟨hstep, -, _, hafter⟩ := h.split hx
  by_contra hlocks
  obtain ⟨phase, hphase, hpast⟩ := hafter.inv (p := fun u => ∃ phase, u.calls[c]? = some phase ∧ phase.past = true)
    (past_of_lock hstep hcaller hlocks) (fun _ _ _ hpast hstep => past_step hstep hpast)
  rw [hrejected] at hphase
  cases hphase
  cases hpast

end

/-- In every run of concurrent calls each stored response ends a chain and chains go on,
what is stored stays, a session has one call at a time, and only that call lets it go. -/
theorem sessions_go_on {g : Gateway} (hg : g.harnesses.Built) {tr : List (Taken UhpState UhpAction)} {s : UhpState}
    (h : Run (UhpStep g) {} tr s) :
    s.Chained ∧ s.ChainsContinue ∧ StoredStays tr s ∧ s.Exclusive ∧ ReleasedByHolder tr ∧
      RejectedLeavesLocks tr s := by
  refine ⟨chained_run h, (storeInv_run h).chainsContinue hg.valid, storedStays_run h, (lockInv_run h).exclusive, ?_,
    rejectedLeavesLocks_run h⟩
  intro x hx id hbefore hafter
  exact released_by_holder (h.split hx).1 hbefore hafter

/-! ## A session of two turns -/

def oneBase : HarnessesFile where
  bases := [("pi", { label := "Pi", wire := [.anthropicMessages] })]
  harnessRoutes := [("auto", { legs := some [⟨"pi", .direct { provider := "anthropic", model := "claude-haiku" }⟩] })]
  basesNodup := by decide
  routesNodup := by decide
  profilesNodup := by decide

def oneBaseGateway : Gateway where
  harnesses := {
    bases := [("pi", { wire := [.anthropicMessages] })]
    staticRoutes := [("auto", [⟨"pi", { provider := "anthropic", model := "claude-haiku" }, .anthropicMessages⟩])] }
  uhpRunner := some fun _ _ => .error (.harnessUnavailable "no runner")

theorem oneBaseGateway_built : oneBaseGateway.harnesses.Built := by
  have h : HarnessRouteTable.fromFile oneBase ⟨[], [], [], []⟩ = .ok oneBaseGateway.harnesses := by decide +kernel
  exact .loaded h

def doneAnswers : Answers := ⟨⟨fun _ => .timeout, fun _ => none⟩, fun _ _ => .ok ⟨"done".toList, 1, 1, 1⟩⟩

/-- Two turns run one after the other; a third call is rejected while the second holds the session. -/
theorem two_turns_go_on : ∃ tr s, Run (UhpStep oneBaseGateway) {} tr s ∧ s.recorded.length = 2 ∧
    s.calls[2]? = some (.rejected (.sessionBusy "sess_1")) ∧
    (s.Chained ∧ s.ChainsContinue ∧ StoredStays tr s ∧ s.Exclusive ∧ ReleasedByHolder tr ∧
      RejectedLeavesLocks tr s) := by
  have h : Run (UhpStep oneBaseGateway) {} _ _ :=
    .snoc .nil (.lookup {} ⟨"sess_1", "resp_1"⟩ { input := .string "hi".toList } (by decide))
  have h := h.snoc (.acquire (c := 0) rfl rfl)
  have h := h.snoc (.run (c := 0) rfl doneAnswers)
  have h := h.snoc (.record (c := 0) rfl)
  have h := h.snoc (.release (c := 0) rfl)
  have h := h.snoc (.lookup {} ⟨"sess_2", "resp_2"⟩ { previousResponseId := some "resp_1" } (by decide))
  have h := h.snoc (.lookup {} ⟨"sess_3", "resp_3"⟩ { previousResponseId := some "resp_1" } (by decide))
  have h := h.snoc (.acquire (c := 1) rfl rfl)
  have h := h.snoc (.reject (c := 2) rfl rfl)
  have h := h.snoc (.run (c := 1) rfl doneAnswers)
  have h := h.snoc (.record (c := 1) rfl)
  have h := h.snoc (.release (c := 1) rfl)
  exact ⟨_, _, h, rfl, rfl, sessions_go_on oneBaseGateway_built h⟩

end SynapseGateway
