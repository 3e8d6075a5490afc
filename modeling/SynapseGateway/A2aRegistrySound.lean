import SynapseGateway.A2aRegistry
import SynapseGateway.Lib.Since

/-!
# What the A2A registry answers

`a2a_answers`: after any calls, the agents served at an instant are those whose
registration found nothing under its id, was not ended since, and has not
expired. `a2a_poison`: calls return up to the first expiry that cannot be
represented, and no call returns from there on.
-/

namespace SynapseGateway

open Steps (Taken Run)

/-! ## Steps -/

def A2aStep (latest : Nat) (r : A2aRegistry) (c : A2aCall) (r' : A2aRegistry) : Prop :=
  ∃ response, r.serve latest c = (some response, r')

def RegisterA2aAgentRequest.agent (req : RegisterA2aAgentRequest) (now : Nat) : RegisteredA2aAgent :=
  { req.toA2aAgentInfo with expiresAt := req.ttlSeconds.map fun secs => now + fromSecs secs }

/-- The call registers the agent under `id`, where there is nothing. -/
def Registers (id : String) (x : Taken A2aRegistry A2aCall) (agent : RegisteredA2aAgent) : Prop :=
  ∃ req, x.action.request = .registerAgent req ∧ req.id = id ∧ id ∉ x.before.inner ∧ agent = req.agent x.action.now

/-- The call removes the agent under `id`, or reads it expired. -/
def A2aCall.Ends (c : A2aCall) (id : String) (agent : RegisteredA2aAgent) : Prop :=
  match c.request with
  | .registerAgent _ => False
  | .deregisterAgent id' => id' = id
  | .listCatalog => isExpired agent c.now = true
  | .getAgentCard id' | .resolveAgent id' => id' = id ∧ isExpired agent c.now = true

def HeldAgent (tr : List (Taken A2aRegistry A2aCall)) (id : String) (agent : RegisteredA2aAgent) : Prop :=
  Since.Held (Registers id) (fun x => x.action.Ends id) tr agent

def Overflows (latest : Nat) (r : A2aRegistry) (c : A2aCall) : Prop :=
  ∃ req secs, c.request = .registerAgent req ∧ req.id ∉ r.inner ∧ req.ttlSeconds = some secs ∧
    latest < c.now + fromSecs secs

def dropExpired (id : String) (now : Nat) (inner : A2aAgents) : A2aAgents :=
  if (inner.lookup id).any (isExpired · now) then inner.erase id else inner

/-- The map a call that returns leaves. -/
def A2aCall.next (c : A2aCall) (inner : A2aAgents) : A2aAgents :=
  match c.request with
  | .registerAgent req => if req.id ∈ inner then inner else inner.insert req.id (req.agent c.now)
  | .deregisterAgent id => inner.erase id
  | .listCatalog => A2aRegistry.retain (fun agent => !isExpired agent c.now) inner
  | .getAgentCard id | .resolveAgent id => dropExpired id c.now inner

/-! ## One call -/

section
variable {latest : Nat} {r r' : A2aRegistry} {c : A2aCall}

theorem locked_of_poisoned {β : Type} (h : r.poisoned = true) (f : A2aAgents → Option (β × A2aAgents)) :
    r.locked f = (none, r) := by
  unfold A2aRegistry.locked
  rw [if_pos h]

theorem locked_of_some {β : Type} {f : A2aAgents → Option (β × A2aAgents)} {b : β} {inner : A2aAgents}
    (h : r.poisoned = false) (hf : f r.inner = some (b, inner)) : r.locked f = (some b, ⟨inner, false⟩) := by
  unfold A2aRegistry.locked
  rw [if_neg (by simp [h]), hf]
  simp [h]

theorem locked_of_none {β : Type} {f : A2aAgents → Option (β × A2aAgents)} (h : r.poisoned = false)
    (hf : f r.inner = none) : r.locked f = (none, ⟨r.inner, true⟩) := by
  unfold A2aRegistry.locked
  rw [if_neg (by simp [h]), hf]

theorem expiryFromTtl_some {now : Nat} {ttl : Option Nat} (h : ∀ d, ttl = some d → now + d ≤ latest) :
    expiryFromTtl latest now ttl = some (ttl.map (now + ·)) := by
  cases ttl with
  | none => rfl
  | some d => simp [expiryFromTtl, h d rfl]

section
variable {now : Nat} {reg : A2aRegistration}

theorem tryRegister_held (h : r.poisoned = false) (hid : reg.id ∈ r.inner) :
    r.tryRegister latest now reg = (some false, ⟨r.inner, false⟩) := by
  unfold A2aRegistry.tryRegister
  apply locked_of_some h
  rw [if_pos hid]

theorem tryRegister_fits (h : r.poisoned = false) (hid : reg.id ∉ r.inner)
    (hfits : ∀ d, reg.ttl = some d → now + d ≤ latest) :
    r.tryRegister latest now reg = (some true,
      ⟨r.inner.insert reg.id { reg.toA2aAgentInfo with expiresAt := reg.ttl.map (now + ·) }, false⟩) := by
  unfold A2aRegistry.tryRegister
  apply locked_of_some h
  rw [if_neg hid, expiryFromTtl_some hfits]
  rfl

theorem tryRegister_overflows (h : r.poisoned = false) (hid : reg.id ∉ r.inner) {d : Nat} (hd : reg.ttl = some d)
    (hlate : latest < now + d) : r.tryRegister latest now reg = (none, ⟨r.inner, true⟩) := by
  unfold A2aRegistry.tryRegister
  apply locked_of_none h
  have : ¬ now + d ≤ latest := by omega
  simp [hid, hd, expiryFromTtl, this]

end

theorem registerAgent_returns (h : r.poisoned = false) (ho : ¬ Overflows latest r c) {req : RegisterA2aAgentRequest}
    (hc : c.request = .registerAgent req) :
    r.tryRegister latest c.now req.registration = (some (decide (req.id ∉ r.inner)), ⟨c.next r.inner, false⟩) := by
  by_cases hid : req.id ∈ r.inner
  · rw [tryRegister_held h hid]
    simp [A2aCall.next, hc, hid]
  · have hfits : ∀ d, req.ttlSeconds.map fromSecs = some d → c.now + d ≤ latest := by
      intro d hd
      obtain ⟨secs, hsecs, rfl⟩ := Option.map_eq_some_iff.mp hd
      by_contra hlate
      exact ho ⟨req, secs, hc, hid, hsecs, by omega⟩
    rw [tryRegister_fits h hid hfits]
    simp [A2aCall.next, hc, hid, RegisterA2aAgentRequest.agent, RegisterA2aAgentRequest.registration, Function.comp_def]

theorem resolveAt_returns (h : r.poisoned = false) (id : String) (now : Nat) :
    r.resolveAt id now = (some ((r.inner.lookup id).filter fun agent => !isExpired agent now),
      ⟨dropExpired id now r.inner, false⟩) := by
  unfold A2aRegistry.resolveAt dropExpired
  apply locked_of_some h
  cases r.inner.lookup id with
  | none => simp
  | some agent =>
    by_cases he : isExpired agent now = true
    · simp [he, Option.filter]
    · simp [he, Option.filter]

theorem deregister_returns (h : r.poisoned = false) (id : String) :
    r.deregister id = (some (), ⟨r.inner.erase id, false⟩) := locked_of_some h rfl

theorem listAt_returns (h : r.poisoned = false) (now : Nat) :
    r.listAt now = (some ((A2aRegistry.retain (fun agent => !isExpired agent now) r.inner).entries.map fun e => e.2),
      ⟨A2aRegistry.retain (fun agent => !isExpired agent now) r.inner, false⟩) := locked_of_some h rfl

def A2aRegistry.response (r : A2aRegistry) (c : A2aCall) : A2aResponse :=
  match c.request with
  | .registerAgent _ | .deregisterAgent _ => .noContent
  | .listCatalog =>
    .catalog ⟨"1.0", ((A2aRegistry.retain (fun agent => !isExpired agent c.now) r.inner).entries.map fun e => e.2).map
      toCatalogEntry⟩
  | .getAgentCard id =>
    (((r.inner.lookup id).filter fun agent => !isExpired agent c.now).map fun agent => .card agent.card).getD .notFound
  | .resolveAgent id =>
    (((r.inner.lookup id).filter fun agent => !isExpired agent c.now).map fun agent =>
      .resolved (toResolveResponse agent)).getD .notFound

theorem serve_returns (h : r.poisoned = false) (ho : ¬ Overflows latest r c) :
    r.serve latest c = (some (r.response c), ⟨c.next r.inner, false⟩) := by
  unfold A2aRegistry.serve A2aRegistry.response
  cases hc : c.request with
  | registerAgent req => simp [registerAgent_returns h ho hc]
  | deregisterAgent id => simp [deregister_returns h, A2aCall.next, hc]
  | listCatalog => simp [listAt_returns h, A2aCall.next, hc]
  | getAgentCard id => simp [resolveAt_returns h, A2aCall.next, hc]
  | resolveAgent id => simp [resolveAt_returns h, A2aCall.next, hc]

theorem serve_poisoned (h : r.poisoned = true) : r.serve latest c = (none, r) := by
  unfold A2aRegistry.serve
  cases c.request <;>
    simp [A2aRegistry.tryRegister, A2aRegistry.deregister, A2aRegistry.listAt, A2aRegistry.resolveAt, locked_of_poisoned h]

theorem serve_overflows (h : r.poisoned = false) (ho : Overflows latest r c) :
    r.serve latest c = (none, ⟨r.inner, true⟩) := by
  obtain ⟨req, secs, hc, hid, hsecs, hlate⟩ := ho
  have hd : req.registration.ttl = some (fromSecs secs) := by simp [RegisterA2aAgentRequest.registration, hsecs]
  have hpanic : r.tryRegister latest c.now req.registration = (none, ⟨r.inner, true⟩) :=
    tryRegister_overflows h hid hd hlate
  unfold A2aRegistry.serve
  simp [hc, hpanic]

theorem A2aStep.of_fits (h : r.poisoned = false) (ho : ¬ Overflows latest r c) :
    A2aStep latest r c ⟨c.next r.inner, false⟩ := ⟨r.response c, serve_returns h ho⟩

theorem A2aStep.next (h : A2aStep latest r c r') : r.poisoned = false ∧ r' = ⟨c.next r.inner, false⟩ := by
  obtain ⟨response, h⟩ := h
  by_cases hp : r.poisoned = true
  · simp [serve_poisoned hp] at h
  · have hp : r.poisoned = false := by simpa using hp
    by_cases ho : Overflows latest r c
    · simp [serve_overflows hp ho] at h
    · rw [serve_returns hp ho] at h
      exact ⟨hp, (Prod.mk.inj h).2.symm⟩

end

/-! ## One cell -/

theorem lookup_retain (keep : RegisteredA2aAgent → Bool) (inner : A2aAgents) (id : String) :
    (A2aRegistry.retain keep inner).lookup id = (inner.lookup id).filter keep := by
  apply Option.ext
  intro agent
  have hkept : (A2aRegistry.retain keep inner).lookup id = some agent ↔ inner.lookup id = some agent ∧ keep agent = true := by
    rw [← Option.mem_def, ← Option.mem_def, AList.mem_lookup_iff, AList.mem_lookup_iff]
    exact List.mem_filter
  rw [hkept, Option.filter_eq_some_iff]

theorem lookup_dropExpired (id' : String) (now : Nat) (inner : A2aAgents) (id : String) (agent : RegisteredA2aAgent) :
    (dropExpired id' now inner).lookup id = some agent ↔
      inner.lookup id = some agent ∧ ¬ (id' = id ∧ isExpired agent now = true) := by
  unfold dropExpired
  by_cases hany : (inner.lookup id').any (isExpired · now) = true
  · rw [if_pos hany]
    by_cases hid : id' = id
    · subst hid
      obtain ⟨held, hheld, he⟩ := (Option.any_eq_true _ _).mp hany
      rw [AList.lookup_erase, hheld]
      simp only [reduceCtorEq, Option.some.injEq, true_and, false_iff, not_and, not_not]
      exact fun h => h ▸ he
    · simp [hid, AList.lookup_erase_ne (Ne.symm hid)]
  · rw [if_neg hany]
    constructor
    · intro hl
      refine ⟨hl, ?_⟩
      rintro ⟨rfl, he⟩
      exact hany (by rw [hl]; exact he)
    · exact And.left

theorem lookup_next (c : A2aCall) (inner : A2aAgents) (id : String) (agent : RegisteredA2aAgent) :
    (c.next inner).lookup id = some agent ↔
      (∃ req, c.request = .registerAgent req ∧ req.id = id ∧ id ∉ inner ∧ agent = req.agent c.now) ∨
        inner.lookup id = some agent ∧ ¬ c.Ends id agent := by
  unfold A2aCall.next A2aCall.Ends
  cases hc : c.request with
  | registerAgent req =>
    simp only [A2aRequest.registerAgent.injEq, not_false_eq_true, and_true]
    by_cases hid : req.id = id
    · subst hid
      by_cases hin : req.id ∈ inner
      · simp [hin]
      · have hnone := AList.lookup_eq_none.mpr hin
        simp [hin, hnone, eq_comm]
    · have hne : id ≠ req.id := Ne.symm hid
      by_cases hin : req.id ∈ inner
      · simp [hin, hid]
      · simp [hin, hid, AList.lookup_insert_ne hne]
  | deregisterAgent id' =>
    by_cases hid : id' = id
    · subst hid
      simp
    · simp [hid, AList.lookup_erase_ne (Ne.symm hid)]
  | listCatalog => simp [lookup_retain]
  | getAgentCard id' | resolveAgent id' => simp [lookup_dropExpired]

section
variable {latest : Nat} {r : A2aRegistry} {tr : List (Taken A2aRegistry A2aCall)}

theorem registry_governs (latest : Nat) (id : String) :
    Since.Governs (A2aStep latest) (fun r => r.inner.lookup id) (Registers id) fun x => x.action.Ends id := by
  intro r c r' agent h
  obtain ⟨-, rfl⟩ := h.next
  exact lookup_next c r.inner id agent

theorem lookup_iff_held (h : Run (A2aStep latest) {} tr r) (id : String) (agent : RegisteredA2aAgent) :
    r.inner.lookup id = some agent ↔ HeldAgent tr id agent :=
  Since.cell_iff (registry_governs latest id) rfl h agent

theorem returning_not_poisoned (h : Run (A2aStep latest) {} tr r) : r.poisoned = false :=
  h.inv (p := fun r => r.poisoned = false) rfl fun _ _ _ _ hstep => by rw [hstep.next.2]

theorem held_id {id : String} {agent : RegisteredA2aAgent} (h : HeldAgent tr id agent) : agent.id = id := by
  obtain ⟨_, x, _, _, ⟨req, _, hid, _, rfl⟩, _⟩ := h
  exact hid

end

/-! ## The laws -/

/-- The agent is served under `id` at an instant. -/
def LiveAgent (tr : List (Taken A2aRegistry A2aCall)) (now : Nat) (id : String) (agent : RegisteredA2aAgent) : Prop :=
  HeldAgent tr id agent ∧ isExpired agent now = false

/-- What the reads of a registry answer at an instant, `live` being the agents served. -/
structure AnswersLive (latest : Nat) (r : A2aRegistry) (now : Nat) (live : String → RegisteredA2aAgent → Prop) : Prop where
  card : ∀ id card, (r.serve latest ⟨now, .getAgentCard id⟩).1 = some (.card card) ↔
    ∃ agent, live id agent ∧ agent.card = card
  resolved : ∀ id res, (r.serve latest ⟨now, .resolveAgent id⟩).1 = some (.resolved res) ↔
    ∃ agent, live id agent ∧ toResolveResponse agent = res
  missing : ∀ id, (∀ agent, ¬ live id agent) →
    (r.serve latest ⟨now, .getAgentCard id⟩).1 = some .notFound ∧
    (r.serve latest ⟨now, .resolveAgent id⟩).1 = some .notFound
  catalog : ∃ agents : List RegisteredA2aAgent, (r.serve latest ⟨now, .listCatalog⟩).1 = some (.catalog ⟨"1.0", agents.map toCatalogEntry⟩) ∧
    (agents.map (·.id)).Nodup ∧ ∀ agent, agent ∈ agents ↔ live agent.id agent

theorem read_not_overflows {latest : Nat} {r : A2aRegistry} {c : A2aCall} (h : ∀ req, c.request ≠ .registerAgent req) :
    ¬ Overflows latest r c := by
  rintro ⟨req, secs, hc, -⟩
  exact h req hc

theorem a2a_answers {latest : Nat} {tr : List (Taken A2aRegistry A2aCall)} {r : A2aRegistry}
    (h : Run (A2aStep latest) {} tr r) (now : Nat) : AnswersLive latest r now (LiveAgent tr now) := by
  have hp := returning_not_poisoned h
  have hlive : ∀ id agent, (r.inner.lookup id).filter (fun agent => !isExpired agent now) = some agent ↔
      LiveAgent tr now id agent := by
    intro id agent
    rw [Option.filter_eq_some_iff, lookup_iff_held h, LiveAgent, Bool.not_eq_true']
  have hnone : ∀ id, (∀ agent, ¬ LiveAgent tr now id agent) →
      (r.inner.lookup id).filter (fun agent => !isExpired agent now) = none := by
    intro id hid
    rw [Option.eq_none_iff_forall_ne_some]
    exact fun agent ha => hid agent ((hlive id agent).mp ha)
  constructor
  · intro id card
    rw [serve_returns hp (read_not_overflows fun _ => by simp)]
    simp only [A2aRegistry.response, Option.some.injEq, ← hlive]
    cases (r.inner.lookup id).filter fun agent => !isExpired agent now <;> simp
  · intro id res
    rw [serve_returns hp (read_not_overflows fun _ => by simp)]
    simp only [A2aRegistry.response, Option.some.injEq, ← hlive]
    cases (r.inner.lookup id).filter fun agent => !isExpired agent now <;> simp
  · intro id hid
    rw [serve_returns hp (read_not_overflows fun _ => by simp), serve_returns hp (read_not_overflows fun _ => by simp)]
    simp [A2aRegistry.response, hnone id hid]
  · have hmem : ∀ e, e ∈ (A2aRegistry.retain (fun agent => !isExpired agent now) r.inner).entries ↔
        LiveAgent tr now e.1 e.2 := by
      intro e
      rw [← hlive, ← lookup_retain, ← Option.mem_def, AList.mem_lookup_iff]
    refine ⟨(A2aRegistry.retain (fun agent => !isExpired agent now) r.inner).entries.map fun e => e.2, ?_, ?_, ?_⟩
    · rw [serve_returns hp (read_not_overflows fun _ => by simp)]
      rfl
    · have hids : ((A2aRegistry.retain (fun agent => !isExpired agent now) r.inner).entries.map fun e => e.2.id) =
          (A2aRegistry.retain (fun agent => !isExpired agent now) r.inner).keys :=
        List.map_congr_left fun e he => held_id ((hmem e).mp he).1
      rw [List.map_map]
      exact hids ▸ AList.keys_nodup _
    · intro agent
      rw [List.mem_map]
      constructor
      · rintro ⟨e, he, rfl⟩
        rw [hmem] at he
        rwa [held_id he.1]
      · exact fun ha => ⟨⟨agent.id, agent⟩, (hmem _).mpr ha, rfl⟩

/-- An agent that has expired unread stands in the way of the next of its id. -/
theorem shadowed_answers : ∃ tr r, Run (A2aStep 1000000000000) {} tr r ∧ tr.length = 2 ∧
    AnswersLive 1000000000000 r 3000000000 (LiveAgent tr 3000000000) := by
  let first : RegisterA2aAgentRequest := ⟨⟨"ghg", "GHG", "d", "http://old/a2a", "http://old/card", [], .null⟩, some 1⟩
  let second : RegisterA2aAgentRequest := ⟨⟨"ghg", "GHG", "d", "http://new/a2a", "http://new/card", [], .null⟩, none⟩
  have hfirst : ∀ r, ¬ Overflows 1000000000000 r ⟨0, .registerAgent first⟩ := by
    rintro r ⟨req, secs, hc, -, hsecs, hlate⟩
    cases hc
    cases hsecs
    simp [fromSecs] at hlate
  have hsecond : ∀ r, ¬ Overflows 1000000000000 r ⟨2000000000, .registerAgent second⟩ := by
    rintro r ⟨req, secs, hc, -, hsecs, -⟩
    cases hc
    cases hsecs
  have hempty : Run (A2aStep 1000000000000) {} [] {} := .nil
  have hrun := hempty
    |>.snoc (a := ⟨0, .registerAgent first⟩) (A2aStep.of_fits rfl (hfirst _))
    |>.snoc (a := ⟨2000000000, .registerAgent second⟩) (A2aStep.of_fits rfl (hsecond _))
  exact ⟨_, _, hrun, rfl, a2a_answers hrun 3000000000⟩

/-! ## The lock -/

section
variable {latest : Nat} {r : A2aRegistry}

theorem serveAll_cons (c : A2aCall) (calls : List A2aCall) : r.serveAll latest (c :: calls) =
    ((r.serve latest c).1 :: ((r.serve latest c).2.serveAll latest calls).1,
      ((r.serve latest c).2.serveAll latest calls).2) := rfl

theorem serveAll_poisoned (h : r.poisoned = true) (calls : List A2aCall) :
    r.serveAll latest calls = (List.replicate calls.length none, r) := by
  induction calls with
  | nil => rfl
  | cons c calls ih => rw [serveAll_cons, serve_poisoned h, ih, List.length_cons, List.replicate_succ]

/-- The calls that return, and those that do not. -/
structure ServedUntil (latest : Nat) (r : A2aRegistry) (served lost : List A2aCall) : Prop where
  returned : ((r.serveAll latest (served ++ lost)).1).map Option.isSome =
    List.replicate served.length true ++ List.replicate lost.length false
  fits : ∀ pre c post, served = pre ++ c :: post → ¬ Overflows latest (r.serveAll latest pre).2 c
  overflows : ∀ c post, lost = c :: post → Overflows latest (r.serveAll latest served).2 c

theorem servedUntil_overflows (hp : r.poisoned = false) {c : A2aCall} (ho : Overflows latest r c) (calls : List A2aCall) :
    ServedUntil latest r [] (c :: calls) := by
  constructor
  · rw [List.nil_append, serveAll_cons, serve_overflows hp ho]
    simp [serveAll_poisoned, List.replicate_succ]
  · intro pre d post h
    simp at h
  · rintro d post h
    cases h
    exact ho

theorem ServedUntil.cons (hp : r.poisoned = false) {c : A2aCall} (ho : ¬ Overflows latest r c) {served lost : List A2aCall}
    (h : ServedUntil latest ⟨c.next r.inner, false⟩ served lost) : ServedUntil latest r (c :: served) lost := by
  constructor
  · rw [List.cons_append, serveAll_cons, serve_returns hp ho, List.map_cons, h.returned]
    rfl
  · intro pre d post hsplit
    cases pre with
    | nil =>
      cases hsplit
      exact ho
    | cons e pre =>
      rw [List.cons_append, List.cons.injEq] at hsplit
      obtain ⟨rfl, hsplit⟩ := hsplit
      rw [serveAll_cons, serve_returns hp ho]
      exact h.fits pre d post hsplit
  · intro d post hlost
    rw [serveAll_cons, serve_returns hp ho]
    exact h.overflows d post hlost

theorem a2a_poison_from (hp : r.poisoned = false) (calls : List A2aCall) :
    ∃ served lost, calls = served ++ lost ∧ ServedUntil latest r served lost := by
  induction calls generalizing r with
  | nil => exact ⟨[], [], rfl, rfl, by simp, by simp⟩
  | cons c calls ih =>
    by_cases ho : Overflows latest r c
    · exact ⟨[], c :: calls, rfl, servedUntil_overflows hp ho calls⟩
    · obtain ⟨served, lost, rfl, h⟩ := @ih ⟨c.next r.inner, false⟩ rfl
      exact ⟨c :: served, lost, rfl, h.cons hp ho⟩

end

theorem a2a_poison (latest : Nat) (calls : List A2aCall) :
    ∃ served lost, calls = served ++ lost ∧ ServedUntil latest {} served lost :=
  a2a_poison_from rfl calls

end SynapseGateway
