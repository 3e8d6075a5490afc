import SynapseGateway.A2aRegistrySound
import SynapseGateway.Lib.Attempts
import SynapseGateway.Lib.Firsts
import SynapseGateway.Passthrough

/-!
# Seeding the A2A registry

At boot each agent of the seed file has its card fetched, with retries, and is
registered. `seed_registers`: the registry then holds, of each id, the first
agent whose card came.
-/

namespace SynapseGateway

open Attempts (retry Retried retry_retried)
open Firsts (IsFirst)

structure A2aSeedAgent where
  id : String
  name : String
  description : String
  endpointUrl : String
  cardUrl : String
  tags : List String := []
  ttlSeconds : Option Nat := none

/-! ## Fetching a card -/

def retryableStatus (status : Nat) : Bool := 500 ≤ status && status < 600 || status == 429

inductive CardFetchError where
  | retryable (message : String)
  | fatal (message : String)

def CardFetchError.isRetryable : CardFetchError → Bool
  | .retryable _ => true
  | .fatal _ => false

/-- What a GET gives: it is not sent, or a status and a body read as JSON. -/
inductive CardReply where
  | sendFailed (message : String)
  | response (status : Nat) (json : Except String Json)

def cardOp (statusText : Nat → String) (cardUrl : String) : CardReply → Except CardFetchError Json
  | .sendFailed message => .error (.retryable message)
  | .response status json =>
    if retryableStatus status then .error (.retryable ("HTTP " ++ statusText status ++ " from " ++ cardUrl))
    else if !isSuccess status then .error (.fatal ("HTTP " ++ statusText status ++ " from " ++ cardUrl))
    else json.mapError .fatal

/-- The card, and the number of GETs: one, and two retries at most. -/
def fetchCard (statusText : Nat → String) (cardUrl : String) (get : Nat → CardReply) : Except CardFetchError Json × Nat :=
  retry CardFetchError.isRetryable (fun n => cardOp statusText cardUrl (get n)) 2 0

/-! ## Seeding -/

def A2aSeedAgent.registration (agent : A2aSeedAgent) (card : Json) : A2aRegistration where
  id := agent.id
  name := agent.name
  description := agent.description
  endpointUrl := agent.endpointUrl
  cardUrl := agent.cardUrl
  tags := agent.tags
  card := card
  ttl := agent.ttlSeconds.map fromSecs

/-- The hosts of the cards and the clock: what the `n`-th GET for the agent in place
`i` gives, and the instant its registration reads. -/
structure SeedOutside where
  statusText : Nat → String
  latest : Nat
  get : Nat → Nat → CardReply
  clock : Nat → Nat

/-- The registry after the agents, the first in place `i`, and the GETs; `none` where a
registration panics. -/
def seedAgents (w : SeedOutside) : Nat → A2aRegistry → List A2aSeedAgent → Option A2aRegistry × List String
  | _, r, [] => (some r, [])
  | i, r, agent :: agents =>
    let fetched := fetchCard w.statusText agent.cardUrl (w.get i)
    let sent := List.replicate fetched.2 agent.cardUrl
    match fetched.1 with
    | .error _ =>
      let rest := seedAgents w (i + 1) r agents
      (rest.1, sent ++ rest.2)
    | .ok card =>
      let registered := r.tryRegister w.latest (w.clock i) (agent.registration card)
      match registered.1 with
      | none => (none, sent)
      | some _ =>
        let rest := seedAgents w (i + 1) registered.2 agents
        (rest.1, sent ++ rest.2)

/-! ## What is seeded -/

/-- An agent of the file in its place, with its card. -/
structure Fetched where
  place : Nat
  agent : A2aSeedAgent
  card : Json

def Fetched.registered (w : SeedOutside) (f : Fetched) : RegisteredA2aAgent where
  id := f.agent.id
  name := f.agent.name
  description := f.agent.description
  endpointUrl := f.agent.endpointUrl
  cardUrl := f.agent.cardUrl
  tags := f.agent.tags
  card := f.card
  expiresAt := f.agent.ttlSeconds.map fun secs => w.clock f.place + fromSecs secs

/-- The agents whose card came, in the order of the file. -/
def fetchedFrom (w : SeedOutside) : Nat → List A2aSeedAgent → List Fetched
  | _, [] => []
  | i, agent :: agents =>
    match (fetchCard w.statusText agent.cardUrl (w.get i)).1 with
    | .ok card => ⟨i, agent, card⟩ :: fetchedFrom w (i + 1) agents
    | .error _ => fetchedFrom w (i + 1) agents

/-- The registration's expiry cannot be represented. -/
def Fetched.Overflows (w : SeedOutside) (f : Fetched) : Prop :=
  ∃ secs, f.agent.ttlSeconds = some secs ∧ w.latest < w.clock f.place + fromSecs secs

section
variable {w : SeedOutside} {r : A2aRegistry}

theorem register_fetched (w : SeedOutside) (hp : r.poisoned = false) (i : Nat) (agent : A2aSeedAgent) (card : Json) :
    (agent.id ∈ r.inner ∧ r.tryRegister w.latest (w.clock i) (agent.registration card) = (some false, ⟨r.inner, false⟩)) ∨
    (agent.id ∉ r.inner ∧ ¬ Fetched.Overflows w ⟨i, agent, card⟩ ∧
      r.tryRegister w.latest (w.clock i) (agent.registration card) =
        (some true, ⟨r.inner.insert agent.id (Fetched.registered w ⟨i, agent, card⟩), false⟩)) ∨
    agent.id ∉ r.inner ∧ Fetched.Overflows w ⟨i, agent, card⟩ ∧
      r.tryRegister w.latest (w.clock i) (agent.registration card) = (none, ⟨r.inner, true⟩) := by
  by_cases hid : agent.id ∈ r.inner
  · exact .inl ⟨hid, tryRegister_held hp hid⟩
  · by_cases ho : Fetched.Overflows w ⟨i, agent, card⟩
    · obtain ⟨secs, hsecs, hlate⟩ := ho
      have hd : (agent.registration card).ttl = some (fromSecs secs) := Option.map_eq_some_iff.mpr ⟨secs, hsecs, rfl⟩
      exact .inr (.inr ⟨hid, ⟨secs, hsecs, hlate⟩, tryRegister_overflows hp hid hd hlate⟩)
    · refine .inr (.inl ⟨hid, ho, ?_⟩)
      rw [tryRegister_fits hp hid]
      · simp [Fetched.registered, A2aSeedAgent.registration, Function.comp_def]
      · intro d hd
        obtain ⟨secs, hsecs, rfl⟩ := Option.map_eq_some_iff.mp hd
        by_contra hlate
        exact ho ⟨secs, hsecs, Nat.lt_of_not_le hlate⟩

/-- The first agent of an id is registered where there is none. -/
theorem seedAgents_lookup (hp : r.poisoned = false) {i : Nat} {agents : List A2aSeedAgent} {r' : A2aRegistry}
    {gets : List String} (h : seedAgents w i r agents = (some r', gets)) (id : String) :
    r'.poisoned = false ∧ r'.inner.lookup id = (r.inner.lookup id).or
      (((fetchedFrom w i agents).find? fun f => f.agent.id == id).map (Fetched.registered w)) := by
  induction agents generalizing i r r' gets with
  | nil =>
    cases h
    simp [fetchedFrom, hp]
  | cons agent agents ih =>
    rw [seedAgents] at h
    rw [fetchedFrom]
    cases hf : (fetchCard w.statusText agent.cardUrl (w.get i)).1 with
    | error e =>
      simp only [hf, Prod.mk.injEq] at h
      exact ih hp (Prod.ext h.1 rfl)
    | ok card =>
      simp only [hf] at h
      rcases register_fetched w hp i agent card with ⟨hid, hreg⟩ | ⟨hid, -, hreg⟩ | ⟨-, -, hreg⟩
      · simp only [hreg, Prod.mk.injEq] at h
        obtain ⟨hp', hl⟩ := ih (r := ⟨r.inner, false⟩) rfl (Prod.ext h.1 rfl)
        refine ⟨hp', hl.trans ?_⟩
        by_cases hk : agent.id = id
        · subst hk
          obtain ⟨held, hheld⟩ := Option.isSome_iff_exists.mp (AList.lookup_isSome.mpr hid)
          simp [hheld]
        · simp [hk]
      · simp only [hreg, Prod.mk.injEq] at h
        obtain ⟨hp', hl⟩ := ih (r := ⟨r.inner.insert agent.id (Fetched.registered w ⟨i, agent, card⟩), false⟩) rfl
          (Prod.ext h.1 rfl)
        refine ⟨hp', hl.trans ?_⟩
        by_cases hk : agent.id = id
        · subst hk
          simp [AList.lookup_eq_none.mpr hid]
        · simp [hk, AList.lookup_insert_ne (Ne.symm hk)]
      · simp [hreg] at h

theorem find?_fetched_cons (f : Fetched) (fs : List Fetched) (id : String) :
    (f :: fs).find? (fun f => f.agent.id == id) = if f.agent.id = id then some f else fs.find? fun f => f.agent.id == id := by
  rw [List.find?_cons]
  by_cases h : f.agent.id = id
  · rw [if_pos h, beq_iff_eq.mpr h]
  · rw [if_neg h, beq_false_of_ne h]

theorem seedAgents_panics (hp : r.poisoned = false) {i : Nat} {agents : List A2aSeedAgent} :
    (seedAgents w i r agents).1 = none ↔
      ∃ id f, (fetchedFrom w i agents).find? (fun f => f.agent.id == id) = some f ∧ id ∉ r.inner ∧ f.Overflows w := by
  induction agents generalizing i r with
  | nil => simp [seedAgents, fetchedFrom]
  | cons agent agents ih =>
    rw [seedAgents, fetchedFrom]
    cases hf : (fetchCard w.statusText agent.cardUrl (w.get i)).1 with
    | error e => exact ih hp
    | ok card =>
      simp only [find?_fetched_cons]
      rcases register_fetched w hp i agent card with ⟨hid, hreg⟩ | ⟨hid, ho, hreg⟩ | ⟨hid, ho, hreg⟩
      · simp only [hreg]
        rw [@ih ⟨r.inner, false⟩ rfl]
        apply exists_congr
        intro id
        apply exists_congr
        intro f
        by_cases hk : agent.id = id
        · subst hk
          simp [hid]
        · rw [if_neg hk]
      · simp only [hreg]
        rw [@ih ⟨r.inner.insert agent.id (Fetched.registered w ⟨i, agent, card⟩), false⟩ rfl]
        apply exists_congr
        intro id
        apply exists_congr
        intro f
        by_cases hk : agent.id = id
        · subst hk
          simp only [AList.mem_insert, true_or, not_true, false_and, and_false, if_true, Option.some.injEq, false_iff]
          rintro ⟨rfl, -, hover⟩
          exact ho hover
        · simp [hk, Ne.symm hk]
      · simp only [hreg, true_iff]
        exact ⟨agent.id, ⟨i, agent, card⟩, if_pos rfl, hid, ho⟩

theorem seedAgents_gets {i : Nat} {agents : List A2aSeedAgent} {r' : A2aRegistry}
    (h : (seedAgents w i r agents).1 = some r') : (seedAgents w i r agents).2 = (agents.zipIdx i).flatMap fun p =>
      List.replicate (fetchCard w.statusText p.1.cardUrl (w.get p.2)).2 p.1.cardUrl := by
  induction agents generalizing i r with
  | nil => rfl
  | cons agent agents ih =>
    rw [seedAgents] at h ⊢
    rw [List.zipIdx_cons, List.flatMap_cons]
    cases hf : (fetchCard w.statusText agent.cardUrl (w.get i)).1 with
    | error e =>
      simp only [hf] at h ⊢
      rw [ih h]
    | ok card =>
      simp only [hf] at h ⊢
      cases hreg : (r.tryRegister w.latest (w.clock i) (agent.registration card)).1 with
      | none => simp [hreg] at h
      | some inserted =>
        simp only [hreg] at h ⊢
        rw [ih h]

end

/-- The registry a seeding leaves, and the GETs it sent. -/
structure Seeded (w : SeedOutside) (agents : List A2aSeedAgent) (r : A2aRegistry) (gets : List String) : Prop where
  held : ∀ id agent, r.inner.lookup id = some agent ↔
    ∃ f, IsFirst (fun f => f.agent.id) id (fetchedFrom w 0 agents) f ∧ f.registered w = agent
  gets : gets = agents.zipIdx.flatMap fun p =>
    List.replicate (fetchCard w.statusText p.1.cardUrl (w.get p.2)).2 p.1.cardUrl
  retried : ∀ p ∈ agents.zipIdx, Retried CardFetchError.isRetryable (fun n => cardOp w.statusText p.1.cardUrl (w.get p.2 n)) 3
    (fetchCard w.statusText p.1.cardUrl (w.get p.2))

theorem seed_registers (w : SeedOutside) (agents : List A2aSeedAgent) :
    ((seedAgents w 0 {} agents).1 = none ∧
      ∃ f id, IsFirst (fun f => f.agent.id) id (fetchedFrom w 0 agents) f ∧ f.Overflows w) ∨
    ∃ r gets, seedAgents w 0 {} agents = (some r, gets) ∧ Seeded w agents r gets ∧
      ∀ f id, IsFirst (fun f => f.agent.id) id (fetchedFrom w 0 agents) f → ¬ f.Overflows w := by
  have hfirst : ∀ id f, (fetchedFrom w 0 agents).find? (fun f => f.agent.id == id) = some f ↔
      IsFirst (fun f => f.agent.id) id (fetchedFrom w 0 agents) f :=
    fun id f => Firsts.find?_eq_some_iff fun f => beq_iff_eq
  have hpanics := @seedAgents_panics w {} rfl 0 agents
  simp only [hfirst, AList.notMem_empty, not_false_eq_true, true_and] at hpanics
  cases h : seedAgents w 0 {} agents with
  | mk r gets =>
    rw [h] at hpanics
    cases r with
    | none =>
      obtain ⟨id, f, hf, ho⟩ := hpanics.mp rfl
      exact .inl ⟨rfl, f, id, hf, ho⟩
    | some r =>
      refine .inr ⟨r, gets, rfl, ⟨?_, ?_, fun p _ => retry_retried _ _ 2⟩, ?_⟩
      · intro id agent
        rw [(seedAgents_lookup rfl h id).2, AList.lookup_empty, Option.none_or, Option.map_eq_some_iff]
        exact exists_congr fun f => and_congr (hfirst id f) Iff.rfl
      · have hgets := @seedAgents_gets w {} 0 agents r (by rw [h])
        rwa [h] at hgets
      · intro f id hf ho
        have := hpanics.mpr ⟨id, f, hf, ho⟩
        cases this

end SynapseGateway
