import SynapseGateway.Lib.Slots
import SynapseGateway.Lib.Steps
import SynapseGateway.McpGateway

/-!
# The client cache and identities

In every run a call is served by a client built for the URL and the identity it
resolved itself, a refused call builds none, and the cache holds one identity for
each server. A get-or-build leaves clients of registered servers only, unless
its build fails: then it does not sweep.
-/

namespace SynapseGateway

open Steps

/-! ## The registry -/

namespace McpRegistry

variable {r : McpRegistry} {now : Nat}

theorem resolveAt_resolveAt (n m : String) : ((r.resolveAt n now).2.resolveAt m now).1 = (r.resolveAt m now).1 := by
  cases h : r.lookup n with
  | none => simp only [resolveAt, h]
  | some entry =>
    by_cases hexp : (entry.expiresAt.any (· ≤ now)) = true
    · have hr : (r.resolveAt n now).2 = r.erase n := by simp [resolveAt, h, hexp]
      rw [hr]
      by_cases hm : m = n
      · subst hm
        simp [resolveAt, h, hexp]
      · simp only [resolveAt, AList.lookup_erase_ne hm]
        cases r.lookup m with
        | none => rfl
        | some e => by_cases he : (e.expiresAt.any (· ≤ now)) = true <;> simp [he]
    · have hr : (r.resolveAt n now).2 = r := by simp [resolveAt, h, hexp]
      rw [hr]

end McpRegistry

section
variable {now : Nat} {entries : List CachedClient} {r : McpRegistry}

theorem sweepDeregistered_resolveAt (m : String) :
    ((sweepDeregistered now entries r).2.resolveAt m now).1 = (r.resolveAt m now).1 := by
  induction entries generalizing r with
  | nil => rfl
  | cons e entries ih => exact ih.trans (McpRegistry.resolveAt_resolveAt e.server m)

theorem sweepDeregistered_resolves (m : String) :
    (sweepDeregistered now entries r).2.Resolves m now ↔ r.Resolves m now := by
  rw [McpRegistry.Resolves, sweepDeregistered_resolveAt, McpRegistry.Resolves]

theorem mem_sweepDeregistered {e : CachedClient} :
    e ∈ (sweepDeregistered now entries r).1 ↔ e ∈ entries ∧ r.Resolves e.server now := by
  induction entries generalizing r with
  | nil => simp [sweepDeregistered]
  | cons e' entries ih =>
    have hsame : ∀ m, (r.resolveAt e'.server now).2.Resolves m now ↔ r.Resolves m now := by
      intro m
      rw [McpRegistry.Resolves, McpRegistry.resolveAt_resolveAt, McpRegistry.Resolves]
    rw [sweepDeregistered]
    simp only
    by_cases hurl : (r.resolveAt e'.server now).1.isSome = true
    · rw [if_pos hurl, List.mem_cons, List.mem_cons, ih, hsame]
      constructor
      · intro h
        obtain rfl | ⟨hmem, hres⟩ := h
        · exact ⟨.inl rfl, hurl⟩
        · exact ⟨.inr hmem, hres⟩
      · intro h
        obtain ⟨rfl | hmem, hres⟩ := h
        · exact .inl rfl
        · exact .inr ⟨hmem, hres⟩
    · rw [if_neg hurl, List.mem_cons, ih, hsame]
      constructor
      · intro h
        obtain ⟨hmem, hres⟩ := h
        exact ⟨.inr hmem, hres⟩
      · intro h
        obtain ⟨rfl | hmem, hres⟩ := h
        · exact absurd hres hurl
        · exact ⟨hmem, hres⟩

theorem sweepDeregistered_all {e : CachedClient} (h : e ∈ (sweepDeregistered now entries r).1) :
    (sweepDeregistered now entries r).2.Resolves e.server now := by
  rw [sweepDeregistered_resolves]
  exact (mem_sweepDeregistered.mp h).2

theorem lookupClient_cases (now : Nat) (entries : List CachedClient) (r : McpRegistry) (server url : String)
    (injection : ResolvedInjection) :
    lookupClient now entries r server url injection = (none, entries, r) ∨
      ∃ e ∈ entries, e.server = server ∧ e.injection = injection ∧ e.url = url ∧
        lookupClient now entries r server url injection = (some e.client, sweepDeregistered now entries r) := by
  unfold lookupClient
  cases hf : entries.find? fun e => e.server = server ∧ e.injection = injection with
  | none => exact .inl rfl
  | some e =>
    by_cases hurl : e.url = url
    · have hkey : e.server = server ∧ e.injection = injection := by simpa using List.find?_some hf
      exact .inr ⟨e, List.mem_of_find?_eq_some hf, hkey.1, hkey.2, hurl, if_pos hurl⟩
    · exact .inl (if_neg hurl)

theorem mem_insertClient {server url : String} {injection : ResolvedInjection} {client : UpstreamClient}
    {e : CachedClient} (h : e ∈ (insertClient now entries r server url injection client).1) :
    e = ⟨server, injection, client, url⟩ ∨ (e ∈ entries ∧ e.server ≠ server) := by
  have hmem := (mem_sweepDeregistered.mp h).1
  simp only [List.mem_cons, List.mem_filter, decide_eq_true_eq] at hmem
  obtain he | ⟨⟨hmem, hkept⟩, hother⟩ := hmem
  · exact .inl he
  · refine .inr ⟨hmem, fun hs => hother ⟨hs, ?_⟩⟩
    rcases hkept with hne | hinj
    · exact absurd hs hne
    · exact hinj

end

/-! ## What holds of every state -/

section
variable {config : McpGatewayConfig} (http : HttpCrate)

/-- The client was built for a URL and an identity: its headers are the identity's. -/
structure UpstreamClient.BuiltFor (client : UpstreamClient) (url : String) (injection : ResolvedInjection) : Prop where
  ofUrl : client.url = url
  ofInjection : client.injection = injection
  ofHeaders : injection.headerMap http = .ok client.headers

def OneIdentity (entries : List CachedClient) : Prop :=
  ∀ e ∈ entries, ∀ e' ∈ entries, e.server = e'.server → e.injection = e'.injection

theorem OneIdentity.sweep {entries : List CachedClient} (h : OneIdentity entries) (now : Nat) (r : McpRegistry) :
    OneIdentity (sweepDeregistered now entries r).1 := by
  intro e₁ h₁ e₂ h₂
  exact h e₁ (mem_sweepDeregistered.mp h₁).1 e₂ (mem_sweepDeregistered.mp h₂).1

theorem OneIdentity.insert {entries : List CachedClient} (h : OneIdentity entries) (now : Nat) (r : McpRegistry)
    (server url : String) (injection : ResolvedInjection) (client : UpstreamClient) :
    OneIdentity (insertClient now entries r server url injection client).1 := by
  intro e₁ h₁ e₂ h₂ hs
  rcases mem_insertClient h₁ with rfl | ⟨hm₁, hne₁⟩
  · rcases mem_insertClient h₂ with rfl | ⟨-, hne₂⟩
    · rfl
    · exact absurd hs.symm hne₂
  · rcases mem_insertClient h₂ with rfl | ⟨hm₂, -⟩
    · exact absurd hs hne₁
    · exact h e₁ hm₁ e₂ hm₂ hs

def Phase.Faithful : Phase → Prop
  | .built url injection client | .returned url injection client => client.BuiltFor http url injection
  | _ => True

def Phase.pastBuild : Phase → Bool
  | .built .. | .returned .. | .failed (.internal _) | .dropped => true
  | _ => false

structure McpState.Inv (s : McpState) : Prop where
  cached : ∀ e ∈ s.entries, e.client.BuiltFor http e.url e.injection
  single : OneIdentity s.entries
  calls : ∀ (c : Nat) (call : McpCall), s.calls[c]? = some call → call.phase.Faithful http
  builds : ∀ b ∈ s.builds, ∃ call, s.calls[b.call]? = some call ∧ call.phase.pastBuild = true

variable {http} {s s' : McpState} {a : McpAction}

theorem put_self {s : McpState} {c : Nat} {call : McpCall} (hc : s.calls[c]? = some call) (server : String)
    (phase : Phase) : (s.put c server phase).calls[c]? = some ⟨server, phase⟩ :=
  Slots.set_self hc _

theorem buildUpstreamClient_ok {url : String} {injection : ResolvedInjection} {connect : Connect}
    {client : UpstreamClient} (h : buildUpstreamClient http url injection connect = .ok client) :
    client.BuiltFor http url injection := by
  unfold buildUpstreamClient at h
  cases hh : injection.headerMap http with
  | error e => rw [hh] at h; cases h
  | ok headers =>
    rw [hh] at h
    cases connect <;> cases h
    exact ⟨rfl, rfl, hh⟩

theorem headerMapFrom_error {headers : HeaderMap} {pairs : List (String × String)} {e : McpGatewayError}
    (h : headerMapFrom http headers pairs = .error e) : ∃ message, e = .internal message := by
  induction pairs generalizing headers with
  | nil => cases h
  | cons p pairs ih =>
    obtain ⟨name, value⟩ := p
    rw [headerMapFrom] at h
    cases hn : http.headerName name with
    | none => rw [hn] at h; cases h; exact ⟨_, rfl⟩
    | some n =>
      cases hv : http.headerValue value.toList with
      | none => rw [hn, hv] at h; cases h; exact ⟨_, rfl⟩
      | some v => rw [hn, hv] at h; exact ih h

theorem buildUpstreamClient_error {url : String} {injection : ResolvedInjection} {connect : Connect}
    {e : McpGatewayError} (h : buildUpstreamClient http url injection connect = .error e) :
    ∃ message, e = .internal message := by
  unfold buildUpstreamClient at h
  cases hh : injection.headerMap http with
  | error e' =>
    rw [hh] at h
    cases h
    exact headerMapFrom_error hh
  | ok headers =>
    rw [hh] at h
    cases connect <;> cases h <;> exact ⟨_, rfl⟩

theorem faithful_put {c : Nat} {server : String} {phase : Phase}
    (h : ∀ (c : Nat) (call : McpCall), s.calls[c]? = some call → call.phase.Faithful http)
    (hphase : phase.Faithful http) (d : Nat) (call : McpCall) (hd : (s.put c server phase).calls[d]? = some call) :
    call.phase.Faithful http := by
  rcases Slots.of_set hd with ⟨-, rfl⟩ | ⟨-, hd⟩
  · exact hphase
  · exact h d call hd

theorem pastBuild_put {c : Nat} {server : String} {old phase : Phase} (hc : s.calls[c]? = some ⟨server, old⟩)
    (hphase : old.pastBuild = true → phase.pastBuild = true) {d : Nat}
    (h : ∃ call, s.calls[d]? = some call ∧ call.phase.pastBuild = true) :
    ∃ call, (s.put c server phase).calls[d]? = some call ∧ call.phase.pastBuild = true :=
  Slots.keeps_set (p := fun call : McpCall => call.phase.pastBuild = true) hc hphase h

theorem McpState.Inv.step (h : s.Inv http) (hstep : McpStep config http s a s') : s'.Inv http := by
  cases hstep with
  | register | deregister | push | clear | pass => exact ⟨h.cached, h.single, h.calls, h.builds⟩
  | call server =>
    refine ⟨h.cached, h.single, ?_, ?_⟩
    · intro c call hc
      rcases Slots.of_concat hc with ⟨-, rfl⟩ | hc
      · trivial
      · exact h.calls c call hc
    · intro b hb
      obtain ⟨call, hc, hpast⟩ := h.builds b hb
      exact ⟨call, Slots.concat_old hc _, hpast⟩
  | @resolveRegistry c server hc =>
    refine ⟨h.cached, h.single, faithful_put h.calls ?_, fun b hb => pastBuild_put hc ?_ (h.builds b hb)⟩
    · cases (s.registry.resolveAt server s.now).1 <;> trivial
    · intro hpast
      cases hpast
  | @resolveContext c server url hc =>
    refine ⟨h.cached, h.single, faithful_put h.calls ?_, fun b hb => pastBuild_put hc ?_ (h.builds b hb)⟩
    · cases ResolvedInjection.resolve config (s.context.resolveAt s.now).1 <;> trivial
    · intro hpast
      cases hpast
  | @lookup c server url injection hc =>
    have hbuilds : ∀ phase : Phase, (Phase.injected url injection).pastBuild = true → phase.pastBuild = true := by
      intro phase hpast
      cases hpast
    rcases lookupClient_cases s.now s.entries s.registry server url injection with
      hmiss | ⟨e, he, -, hinj, hurl, hhit⟩
    · rw [hmiss]
      exact ⟨h.cached, h.single, faithful_put h.calls trivial, fun b hb => pastBuild_put hc (hbuilds _) (h.builds b hb)⟩
    · rw [hhit]
      refine ⟨?_, h.single.sweep s.now s.registry, faithful_put h.calls ?_,
        fun b hb => pastBuild_put hc (hbuilds _) (h.builds b hb)⟩
      · intro e' he'
        exact h.cached e' (mem_sweepDeregistered.mp he').1
      · subst hinj hurl
        exact h.cached e he
  | @build c server url injection hc connect =>
    refine ⟨h.cached, h.single, faithful_put h.calls ?_, ?_⟩
    · cases hb : buildUpstreamClient http url injection connect with
      | error e => trivial
      | ok client => exact buildUpstreamClient_ok hb
    · intro b hb
      rcases List.mem_append.mp hb with hb | hb
      · refine pastBuild_put hc (fun hpast => ?_) (h.builds b hb)
        cases hpast
      · obtain rfl := List.mem_singleton.mp hb
        refine ⟨_, put_self hc server _, ?_⟩
        cases hbuild : buildUpstreamClient http url injection connect with
        | error e =>
          obtain ⟨message, rfl⟩ := buildUpstreamClient_error hbuild
          rfl
        | ok client => rfl
  | @insert c server url injection client hc =>
    have hbuilt : client.BuiltFor http url injection := h.calls c _ hc
    refine ⟨?_, h.single.insert s.now s.registry server url injection client, faithful_put h.calls hbuilt,
      fun b hb => pastBuild_put hc (fun _ => rfl) (h.builds b hb)⟩
    intro e he
    rcases mem_insertClient he with rfl | ⟨hmem, -⟩
    · exact hbuilt
    · exact h.cached e hmem
  | drop hc hlive =>
    exact ⟨h.cached, h.single, faithful_put h.calls trivial, fun b hb => pastBuild_put hc (fun _ => rfl) (h.builds b hb)⟩

theorem McpStep.others (hstep : McpStep config http s a s') {c : Nat} {call : McpCall} (hc : s.calls[c]? = some call)
    (ha : a.caller ≠ some c) : s'.calls[c]? = some call := by
  have hput : ∀ {t : McpState} {d : Nat} {old : McpCall} {server : String} {phase : Phase}, some d ≠ some c →
      t.calls[d]? = some old → t.calls[c]? = some call → (t.put d server phase).calls[c]? = some call := by
    intro t d old server phase hne hd hc
    refine (Slots.getElem?_set hd _ c).trans ?_
    rw [if_neg (Ne.symm fun h => hne (congrArg some h))]
    exact hc
  cases hstep with
  | register | deregister | push | clear | pass => exact hc
  | call server => exact Slots.concat_old hc _
  | resolveRegistry hd => exact hput ha hd hc
  | resolveContext hd => exact hput ha hd hc
  | lookup hd => exact hput ha hd hc
  | build hd => exact hput ha hd hc
  | insert hd => exact hput ha hd hc
  | drop hd hlive => exact hput ha hd hc

theorem McpStep.ended (hstep : McpStep config http s a s') {c : Nat} {call : McpCall} (hc : s.calls[c]? = some call)
    (hended : call.phase.live = false) : s'.calls[c]? = some call := by
  apply hstep.others hc
  intro ha
  have hlive : ∀ {server : String} {phase : Phase}, s.calls[c]? = some ⟨server, phase⟩ → phase.live = true → False := by
    intro server phase hd hlive
    rw [hc] at hd
    cases hd
    rw [hlive] at hended
    cases hended
  cases hstep with
  | register | deregister | push | clear | pass | call => cases ha
  | resolveRegistry hd => cases ha; exact hlive hd rfl
  | resolveContext hd => cases ha; exact hlive hd rfl
  | lookup hd => cases ha; exact hlive hd rfl
  | build hd => cases ha; exact hlive hd rfl
  | insert hd => cases ha; exact hlive hd rfl
  | drop hd hl => cases ha; exact hlive hd hl

/-! ## Completed calls -/

def AllResolve (s : McpState) : Prop := ∀ e ∈ s.entries, s.registry.Resolves e.server s.now

def Phase.getting : Phase → Bool
  | .injected .. | .missed .. | .built .. => true
  | _ => false

/-- A call that has given its caller a client or an error. -/
def Phase.answered : Phase → Bool
  | .returned .. | .failed _ => true
  | _ => false

def Completes (x : Taken McpState McpAction) : Prop :=
  ∃ (c : Nat) (call call' : McpCall), x.before.calls[c]? = some call ∧ call.phase.getting = true ∧
    x.after.calls[c]? = some call' ∧ call'.phase.answered = true

def BuildFails (x : Taken McpState McpAction) : Prop :=
  ∃ (c : Nat) (server url : String) (injection : ResolvedInjection) (e : McpGatewayError),
    x.before.calls[c]? = some ⟨server, .missed url injection⟩ ∧ x.after.calls[c]? = some ⟨server, .failed e⟩

theorem BuildFails.completes {x : Taken McpState McpAction} (h : BuildFails x) : Completes x := by
  obtain ⟨c, server, url, injection, e, hbefore, hafter⟩ := h
  exact ⟨c, _, _, hbefore, rfl, hafter, rfl⟩

theorem Phase.not_answered {p : Phase} (h : p.getting = true) : p.answered = false := by
  cases p with
  | injected | missed | built => rfl
  | started | resolved | returned | failed | dropped => cases h

theorem McpStep.own (hstep : McpStep config http s a s') {c : Nat} {call call' : McpCall}
    (hbefore : s.calls[c]? = some call) (hafter : s'.calls[c]? = some call') (hne : call ≠ call') :
    a.caller = some c := by
  by_contra ha
  exact hne (Option.some.inj ((hstep.others hbefore ha).symm.trans hafter))

/-- A get-or-build completes with a sweep, or its build fails. -/
theorem McpStep.completes (hstep : McpStep config http s a s') (hx : Completes ⟨s, a, s'⟩) :
    AllResolve s' ∨ BuildFails ⟨s, a, s'⟩ := by
  obtain ⟨c, call, call', hbefore, hgetting, hafter, hanswered⟩ := hx
  have hne : call ≠ call' := by
    rintro rfl
    rw [Phase.not_answered hgetting] at hanswered
    cases hanswered
  have ha := hstep.own hbefore hafter hne
  have hphase : ∀ {server : String} {phase : Phase}, s.calls[c]? = some ⟨server, phase⟩ → phase.getting = true := by
    intro server phase hd
    cases hbefore.symm.trans hd
    exact hgetting
  cases hstep with
  | register | deregister | push | clear | pass | call => cases ha
  | resolveRegistry hd =>
    cases ha
    cases hphase hd
  | resolveContext hd =>
    cases ha
    cases hphase hd
  | @lookup d server url injection hd =>
    cases ha
    left
    obtain rfl := Option.some.inj (hafter.symm.trans (put_self hd server _))
    rcases lookupClient_cases s.now s.entries s.registry server url injection with hmiss | ⟨e, -, -, -, -, hhit⟩
    · rw [hmiss] at hanswered
      cases hanswered
    · rw [hhit]
      intro e' he'
      exact sweepDeregistered_all he'
  | @build d server url injection hd connect =>
    cases ha
    right
    obtain rfl := Option.some.inj (hafter.symm.trans (put_self hd server _))
    cases hb : buildUpstreamClient http url injection connect with
    | error e =>
      rw [hb] at hafter
      exact ⟨c, server, url, injection, e, hd, hafter⟩
    | ok client =>
      rw [hb] at hanswered
      cases hanswered
  | insert hd =>
    left
    intro e he
    exact sweepDeregistered_all he
  | drop hd hlive =>
    cases ha
    cases (put_self hd _ Phase.dropped).symm.trans hafter
    cases hanswered

theorem McpStep.buildFails (hstep : McpStep config http s a s') (hf : BuildFails ⟨s, a, s'⟩) :
    AllResolve s' ↔ AllResolve s := by
  obtain ⟨c, server, url, injection, e, hbefore, hafter⟩ := hf
  have ha := hstep.own hbefore hafter (by intro h; cases h)
  have hphase : ∀ {server' : String} {phase : Phase}, s.calls[c]? = some ⟨server', phase⟩ →
      phase = .missed url injection := by
    intro server' phase hd
    cases hbefore.symm.trans hd
    rfl
  cases hstep with
  | register | deregister | push | clear | pass | call => cases ha
  | resolveRegistry hd =>
    cases ha
    cases hphase hd
  | resolveContext hd =>
    cases ha
    cases hphase hd
  | lookup hd =>
    cases ha
    cases hphase hd
  | build hd connect => exact Iff.rfl
  | insert hd =>
    cases ha
    cases hphase hd
  | drop hd hlive => exact Iff.rfl

/-! ## Refused calls -/

theorem injectedPairs_unbound {ctx : ResolvedContext} {rules : List IdentityHeaderRule} {rule : IdentityHeaderRule}
    (hrule : rule ∈ rules) (hreq : rule.required = true) (hkey : ctx.get rule.contextKey = none) :
    ∃ key, injectedPairs ctx rules = .error (.unbound key) := by
  induction rules with
  | nil => cases hrule
  | cons r rules ih =>
    rw [injectedPairs]
    rcases List.mem_cons.mp hrule with rfl | hmem
    · rw [hkey]
      exact ⟨rule.contextKey, if_pos hreq⟩
    · obtain ⟨key, hpairs⟩ := ih hmem
      cases ctx.get r.contextKey with
      | some value =>
        simp only
        rw [hpairs]
        exact ⟨key, rfl⟩
      | none =>
        by_cases hr : r.required = true
        · exact ⟨r.contextKey, if_pos hr⟩
        · exact ⟨key, (if_neg hr).trans hpairs⟩

/-- The step resolves the registry for a call whose server is not there. -/
def UnknownServer (x : Taken McpState McpAction) (c : Nat) (server : String) : Prop :=
  x.action = .resolveRegistry c ∧ x.before.calls[c]? = some ⟨server, .started⟩ ∧
    ¬ x.before.registry.Resolves server x.before.now

/-- The step resolves the context for a call, and a required key is absent from it. -/
def UnboundKey (config : McpGatewayConfig) (x : Taken McpState McpAction) (c : Nat) : Prop :=
  x.action = .resolveContext c ∧ (∃ server url, x.before.calls[c]? = some ⟨server, .resolved url⟩) ∧
    ∃ rule ∈ config.inject, rule.required = true ∧
      (x.before.context.resolveAt x.before.now).1.get rule.contextKey = none

def McpGatewayError.refusal : McpGatewayError → Bool
  | .internal _ => false
  | _ => true

/-- The call has ended with an error, and it never built a client. -/
def McpState.Refused (s : McpState) (c : Nat) : Prop :=
  (∃ server e, s.calls[c]? = some ⟨server, .failed e⟩ ∧ e.refusal = true) ∧ ∀ b ∈ s.builds, b.call ≠ c

theorem refused_of_failed (hinv : s.Inv http) {c : Nat} {server : String} {e : McpGatewayError}
    (hc : s.calls[c]? = some ⟨server, .failed e⟩) (he : e.refusal = true) : s.Refused c := by
  refine ⟨⟨server, e, hc, he⟩, ?_⟩
  rintro b hb rfl
  obtain ⟨call, hcall, hpast⟩ := hinv.builds b hb
  cases hcall.symm.trans hc
  cases e with
  | internal message => cases he
  | unknownServer name => cases hpast
  | unbound key => cases hpast

theorem McpStep.unknownServer (hstep : McpStep config http s a s') {c : Nat} {server : String}
    (hx : UnknownServer ⟨s, a, s'⟩ c server) : s'.calls[c]? = some ⟨server, .failed (.unknownServer server)⟩ := by
  obtain ⟨ha, hc, hres⟩ := hx
  cases hstep <;> cases ha
  rename_i server' hd
  cases hd.symm.trans hc
  have hnone : (s.registry.resolveAt server s.now).1 = none := by
    simpa [McpRegistry.Resolves] using hres
  refine (put_self hd server _).trans ?_
  rw [hnone]
  rfl

theorem McpStep.unboundKey (hstep : McpStep config http s a s') {c : Nat} (hx : UnboundKey config ⟨s, a, s'⟩ c) :
    ∃ server key, s'.calls[c]? = some ⟨server, .failed (.unbound key)⟩ := by
  obtain ⟨ha, ⟨server, url, hc⟩, rule, hrule, hreq, hkey⟩ := hx
  cases hstep <;> cases ha
  rename_i server' url' hd
  obtain ⟨key, hpairs⟩ := injectedPairs_unbound hrule hreq hkey
  refine ⟨server', key, (put_self hd server' _).trans ?_⟩
  rw [ResolvedInjection.resolve, hpairs]
  rfl

/-! ## Whole runs -/

/-- What the client cache promises of a run from an empty gateway. -/
structure CacheSafe (config : McpGatewayConfig) (http : HttpCrate) (tr : List (Taken McpState McpAction)) (t : McpState) :
    Prop where
  returned : ∀ x ∈ tr, ∀ (c : Nat) server url injection client,
    x.after.calls[c]? = some ⟨server, .returned url injection client⟩ → client.BuiltFor http url injection
  unknown : ∀ x ∈ tr, ∀ c server, UnknownServer x c server → t.Refused c
  unbound : ∀ x ∈ tr, ∀ c, UnboundKey config x c → t.Refused c
  single : ∀ x ∈ tr, OneIdentity x.after.entries
  swept : ∀ x ∈ tr, Completes x → AllResolve x.after

theorem inv_empty (context : ContextStore) : McpState.Inv http { context := context } where
  cached := by
    intro e he
    cases he
  single := by
    intro e he
    cases he
  calls := by
    intro c call hc
    cases hc
  builds := by
    intro b hb
    cases hb

theorem run_ended {tr : List (Taken McpState McpAction)} {t : McpState} (h : Run (McpStep config http) s tr t) {c : Nat}
    {call : McpCall} (hc : s.calls[c]? = some call) (hended : call.phase.live = false) : t.calls[c]? = some call :=
  h.inv (p := fun s => s.calls[c]? = some call) hc fun _ _ _ hc hstep => hstep.ended hc hended

/-- A run keeps the promises exactly when no build fails while a cached server does not
resolve. -/
theorem cacheSafe_iff {context : ContextStore} {tr : List (Taken McpState McpAction)} {t : McpState}
    (h : Run (McpStep config http) { context := context } tr t) :
    CacheSafe config http tr t ↔ ∀ x ∈ tr, BuildFails x → AllResolve x.before := by
  have hinv : ∀ {tr t}, Run (McpStep config http) { context := context } tr t → t.Inv http :=
    fun hrun => hrun.inv (inv_empty context) fun _ _ _ hs hstep => hs.step hstep
  have hafter : ∀ x ∈ tr, x.after.Inv http := fun x hx =>
    (h.inv_taken (inv_empty context) (fun _ _ _ hs hstep => hs.step hstep) hx).2
  constructor
  · intro hsafe x hx hf
    exact ((h.split hx).1.buildFails hf).mp (hsafe.swept x hx hf.completes)
  · intro hfails
    refine ⟨?_, ?_, ?_, fun x hx => (hafter x hx).single, ?_⟩
    · intro x hx c server url injection client hc
      exact (hafter x hx).calls c _ hc
    · intro x hx c server hu
      obtain ⟨hstep, -, tr₂, hrest⟩ := h.split hx
      exact refused_of_failed (hinv h) (run_ended hrest (hstep.unknownServer hu) rfl) rfl
    · intro x hx c hu
      obtain ⟨hstep, -, tr₂, hrest⟩ := h.split hx
      obtain ⟨server, key, hc⟩ := hstep.unboundKey hu
      exact refused_of_failed (hinv h) (run_ended hrest hc rfl) rfl
    · intro x hx hcomp
      rcases (h.split hx).1.completes hcomp with hall | hf
      · exact hall
      · exact ((h.split hx).1.buildFails hf).mpr (hfails x hx hf)

end

/-! ## Two runs -/

def lenientHttp : HttpCrate := ⟨fun _ => true, fun _ => true, fun _ => .error "expected value"⟩

/-- One call of one server, from its registration to its answer. -/
theorem one_call_safe : ∃ tr t, Run (McpStep {} lenientHttp) { context := ⟨[], none⟩ } tr t ∧ CacheSafe {} lenientHttp tr t := by
  have hempty : Run (McpStep {} lenientHttp) { context := ⟨[], none⟩ } [] { context := ⟨[], none⟩ } := .nil
  have hrun := hempty
    |>.snoc (.register "alpha" "http://alpha.local" none)
    |>.snoc (.call "alpha")
    |>.snoc (.resolveRegistry (c := 0) rfl)
    |>.snoc (.resolveContext (c := 0) rfl)
    |>.snoc (.lookup (c := 0) rfl)
    |>.snoc (.build (c := 0) rfl .connected)
    |>.snoc (.insert (c := 0) rfl)
  refine ⟨_, _, hrun, (cacheSafe_iff hrun).mpr ?_⟩
  have hnone : ∀ {x : Taken McpState McpAction}, x.before.entries = [] → BuildFails x → AllResolve x.before := by
    intro x hx _ e he
    rw [hx] at he
    cases he
  simp only [List.forall_mem_append, List.forall_mem_singleton]
  exact ⟨⟨⟨⟨⟨⟨⟨nofun, hnone rfl⟩, hnone rfl⟩, hnone rfl⟩, hnone rfl⟩, hnone rfl⟩, hnone rfl⟩, hnone rfl⟩

/-- `alpha` is deregistered while its client is cached; a call of `beta` whose build fails
leaves it there. -/
theorem failed_build_keeps_alpha :
    ∃ tr t, Run (McpStep {} lenientHttp) { context := ⟨[], none⟩ } tr t ∧ ¬ CacheSafe {} lenientHttp tr t := by
  have hempty : Run (McpStep {} lenientHttp) { context := ⟨[], none⟩ } [] { context := ⟨[], none⟩ } := .nil
  have hrun := hempty
    |>.snoc (.register "alpha" "http://alpha.local" none)
    |>.snoc (.register "beta" "http://beta.local" none)
    |>.snoc (.call "alpha")
    |>.snoc (.resolveRegistry (c := 0) rfl)
    |>.snoc (.resolveContext (c := 0) rfl)
    |>.snoc (.lookup (c := 0) rfl)
    |>.snoc (.build (c := 0) rfl .connected)
    |>.snoc (.insert (c := 0) rfl)
    |>.snoc (.deregister "alpha")
    |>.snoc (.call "beta")
    |>.snoc (.resolveRegistry (c := 1) rfl)
    |>.snoc (.resolveContext (c := 1) rfl)
    |>.snoc (.lookup (c := 1) rfl)
    |>.snoc (.build (c := 1) rfl (.failed "connection refused"))
  refine ⟨_, _, hrun, ?_⟩
  intro hsafe
  have hall := hsafe.swept _ (List.mem_append_right _ (List.mem_singleton_self _)) ⟨1, _, _, rfl, rfl, rfl, rfl⟩
  cases hall _ (List.mem_singleton_self _)

end SynapseGateway
