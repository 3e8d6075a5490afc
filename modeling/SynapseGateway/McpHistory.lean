import SynapseGateway.Lib.Since
import SynapseGateway.McpGatewaySound

/-!
# What a call resolves

The registry and the bound context drop what has expired when they are next
read, be it by a call or by a sweep of the cache. No call can tell: at every
state of every run what it resolves is what was last registered, or last bound,
if that has not expired.
-/

namespace SynapseGateway

open Steps (Taken Run)

/-! ## Live entries -/

def expiredAt (expiresAt : Option Nat) (now : Nat) : Bool := expiresAt.any (· ≤ now)

theorem expiredAt_mono {expiresAt : Option Nat} {now later : Nat} (h : now ≤ later)
    (he : expiredAt expiresAt now = true) : expiredAt expiresAt later = true := by
  cases expiresAt with
  | none => cases he
  | some e =>
    have : e ≤ now := by simpa [expiredAt] using he
    simp [expiredAt, Nat.le_trans this h]

/-- What is live later was live before and has not expired since. -/
theorem filter_later {β : Type} {expiresAt : β → Option Nat} {now later : Nat} (h : now ≤ later) {c : Option β}
    {b : β} : c.filter (fun b => !expiredAt (expiresAt b) later) = some b ↔
      c.filter (fun b => !expiredAt (expiresAt b) now) = some b ∧ ¬ expiredAt (expiresAt b) later = true := by
  simp only [Option.filter_eq_some_iff, Bool.not_eq_true', Bool.not_eq_true]
  constructor
  · rintro ⟨hl, he⟩
    refine ⟨⟨hl, ?_⟩, he⟩
    by_contra hnow
    rw [expiredAt_mono h (by simpa using hnow)] at he
    cases he
  · exact fun ⟨⟨hl, _⟩, he⟩ => ⟨hl, he⟩

namespace McpRegistry

def live (r : McpRegistry) (name : String) (now : Nat) : Option RegisteredUpstream :=
  (r.lookup name).filter fun entry => !expiredAt entry.expiresAt now

theorem resolveAt_eq (r : McpRegistry) (name : String) (now : Nat) :
    (r.resolveAt name now).1 = (r.live name now).map (·.url) := by
  unfold resolveAt live
  cases r.lookup name with
  | none => rfl
  | some entry => by_cases he : entry.expiresAt.any (· ≤ now) = true <;> simp [Option.filter, expiredAt, he]

theorem live_resolveAt (r : McpRegistry) (n m : String) (now : Nat) : (r.resolveAt n now).2.live m now = r.live m now := by
  unfold resolveAt
  cases hn : r.lookup n with
  | none => rfl
  | some entry =>
    by_cases he : entry.expiresAt.any (· ≤ now) = true
    · simp only [he, if_true]
      by_cases hm : m = n
      · subst hm
        simp [live, hn, Option.filter, expiredAt, he]
      · simp [live, AList.lookup_erase_ne hm]
    · simp [he]

theorem live_sweep (entries : List CachedClient) (r : McpRegistry) (m : String) (now : Nat) :
    (sweepDeregistered now entries r).2.live m now = r.live m now := by
  induction entries generalizing r with
  | nil => rfl
  | cons e entries ih => exact (ih _).trans (live_resolveAt r e.server m now)

theorem live_later {r : McpRegistry} {name : String} {now later : Nat} (h : now ≤ later) {entry : RegisteredUpstream} :
    r.live name later = some entry ↔ r.live name now = some entry ∧ ¬ expiredAt entry.expiresAt later = true :=
  filter_later h

end McpRegistry

def ContextStore.live (c : ContextStore) (now : Nat) : Option Overlay :=
  c.overlay.filter fun o => !expiredAt o.expiresAt now

theorem ContextStore.live_later {c : ContextStore} {now later : Nat} (h : now ≤ later) {o : Overlay} :
    c.live later = some o ↔ c.live now = some o ∧ ¬ expiredAt o.expiresAt later = true :=
  filter_later h

theorem ContextStore.resolveAt_eq (c : ContextStore) (now : Nat) :
    (c.resolveAt now).1 = ((c.live now).map fun o => o.values ++ c.base).getD c.base := by
  unfold resolveAt live
  cases c.overlay with
  | none => rfl
  | some o => by_cases he : o.expiresAt.any (· ≤ now) = true <;> simp [Option.filter, expiredAt, he]

theorem ContextStore.live_resolveAt (c : ContextStore) (now : Nat) : (c.resolveAt now).2.live now = c.live now := by
  unfold resolveAt live
  cases ho : c.overlay with
  | none => simp [ho]
  | some o => by_cases he : o.expiresAt.any (· ≤ now) = true <;> simp [Option.filter, expiredAt, he, ho, clear]

theorem ContextStore.base_resolveAt (c : ContextStore) (now : Nat) : (c.resolveAt now).2.base = c.base := by
  unfold resolveAt
  cases c.overlay with
  | none => rfl
  | some o => by_cases he : o.expiresAt.any (· ≤ now) = true <;> simp [he, clear]

/-! ## What a step does to them -/

section
variable {config : McpGatewayConfig} {http : HttpCrate}

abbrev McpTaken := Taken McpState McpAction

def McpAction.Renames (name : String) : McpAction → Prop
  | .register n _ _ => n = name
  | .deregister n => n = name
  | _ => False

def McpAction.Rebinds : McpAction → Prop
  | .push .. | .clear => True
  | _ => False

def Registered (name : String) (x : McpTaken) (entry : RegisteredUpstream) : Prop :=
  ∃ url ttl, x.action = .register name url ttl ∧ entry = ⟨name, url, ttl.map (x.before.now + ·)⟩

def Bound (x : McpTaken) (o : Overlay) : Prop :=
  ∃ values ttl, x.action = .push values ttl ∧ o = ⟨values, ttl.map (x.before.now + ·)⟩

theorem McpStep.now_le {s t : McpState} {a : McpAction} (h : McpStep config http s a t) : s.now ≤ t.now := by
  cases h <;> simp [McpState.put]

/-- Only a registration or a deregistration of a name changes what is live under it. -/
theorem McpStep.registry_live {s t : McpState} {a : McpAction} (h : McpStep config http s a t) (name : String) :
    (∃ url ttl, a = .register name url ttl ∧
      t.registry.live name t.now = (some ⟨name, url, ttl.map (s.now + ·)⟩ : Option RegisteredUpstream).filter
        fun entry => !expiredAt entry.expiresAt t.now) ∨
    (a = .deregister name ∧ t.registry.live name t.now = none) ∨
    (¬ a.Renames name ∧ t.registry.live name t.now = s.registry.live name t.now) := by
  cases h with
  | register n url ttl =>
    by_cases hn : n = name
    · subst hn
      exact .inl ⟨url, ttl, rfl, by simp [McpRegistry.live, McpRegistry.register]⟩
    · exact .inr (.inr ⟨hn, by simp [McpRegistry.live, McpRegistry.register, AList.lookup_insert_ne (Ne.symm hn)]⟩)
  | deregister n =>
    by_cases hn : n = name
    · subst hn
      exact .inr (.inl ⟨rfl, by simp [McpRegistry.live, McpRegistry.deregister]⟩)
    · exact .inr (.inr ⟨hn, by simp [McpRegistry.live, McpRegistry.deregister, AList.lookup_erase_ne (Ne.symm hn)]⟩)
  | resolveRegistry hc => exact .inr (.inr ⟨id, McpRegistry.live_resolveAt s.registry _ name s.now⟩)
  | @lookup c server url injection hc =>
    refine .inr (.inr ⟨id, ?_⟩)
    rcases lookupClient_cases s.now s.entries s.registry server url injection with hl | ⟨e, -, -, -, -, hl⟩
    · simp [McpState.put, hl]
    · simp only [McpState.put, hl]
      exact McpRegistry.live_sweep s.entries s.registry name s.now
  | insert hc => exact .inr (.inr ⟨id, McpRegistry.live_sweep _ s.registry name s.now⟩)
  | push | clear | pass | call | resolveContext | build | drop => exact .inr (.inr ⟨id, rfl⟩)

theorem McpStep.overlay_live {s t : McpState} {a : McpAction} (h : McpStep config http s a t) :
    t.context.base = s.context.base ∧
    ((∃ values ttl, a = .push values ttl ∧ t.context.live t.now =
      (some ⟨values, ttl.map (s.now + ·)⟩ : Option Overlay).filter fun o => !expiredAt o.expiresAt t.now) ∨
    (a = .clear ∧ t.context.live t.now = none) ∨
    (¬ a.Rebinds ∧ t.context.live t.now = s.context.live t.now)) := by
  cases h with
  | push values ttl => exact ⟨rfl, .inl ⟨values, ttl, rfl, rfl⟩⟩
  | clear => exact ⟨rfl, .inr (.inl ⟨rfl, rfl⟩)⟩
  | resolveContext hc =>
    exact ⟨ContextStore.base_resolveAt _ _, .inr (.inr ⟨id, ContextStore.live_resolveAt s.context s.now⟩)⟩
  | register | deregister | pass | call | resolveRegistry | lookup | build | insert | drop =>
    exact ⟨rfl, .inr (.inr ⟨id, rfl⟩)⟩

theorem registry_cell (name : String) : Since.Governs (McpStep config http) (fun s => s.registry.live name s.now)
    (fun x entry => Registered name x entry ∧ expiredAt entry.expiresAt x.after.now = false)
    (fun x entry => x.action.Renames name ∨ ¬ expiredAt entry.expiresAt x.after.now = false) := by
  intro s a t entry h
  dsimp only [Registered]
  rcases h.registry_live name with ⟨url, ttl, rfl, hl⟩ | ⟨rfl, hl⟩ | ⟨hn, hl⟩
  · simp only [hl, Option.filter_eq_some_iff, Option.some.injEq, Bool.not_eq_true', McpAction.register.injEq, McpAction.Renames,
      true_or, not_true, and_false, or_false, true_and]
    constructor
    · rintro ⟨rfl, he⟩
      exact ⟨⟨url, ttl, ⟨rfl, rfl⟩, rfl⟩, he⟩
    · rintro ⟨⟨url', ttl', ⟨rfl, rfl⟩, rfl⟩, he⟩
      exact ⟨rfl, he⟩
  · simp [hl, McpAction.Renames]
  · have hset : ∀ url ttl, a ≠ .register name url ttl := by
      rintro url ttl rfl
      exact hn rfl
    rw [hl, McpRegistry.live_later h.now_le]
    simp [hn, hset]

theorem overlay_cell : Since.Governs (McpStep config http) (fun s => s.context.live s.now)
    (fun x o => Bound x o ∧ expiredAt o.expiresAt x.after.now = false)
    (fun x o => x.action.Rebinds ∨ ¬ expiredAt o.expiresAt x.after.now = false) := by
  intro s a t o h
  dsimp only [Bound]
  rcases h.overlay_live.2 with ⟨values, ttl, rfl, hl⟩ | ⟨rfl, hl⟩ | ⟨hn, hl⟩
  · simp only [hl, Option.filter_eq_some_iff, Option.some.injEq, Bool.not_eq_true', McpAction.push.injEq, McpAction.Rebinds,
      true_or, not_true, and_false, or_false]
    constructor
    · rintro ⟨rfl, he⟩
      exact ⟨⟨values, ttl, ⟨rfl, rfl⟩, rfl⟩, he⟩
    · rintro ⟨⟨values', ttl', ⟨rfl, rfl⟩, rfl⟩, he⟩
      exact ⟨rfl, he⟩
  · simp [hl, McpAction.Rebinds]
  · have hset : ∀ values ttl, a ≠ .push values ttl := by
      rintro values ttl rfl
      exact hn trivial
    rw [hl, ContextStore.live_later h.now_le]
    simp [hn, hset]

/-! ## The history -/

variable {s : McpState} {tr : List McpTaken} {base : ResolvedContext}

/-- The URL was registered last, and has not expired. -/
def RegisteredSince (tr : List McpTaken) (now : Nat) (name url : String) : Prop :=
  ∃ entry, Since.Held (Registered name) (fun x _ => x.action.Renames name) tr entry ∧
    expiredAt entry.expiresAt now = false ∧ entry.url = url

def BoundSince (tr : List McpTaken) (now : Nat) (values : ResolvedContext) : Prop :=
  ∃ o, Since.Held Bound (fun x _ => x.action.Rebinds) tr o ∧ expiredAt o.expiresAt now = false ∧ o.values = values

def ContextSince (tr : List McpTaken) (now : Nat) (base ctx : ResolvedContext) : Prop :=
  (∃ values, BoundSince tr now values ∧ ctx = values ++ base) ∨ (∀ values, ¬ BoundSince tr now values) ∧ ctx = base

theorem after_now_le (h : Run (McpStep config http) { context := ⟨base, none⟩ } tr s) {x : McpTaken} (hx : x ∈ tr) :
    x.after.now ≤ s.now := by
  obtain ⟨-, -, tr', hrest⟩ := h.split hx
  exact hrest.inv (p := fun t => x.after.now ≤ t.now) (Nat.le_refl _) fun t a u ht hstep => Nat.le_trans ht hstep.now_le

theorem unexpired_before (h : Run (McpStep config http) { context := ⟨base, none⟩ } tr s) {expiresAt : Option Nat}
    (he : expiredAt expiresAt s.now = false) {x : McpTaken} (hx : x ∈ tr) : expiredAt expiresAt x.after.now = false := by
  by_contra hc
  rw [expiredAt_mono (after_now_le h hx) (by simpa using hc)] at he
  cases he

theorem live_server_iff (h : Run (McpStep config http) { context := ⟨base, none⟩ } tr s) (name : String)
    (entry : RegisteredUpstream) : s.registry.live name s.now = some entry ↔
      Since.Held (Registered name) (fun x _ => x.action.Renames name) tr entry ∧ expiredAt entry.expiresAt s.now = false := by
  have hcell := Since.cell_iff (registry_cell name) (rfl : McpRegistry.live ∅ name 0 = none) h entry
  by_cases he : expiredAt entry.expiresAt s.now = false
  · rw [hcell, and_iff_left he]
    exact Since.held_while (p := fun (s : McpState) (e : RegisteredUpstream) => expiredAt e.expiresAt s.now = false)
      fun y hy => unexpired_before h he hy
  · simp [McpRegistry.live, he]

theorem live_overlay_iff (h : Run (McpStep config http) { context := ⟨base, none⟩ } tr s) (o : Overlay) :
    s.context.live s.now = some o ↔
      Since.Held Bound (fun x _ => x.action.Rebinds) tr o ∧ expiredAt o.expiresAt s.now = false := by
  have hcell := Since.cell_iff overlay_cell (rfl : ContextStore.live ⟨base, none⟩ 0 = none) h o
  by_cases he : expiredAt o.expiresAt s.now = false
  · rw [hcell, and_iff_left he]
    exact Since.held_while (p := fun (s : McpState) (o : Overlay) => expiredAt o.expiresAt s.now = false)
      fun y hy => unexpired_before h he hy
  · simp [ContextStore.live, he]

theorem resolveAt_registeredSince (h : Run (McpStep config http) { context := ⟨base, none⟩ } tr s) (name url : String) :
    (s.registry.resolveAt name s.now).1 = some url ↔ RegisteredSince tr s.now name url := by
  rw [McpRegistry.resolveAt_eq, Option.map_eq_some_iff]
  apply exists_congr
  intro entry
  rw [live_server_iff h, and_assoc]

theorem context_base (h : Run (McpStep config http) { context := ⟨base, none⟩ } tr s) : s.context.base = base :=
  h.inv (p := fun s => s.context.base = base) rfl fun _ _ _ ht hstep => hstep.overlay_live.1.trans ht

theorem resolveAt_contextSince (h : Run (McpStep config http) { context := ⟨base, none⟩ } tr s) :
    ContextSince tr s.now base (s.context.resolveAt s.now).1 := by
  rw [ContextStore.resolveAt_eq, context_base h]
  cases hlive : s.context.live s.now with
  | none =>
    refine .inr ⟨?_, rfl⟩
    rintro values ⟨o, hheld, he, -⟩
    rw [(live_overlay_iff h o).mpr ⟨hheld, he⟩] at hlive
    cases hlive
  | some o =>
    obtain ⟨hheld, he⟩ := (live_overlay_iff h o).mp hlive
    exact .inl ⟨o.values, ⟨o, hheld, he, rfl⟩, rfl⟩

/-- What the calls of a state resolve when they go on. -/
structure ResolvesByHistory (config : McpGatewayConfig) (http : HttpCrate) (base : ResolvedContext) (tr : List McpTaken)
    (s : McpState) : Prop where
  server : ∀ c t, McpStep config http s (.resolveRegistry c) t → ∃ server, s.calls[c]? = some ⟨server, .started⟩ ∧
    ((∃ url, RegisteredSince tr s.now server url ∧ t.calls[c]? = some ⟨server, .resolved url⟩) ∨
      (∀ url, ¬ RegisteredSince tr s.now server url) ∧ t.calls[c]? = some ⟨server, .failed (.unknownServer server)⟩)
  identity : ∀ c t, McpStep config http s (.resolveContext c) t → ∃ server url ctx,
    s.calls[c]? = some ⟨server, .resolved url⟩ ∧ ContextSince tr s.now base ctx ∧
      t.calls[c]? = some ⟨server, .ofContext url (ResolvedInjection.resolve config ctx)⟩

theorem mcp_resolves_history (h : Run (McpStep config http) { context := ⟨base, none⟩ } tr s) :
    ResolvesByHistory config http base tr s := by
  constructor
  · intro c t hstep
    cases hstep with
    | @resolveRegistry _ server hc =>
      refine ⟨server, hc, ?_⟩
      cases hr : (s.registry.resolveAt server s.now).1 with
      | none =>
        refine .inr ⟨fun url hu => ?_, Slots.set_self hc _⟩
        rw [(resolveAt_registeredSince h server url).mpr hu] at hr
        cases hr
      | some url => exact .inl ⟨url, (resolveAt_registeredSince h server url).mp hr, Slots.set_self hc _⟩
  · intro c t hstep
    cases hstep with
    | @resolveContext _ server url hc => exact ⟨server, url, _, hc, resolveAt_contextSince h, Slots.set_self hc _⟩

/-- A server and a binding, both with a time to live, and a call after the binding has expired. -/
theorem late_call_resolves_history : ∃ tr s, Run (McpStep {} lenientHttp) { context := ⟨[("org", "base")], none⟩ } tr s ∧
    s.now = 20 ∧ ResolvesByHistory {} lenientHttp [("org", "base")] tr s := by
  have hempty : Run (McpStep {} lenientHttp) { context := ⟨[("org", "base")], none⟩ } []
    { context := ⟨[("org", "base")], none⟩ } := .nil
  have hrun := hempty
    |>.snoc (.register "alpha" "http://alpha.local" (some 30))
    |>.snoc (.push [("org", "pushed")] (some 10))
    |>.snoc (.pass 20)
    |>.snoc (.call "alpha")
  exact ⟨_, _, hrun, rfl, mcp_resolves_history hrun⟩

end

end SynapseGateway
