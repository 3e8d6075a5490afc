import SynapseGateway.Lib.Since
import SynapseGateway.Lib.Slots

/-!
# The bearer token of the Vertex lanes

One token is cached for all calls. Calls read it and store it under a lock, but
fetch without one: several may fetch at once, and any of them may be dropped.
-/

namespace SynapseGateway

open Steps (Taken Run)

structure CachedToken where
  token : String
  expiresAt : Nat
deriving DecidableEq

structure VertexAuth where
  cached : Option CachedToken := none
  refreshMargin : Nat := 60

/-- The cached token, if it outlives the margin. -/
def VertexAuth.fresh (a : VertexAuth) (now : Nat) : Option CachedToken :=
  a.cached.filter fun c => now + a.refreshMargin < c.expiresAt

/-- A call of `token`, between the points where others may come in. -/
inductive TokenCall where
  | started
  | fetching
  | fetched (c : CachedToken)
  | returned (result : Except String String)
  | dropped

structure TokenState where
  now : Nat := 0
  auth : VertexAuth := {}
  calls : List TokenCall := []

inductive TokenAction where
  | pass (d : Nat)
  | call
  | check (i : Nat)
  | answer (i : Nat) (reply : Except String (String × Nat))
  | store (i : Nat)
  | drop (i : Nat)

def TokenState.put (s : TokenState) (i : Nat) (c : TokenCall) : TokenState := { s with calls := s.calls.set i c }

inductive TokenStep : TokenState → TokenAction → TokenState → Prop where
  | pass {s} (d : Nat) : TokenStep s (.pass d) { s with now := s.now + d }
  | call {s} : TokenStep s .call { s with calls := s.calls ++ [.started] }
  | cached {s i c} : s.calls[i]? = some .started → s.auth.fresh s.now = some c →
      TokenStep s (.check i) (s.put i (.returned (.ok c.token)))
  | stale {s i} : s.calls[i]? = some .started → s.auth.fresh s.now = none → TokenStep s (.check i) (s.put i .fetching)
  | failed {s i e} : s.calls[i]? = some .fetching → TokenStep s (.answer i (.error e)) (s.put i (.returned (.error e)))
  | fetched {s i token ttl} : s.calls[i]? = some .fetching →
      TokenStep s (.answer i (.ok (token, ttl))) (s.put i (.fetched ⟨token, s.now + ttl⟩))
  | store {s i c} : s.calls[i]? = some (.fetched c) →
      TokenStep s (.store i) { s.put i (.returned (.ok c.token)) with auth := { s.auth with cached := some c } }
  | drop {s i} : s.calls[i]? = some .fetching → TokenStep s (.drop i) (s.put i .dropped)

/-! ## Where a token comes from -/

abbrev TokenTaken := Taken TokenState TokenAction

/-- Call `i` was answered with the token, by `now`. -/
def BroughtBy (i : Nat) (tr : List TokenTaken) (now : Nat) (c : CachedToken) : Prop :=
  ∃ x ∈ tr, ∃ ttl, x.action = .answer i (.ok (c.token, ttl)) ∧ c.expiresAt = x.before.now + ttl ∧ x.before.now ≤ now

def Stores (x : TokenTaken) (c : CachedToken) : Prop :=
  ∃ i, x.action = .store i ∧ x.before.calls[i]? = some (.fetched c)

/-- The token was stored, and no other since. -/
def StoredSince (tr : List TokenTaken) (c : CachedToken) : Prop :=
  Since.Held Stores (fun x _ => ∃ i, x.action = .store i) tr c

section
variable {s t : TokenState} {a : TokenAction} {tr : List TokenTaken} {i now later : Nat} {c : CachedToken}

theorem BroughtBy.mono (h : BroughtBy i tr now c) (x : TokenTaken) (hle : now ≤ later) : BroughtBy i (tr ++ [x]) later c := by
  obtain ⟨y, hy, ttl, haction, hexpires, hnow⟩ := h
  exact ⟨y, List.mem_append_left _ hy, ttl, haction, hexpires, Nat.le_trans hnow hle⟩

theorem TokenStep.now_le (h : TokenStep s a t) : s.now ≤ t.now := by
  cases h <;> simp [TokenState.put]

theorem TokenStep.margin (h : TokenStep s a t) : t.auth.refreshMargin = s.auth.refreshMargin := by
  cases h <;> rfl

/-- A call that has a token to store had it, or has just been answered with it. -/
theorem TokenStep.of_fetched (h : TokenStep s a t) (hc : t.calls[i]? = some (.fetched c)) :
    s.calls[i]? = some (.fetched c) ∨ ∃ ttl, a = .answer i (.ok (c.token, ttl)) ∧ c.expiresAt = s.now + ttl := by
  cases h with
  | pass d => exact .inl hc
  | call =>
    rcases Slots.of_concat hc with ⟨-, heq⟩ | hc
    · cases heq
    · exact .inl hc
  | @fetched j token ttl hj =>
    rcases Slots.of_set hc with ⟨rfl, heq⟩ | ⟨-, hc⟩
    · cases heq
      exact .inr ⟨ttl, rfl, rfl⟩
    · exact .inl hc
  | cached | stale | failed | store | drop =>
    rcases Slots.of_set hc with ⟨-, heq⟩ | ⟨-, hc⟩
    · cases heq
    · exact .inl hc

theorem TokenStep.cached_eq (h : TokenStep s a t) :
    (∃ j c, a = .store j ∧ s.calls[j]? = some (.fetched c) ∧ t.auth.cached = some c) ∨
      (∀ j, a ≠ .store j) ∧ t.auth.cached = s.auth.cached := by
  cases h with
  | store hj => exact .inl ⟨_, _, rfl, hj, rfl⟩
  | pass | call | cached | stale | failed | fetched | drop => exact .inr ⟨by simp, rfl⟩

theorem cached_cell : Since.Governs TokenStep (fun s => s.auth.cached) Stores (fun x _ => ∃ i, x.action = .store i) := by
  intro s a t c h
  rcases h.cached_eq with ⟨j, c', rfl, hj, ht⟩ | ⟨hne, ht⟩
  · simp only [ht, Stores, Option.some.injEq, TokenAction.store.injEq, exists_eq', not_true, and_false, or_false,
      exists_eq_left', hj, TokenCall.fetched.injEq]
  · simp [ht, Stores, hne]

/-! ## Runs -/

theorem fetched_brought {margin : Nat} (h : Run TokenStep { auth := { refreshMargin := margin } } tr s)
    (hc : s.calls[i]? = some (.fetched c)) : BroughtBy i tr s.now c := by
  induction h with
  | nil => cases hc
  | @snoc tr u a v hrun hstep ih =>
    rcases hstep.of_fetched hc with hc | ⟨ttl, ha, hexpires⟩
    · exact (ih hc).mono _ hstep.now_le
    · exact ⟨_, List.mem_append_right _ (List.mem_singleton.mpr rfl), ttl, ha, hexpires, hstep.now_le⟩

theorem cached_brought {margin : Nat} (h : Run TokenStep { auth := { refreshMargin := margin } } tr s)
    (hc : s.auth.cached = some c) : ∃ i, BroughtBy i tr s.now c := by
  induction h with
  | nil => cases hc
  | @snoc tr u a v hrun hstep ih =>
    rcases hstep.cached_eq with ⟨j, c', rfl, hj, hv⟩ | ⟨-, hv⟩
    · obtain rfl := Option.some.inj (hv.symm.trans hc)
      exact ⟨j, (fetched_brought hrun hj).mono _ hstep.now_le⟩
    · obtain ⟨j, hj⟩ := ih (hv.symm.trans hc)
      exact ⟨j, hj.mono _ hstep.now_le⟩

theorem run_margin {margin : Nat} (h : Run TokenStep { auth := { refreshMargin := margin } } tr s) :
    s.auth.refreshMargin = margin :=
  h.inv (p := fun s => s.auth.refreshMargin = margin) rfl fun _ _ _ ht hstep => hstep.margin.trans ht

/-- What the calls of a state get as they go on. -/
structure HandsOut (margin : Nat) (tr : List TokenTaken) (s : TokenState) : Prop where
  checked : ∀ i t, TokenStep s (.check i) t →
    (∃ c, StoredSince tr c ∧ s.now + margin < c.expiresAt ∧ (∃ j, BroughtBy j tr s.now c) ∧
      t.calls[i]? = some (.returned (.ok c.token))) ∨
    (∀ c, StoredSince tr c → c.expiresAt ≤ s.now + margin) ∧ t.calls[i]? = some .fetching
  stored : ∀ i t, TokenStep s (.store i) t → ∃ c, BroughtBy i tr s.now c ∧
    t.calls[i]? = some (.returned (.ok c.token)) ∧ t.auth.cached = some c

/-- A cached token is handed out only while it outlives the margin, and only when it does
not is one fetched; a call that fetches returns what it was answered, and stores it last. -/
theorem token_fresh {margin : Nat} (h : Run TokenStep { auth := { refreshMargin := margin } } tr s) :
    HandsOut margin tr s := by
  have hcell := Since.cell_iff cached_cell (rfl : VertexAuth.cached { refreshMargin := margin } = none) h
  have hmargin := run_margin h
  constructor
  · intro i t hstep
    cases hstep with
    | @cached _ c hi hfresh =>
      obtain ⟨hcached, hlive⟩ := Option.filter_eq_some_iff.mp hfresh
      refine .inl ⟨c, (hcell c).mp hcached, ?_, cached_brought h hcached, Slots.set_self hi _⟩
      simpa [hmargin] using hlive
    | stale hi hstale =>
      refine .inr ⟨fun c hstored => ?_, Slots.set_self hi _⟩
      have hnot := Option.filter_eq_none_iff.mp hstale c ((hcell c).mpr hstored)
      simpa [hmargin] using hnot
  · intro i t hstep
    cases hstep with
    | @store _ c hi => exact ⟨c, fetched_brought h hi, Slots.set_self hi _, rfl⟩

/-- Two calls fetch at once; a third finds the token of the one that stored last. -/
theorem racing_fetches_fresh : ∃ tr s t, Run TokenStep { auth := { refreshMargin := 60 } } tr s ∧ HandsOut 60 tr s ∧
    TokenStep s (.check 2) t ∧ t.calls[2]? = some (.returned (.ok "first")) := by
  have hempty : Run TokenStep { auth := { refreshMargin := 60 } } [] { auth := { refreshMargin := 60 } } := .nil
  have hrun := hempty
    |>.snoc .call
    |>.snoc .call
    |>.snoc (.stale (i := 0) rfl rfl)
    |>.snoc (.stale (i := 1) rfl rfl)
    |>.snoc (@TokenStep.fetched _ 0 "first" 120 rfl)
    |>.snoc (@TokenStep.fetched _ 1 "second" 120 rfl)
    |>.snoc (.store (i := 1) rfl)
    |>.snoc (.pass 30)
    |>.snoc (.store (i := 0) rfl)
    |>.snoc .call
  exact ⟨_, _, _, hrun, token_fresh hrun, .cached (i := 2) (c := ⟨"first", 120⟩) rfl rfl, rfl⟩

end

end SynapseGateway
