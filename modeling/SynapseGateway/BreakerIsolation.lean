import SynapseGateway.BreakerSound
import Mathlib.Logic.Function.Basic

/-!
# The legs of the standard lane

The catalog holds one provider, and so one breaker, for each provider id; the
legs of every route share it. A streamed call is a leg whose stream is handed
on: it takes no chunk step.
-/

namespace SynapseGateway

structure LegKey where
  provider : String
  model : String
deriving DecidableEq, Repr

def Provider.build (id : String) (profile : Profile) : Provider := ⟨id, .new id profile, profile.policy.maxAttempts⟩

structure StandardLane where
  providers : String → Option Provider
  legs : LegKey → Nat → Option Leg

def StandardLane.new (built : String → Option Profile) : StandardLane where
  providers id := (built id).map (Provider.build id)
  legs _ _ := none

structure LaneStep where
  key : LegKey
  step : LegStep

def unbuiltProvider (id : String) : BufferedLegError :=
  .failed (.start ("unbuilt provider '" ++ id ++ "'")) "unbuilt_provider" none

def StandardLane.step (s : StandardLane) (e : LaneStep) : Option StandardLane :=
  match s.providers e.key.provider with
  | none =>
    match s.legs e.key e.step.id, e.step.event with
    | none, .call =>
      let legs := Function.update (s.legs e.key) e.step.id (some (.returned (.error (unbuiltProvider e.key.provider))))
      some { s with legs := Function.update s.legs e.key legs }
    | _, _ => none
  | some p =>
    (LegSystem.step ⟨p, fun _ => e.key.model, s.legs e.key⟩ e.step).map fun (t, _) =>
      ⟨Function.update s.providers e.key.provider (some t.provider), Function.update s.legs e.key t.legs⟩

def StandardLane.run (s : StandardLane) (es : List LaneStep) : Option StandardLane := es.foldlM StandardLane.step s

/-- A call on the leg at `now` returns at once with `CircuitOpen`. -/
def StandardLane.Rejects (s : StandardLane) (key : LegKey) (now id : Nat) : Prop :=
  ∃ s' name, s.step ⟨key, ⟨now, id, .call⟩⟩ = some s' ∧ s'.legs key id = some (.returned (.error (.circuitOpen name)))

def stepsOn (key : LegKey) (es : List LaneStep) : List LegStep := (es.filter (·.key = key)).map (·.step)

/-- In any two runs over the legs `K` that do the same on `key`, the next call on `key`
is rejected in both or in neither. -/
def LegIsolated (built : String → Option Profile) (K : LegKey → Prop) (key : LegKey) : Prop :=
  ∀ es₁ es₂ s₁ s₂ now id,
    (∀ e ∈ es₁, K e.key) → (∀ e ∈ es₂, K e.key) →
    Timed 0 (es₁.map (·.step)) → Timed 0 (es₂.map (·.step)) →
    lastTime 0 (es₁.map (·.step)) ≤ now → lastTime 0 (es₂.map (·.step)) ≤ now →
    (StandardLane.new built).run es₁ = some s₁ → (StandardLane.new built).run es₂ = some s₂ →
    stepsOn key es₁ = stepsOn key es₂ → s₁.legs key id = none → s₂.legs key id = none →
    (s₁.Rejects key now id ↔ s₂.Rejects key now id)

/-! ## One leg of a run -/

theorem LegSystem.step_models {s t : LegSystem} {e : LegStep} {mark : Option Mark} (h : s.step e = some (t, mark)) :
    t.models = s.models := by
  obtain ⟨⟨p, leg, m⟩, -, heq⟩ := Option.map_eq_some_iff.mp h
  cases heq
  rfl

theorem StandardLane.step_other {s s' : StandardLane} {e : LaneStep} {key : LegKey} (h : s.step e = some s')
    (hp : e.key.provider ≠ key.provider) : s'.providers key.provider = s.providers key.provider ∧
      s'.legs key = s.legs key := by
  have hk : key ≠ e.key := fun hk => hp (by rw [hk])
  unfold StandardLane.step at h
  split at h
  · split at h
    · cases h
      exact ⟨rfl, Function.update_of_ne hk _ _⟩
    · cases h
  · rw [Option.map_eq_some_iff] at h
    obtain ⟨⟨t, mark⟩, -, rfl⟩ := h
    exact ⟨Function.update_of_ne (Ne.symm hp) _ _, Function.update_of_ne hk _ _⟩

theorem StandardLane.step_self {s s' : StandardLane} {e : LaneStep} {p : Provider} (h : s.step e = some s')
    (hp : s.providers e.key.provider = some p) :
    ∃ t mark, LegSystem.step ⟨p, fun _ => e.key.model, s.legs e.key⟩ e.step = some (t, mark) ∧
      s'.providers e.key.provider = some t.provider ∧ s'.legs e.key = t.legs := by
  unfold StandardLane.step at h
  rw [hp] at h
  simp only at h
  rw [Option.map_eq_some_iff] at h
  obtain ⟨⟨t, mark⟩, hstep, rfl⟩ := h
  exact ⟨t, mark, hstep, Function.update_self .., Function.update_self ..⟩

theorem StandardLane.step_unbuilt {s s' : StandardLane} {e : LaneStep} {id : String} (h : s.step e = some s')
    (hp : s.providers id = none) : s'.providers id = none := by
  unfold StandardLane.step at h
  split at h
  · split at h
    · cases h
      exact hp
    · cases h
  · rename_i p hq
    rw [Option.map_eq_some_iff] at h
    obtain ⟨⟨t, mark⟩, -, rfl⟩ := h
    have hne : id ≠ e.key.provider := by
      rintro rfl
      rw [hp] at hq
      cases hq
    exact (Function.update_of_ne hne _ _).trans hp

theorem StandardLane.run_cons {s s' : StandardLane} {e : LaneStep} {es : List LaneStep}
    (h : s.run (e :: es) = some s') : ∃ s₁, s.step e = some s₁ ∧ s₁.run es = some s' := by
  rw [StandardLane.run, List.foldlM_cons] at h
  exact Option.bind_eq_some_iff.mp h

theorem StandardLane.run_unbuilt {s s' : StandardLane} {es : List LaneStep} {id : String} (h : s.run es = some s')
    (hp : s.providers id = none) : s'.providers id = none := by
  induction es generalizing s with
  | nil => cases h; exact hp
  | cons e es ih =>
    obtain ⟨s₁, hstep, hrun⟩ := StandardLane.run_cons h
    exact ih hrun (StandardLane.step_unbuilt hstep hp)

/-- A run with no call on another model of the leg's provider does to that leg and its
provider what its own steps do. -/
theorem StandardLane.run_leg {s s' : StandardLane} {es : List LaneStep} {key : LegKey} {p : Provider} (hist : History)
    (h : s.run es = some s') (hp : s.providers key.provider = some p)
    (hes : ∀ e ∈ es, e.key.provider = key.provider → e.key = key) :
    ∃ t hist', LegSystem.run ⟨p, fun _ => key.model, s.legs key⟩ hist (stepsOn key es) = some (t, hist') ∧
      s'.providers key.provider = some t.provider ∧ s'.legs key = t.legs := by
  induction es generalizing s p hist with
  | nil => cases h; exact ⟨_, hist, rfl, hp, rfl⟩
  | cons e es ih =>
    obtain ⟨s₁, hstep, hrun⟩ := StandardLane.run_cons h
    have hrest : ∀ x ∈ es, x.key.provider = key.provider → x.key = key :=
      fun x hx => hes x (List.mem_cons_of_mem e hx)
    by_cases hk : e.key = key
    · subst hk
      obtain ⟨t, mark, hleg, hprov, hlegs⟩ := StandardLane.step_self hstep hp
      have hcons : stepsOn e.key (e :: es) = e.step :: stepsOn e.key es := by simp [stepsOn]
      obtain ⟨u, hist', hu, hu'⟩ := ih (mark.toList.map (fun m => (e.step.now, m)) ++ hist) hrun hprov hrest
      have hmodels : t.models = fun _ => e.key.model := LegSystem.step_models hleg
      rw [hlegs, ← hmodels] at hu
      refine ⟨u, hist', ?_, hu'⟩
      rw [hcons, LegSystem.run, hleg]
      exact hu
    · have hne : e.key.provider ≠ key.provider := fun hx => hk (hes e (List.mem_cons_self ..) hx)
      obtain ⟨hprov, hlegs⟩ := StandardLane.step_other hstep hne
      have hskip : stepsOn key (e :: es) = stepsOn key es := by simp [stepsOn, hk]
      rw [hskip, ← hlegs]
      exact ih hist hrun (hprov.trans hp) hrest

theorem StandardLane.rejects_iff {s : StandardLane} {key : LegKey} {p : Provider} {now id : Nat}
    (hp : s.providers key.provider = some p) (hid : s.legs key id = none) :
    s.Rejects key now id ↔ (p.breaker.guard now).1 = false := by
  unfold StandardLane.Rejects StandardLane.step LegSystem.step legStep
  simp only [hp, hid]
  cases hg : p.breaker.guard now with
  | mk ok b => cases ok <;> simp

theorem StandardLane.not_rejects_unbuilt {s : StandardLane} {key : LegKey} {now id : Nat}
    (hp : s.providers key.provider = none) (hid : s.legs key id = none) : ¬ s.Rejects key now id := by
  unfold StandardLane.Rejects StandardLane.step
  simp [hp, hid, unbuiltProvider]

theorem legIsolated_of_no_other {built : String → Option Profile} {K : LegKey → Prop} {key : LegKey}
    (hK : built key.provider ≠ none → ∀ k, K k → k.provider = key.provider → k = key) : LegIsolated built K key := by
  intro es₁ es₂ s₁ s₂ now id hK₁ hK₂ _ _ _ _ hrun₁ hrun₂ hsteps hid₁ hid₂
  cases hb : built key.provider with
  | none =>
    have hp : (StandardLane.new built).providers key.provider = none := by simp [StandardLane.new, hb]
    exact iff_of_false (StandardLane.not_rejects_unbuilt (StandardLane.run_unbuilt hrun₁ hp) hid₁)
      (StandardLane.not_rejects_unbuilt (StandardLane.run_unbuilt hrun₂ hp) hid₂)
  | some profile =>
    have hp : (StandardLane.new built).providers key.provider = some (Provider.build key.provider profile) := by
      simp [StandardLane.new, hb]
    have honly := hK (by simp [hb])
    obtain ⟨t₁, h₁, ht₁, hp₁, -⟩ := StandardLane.run_leg [] hrun₁ hp fun e he => honly e.key (hK₁ e he)
    obtain ⟨t₂, h₂, ht₂, hp₂, -⟩ := StandardLane.run_leg [] hrun₂ hp fun e he => honly e.key (hK₂ e he)
    rw [hsteps, ht₂] at ht₁
    cases ht₁
    rw [StandardLane.rejects_iff hp₁ hid₁, StandardLane.rejects_iff hp₂ hid₂]

/-! ## Another model's outage -/

def failingCall (key : LegKey) (id : Nat) : List LaneStep := [
  ⟨key, ⟨0, id, .call⟩⟩,
  ⟨key, ⟨0, id, .attempt (.error .emptyStream)⟩⟩]

def failingCalls (key : LegKey) (n : Nat) : List LaneStep := (List.range n).flatMap (failingCall key)

theorem failingCall_run {s : StandardLane} {key : LegKey} {p : Provider} {id : Nat}
    (hp : s.providers key.provider = some p) (hst : p.breaker.state = .closed) (hid : s.legs key id = none) :
    ∃ s', s.run (failingCall key id) = some s' ∧
      s'.providers key.provider = some { p with breaker := p.breaker.record false 0 } ∧
      (∀ k, k ≠ key → s'.legs k = s.legs k) ∧ ∀ i, i ≠ id → s'.legs key i = s.legs key i := by
  have hg : p.breaker.guard 0 = (true, p.breaker) := by simp [CircuitBreaker.guard, hst]
  refine ⟨⟨Function.update (Function.update s.providers key.provider (some p)) key.provider
      (some { p with breaker := p.breaker.record false 0 }),
    Function.update (Function.update s.legs key fun i => if i = id then some (.starting 0) else s.legs key i) key
      fun i => if i = id then some (.returned (.error (.failed (.start "empty stream") "empty_stream" none)))
        else if i = id then some (.starting 0) else s.legs key i⟩, ?_, ?_, ?_, ?_⟩
  · simp [StandardLane.run, failingCall, StandardLane.step, LegSystem.step, legStep, hp, hid, hg,
      StartError.isRetryable, StartError.intoLegError, StartError.kind, StartError.status]
  · simp
  · intro k hk
    simp [hk]
  · intro i hi
    simp [hi]

theorem failingCalls_run {s : StandardLane} (key : LegKey) {p : Provider} (hp : s.providers key.provider = some p)
    (hst : p.breaker.state = .closed) (hf : p.breaker.consecutiveFailures = 0) (hids : ∀ i, s.legs key i = none)
    {k : Nat} (hk : k ≤ p.breaker.threshold) :
    ∃ s' b, s.run (failingCalls key k) = some s' ∧ s'.providers key.provider = some { p with breaker := b } ∧
      b.threshold = p.breaker.threshold ∧ b.openFor = p.breaker.openFor ∧ b.consecutiveFailures = k ∧
      (if 0 < k ∧ k = p.breaker.threshold then b.state = .opened ∧ b.openedAt = some 0 else b.state = .closed) ∧
      (∀ j, j ≠ key → s'.legs j = s.legs j) ∧ ∀ i, k ≤ i → s'.legs key i = none := by
  induction k with
  | zero => exact ⟨s, p.breaker, rfl, hp, rfl, rfl, hf, by simpa using hst, fun _ _ => rfl, fun i _ => hids i⟩
  | succ k ih =>
    obtain ⟨s', b, hrun, hp', hn, hd, hf', hst', hother, hfresh⟩ := ih (by omega)
    rw [if_neg (by omega)] at hst'
    obtain ⟨s₂, hrun₂, hp₂, hother₂, hself₂⟩ := failingCall_run hp' hst' (hfresh k (Nat.le_refl k))
    have hcalls : s.run (failingCalls key (k + 1)) = some s₂ := by
      rw [failingCalls, List.range_succ, List.flatMap_append, List.flatMap_singleton, StandardLane.run,
        List.foldlM_append]
      show (s.run (failingCalls key k)).bind (fun t => t.run (failingCall key k)) = some s₂
      rw [hrun]
      exact hrun₂
    refine ⟨s₂, b.record false 0, hcalls, hp₂, ?_, ?_, ?_, ?_, ?_, ?_⟩
    · simp only [CircuitBreaker.record, Bool.false_eq_true, if_false]
      split <;> exact hn
    · simp only [CircuitBreaker.record, Bool.false_eq_true, if_false]
      split <;> exact hd
    · simp only [CircuitBreaker.record, Bool.false_eq_true, if_false]
      split <;> simp [hf']
    · by_cases hlast : k + 1 = p.breaker.threshold
      · have hpos : 0 < p.breaker.threshold := by omega
        simp [CircuitBreaker.record, hf', hn, hlast, hpos]
      · have hle : ¬ p.breaker.threshold ≤ k + 1 := by omega
        simp [CircuitBreaker.record, hf', hn, hlast, hle, hst']
    · intro j hj
      rw [hother₂ j hj, hother j hj]
    · intro i hi
      rw [hself₂ i (by omega)]
      exact hfresh i (by omega)

theorem failingCalls_timed (key : LegKey) (n : Nat) : Timed 0 ((failingCalls key n).map (·.step)) ∧
    lastTime 0 ((failingCalls key n).map (·.step)) = 0 := by
  have : ∀ ids : List Nat, Timed 0 ((ids.flatMap (failingCall key)).map (·.step)) ∧
      lastTime 0 ((ids.flatMap (failingCall key)).map (·.step)) = 0 := by
    intro ids
    induction ids with
    | nil => exact ⟨trivial, rfl⟩
    | cons id ids ih => exact ⟨⟨Nat.le_refl 0, Nat.le_refl 0, ih.1⟩, ih.2⟩
  exact this _

theorem failingCalls_key {key : LegKey} {n : Nat} : ∀ e ∈ failingCalls key n, e.key = key := by
  intro e he
  obtain ⟨id, -, he⟩ := List.mem_flatMap.mp he
  simp only [failingCall, List.mem_cons, List.not_mem_nil, or_false] at he
  rcases he with rfl | rfl <;> rfl

theorem Profile.policy_pos (profile : Profile) :
    0 < profile.policy.breakerThreshold ∧ 0 < profile.policy.breakerOpenFor := by
  cases profile <;> decide

theorem not_legIsolated {built : String → Option Profile} {K : LegKey → Prop} {key : LegKey} (other : LegKey)
    (hb : built key.provider ≠ none) (hK : K other) (hp : other.provider = key.provider) (hne : other ≠ key) :
    ¬ LegIsolated built K key := by
  obtain ⟨profile, hprofile⟩ := Option.ne_none_iff_exists'.mp hb
  have hnew : (StandardLane.new built).providers key.provider = some (Provider.build key.provider profile) := by
    simp [StandardLane.new, hprofile]
  obtain ⟨hthreshold, hopenFor⟩ := profile.policy_pos
  obtain ⟨s', b, hrun, hprov, -, hd, -, hst, hlegs, -⟩ := failingCalls_run other (hp ▸ hnew) rfl rfl
    (fun _ => rfl) (Nat.le_refl profile.policy.breakerThreshold)
  rw [if_pos ⟨hthreshold, rfl⟩] at hst
  obtain ⟨htimed, hlast⟩ := failingCalls_timed other profile.policy.breakerThreshold
  intro h
  have hsteps : stepsOn key (failingCalls other profile.policy.breakerThreshold) = stepsOn key [] := by
    have hnone : (failingCalls other profile.policy.breakerThreshold).filter (·.key = key) = [] := by
      rw [List.filter_eq_nil_iff]
      intro e he
      rw [failingCalls_key e he]
      simpa using hne
    simp [stepsOn, hnone]
  have hid : s'.legs key 0 = none := by rw [hlegs key (Ne.symm hne)]; rfl
  have := h (failingCalls other profile.policy.breakerThreshold) [] s' _ 0 0
    (fun e he => failingCalls_key e he ▸ hK) (fun _ he => by cases he) htimed trivial (by omega) (Nat.le_refl 0)
    hrun rfl hsteps hid rfl
  rw [StandardLane.rejects_iff (hp ▸ hprov) hid, StandardLane.rejects_iff hnew rfl] at this
  have hopen : (b.guard 0).1 = false := by
    have hd0 : 0 < b.openFor := by rw [hd]; exact hopenFor
    have hle : ¬ b.openFor ≤ 0 := by omega
    simp [CircuitBreaker.guard, hst.1, hst.2, hle]
  have hclosed := this.mp hopen
  cases hclosed

/-- A leg of a built provider is isolated exactly when no other model of that provider
is among the legs. -/
theorem legIsolated_iff (built : String → Option Profile) (K : LegKey → Prop) (key : LegKey) :
    LegIsolated built K key ↔ (built key.provider ≠ none → ∀ k, K k → k.provider = key.provider → k = key) := by
  constructor
  · intro h hb k hk hp
    by_contra hne
    exact not_legIsolated k hb hk hp hne h
  · exact legIsolated_of_no_other

/-- Ten failed calls on `gemini-2.5-pro` reject the next call on `gemini-2.5-flash`. -/
theorem flash_rejected_after_pro_outage :
    ¬ LegIsolated (fun id => if id = "vertex" then some .aggressive else none) (fun _ => True)
      ⟨"vertex", "gemini-2.5-flash"⟩ :=
  not_legIsolated ⟨"vertex", "gemini-2.5-pro"⟩ (by decide) trivial rfl (by decide)

end SynapseGateway
