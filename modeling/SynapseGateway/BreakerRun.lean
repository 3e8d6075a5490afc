import SynapseGateway.BreakerSound
import Mathlib.Data.List.Induction

/-!
# A breaker over a run

The guard and record steps of concurrent calls on one breaker, in any order,
and the state gauge its transitions set.
-/

namespace SynapseGateway

inductive BreakerOp where
  | guard
  | record (ok : Bool)
deriving DecidableEq, Repr

structure BreakerStep where
  now : Nat
  call : Nat
  op : BreakerOp
deriving DecidableEq, Repr

def CircuitBreaker.apply (b : CircuitBreaker) (e : BreakerStep) : CircuitBreaker :=
  match e.op with
  | .guard => (b.guard e.now).2
  | .record ok => b.record ok e.now

def CircuitBreaker.run (b : CircuitBreaker) (es : List BreakerStep) : CircuitBreaker := es.foldl .apply b

/-- The state that `record_transition` reports in a step, if the step reports one. -/
def CircuitBreaker.transition (b : CircuitBreaker) (e : BreakerStep) : Option BreakerState :=
  match e.op with
  | .guard =>
    match b.state with
    | .closed | .halfOpen => none
    | .opened => if e.now - b.openedAt.getD e.now ≥ b.openFor then some .halfOpen else none
  | .record true => if b.state = .halfOpen then some .closed else none
  | .record false =>
    if b.consecutiveFailures + 1 ≥ b.threshold then if b.state ≠ .opened then some .opened else none else none

/-- The gauge after a run: the last state reported, or what it showed before. -/
def CircuitBreaker.gauge (b : CircuitBreaker) (shown : BreakerState) : List BreakerStep → BreakerState
  | [] => shown
  | e :: es => (b.apply e).gauge ((b.transition e).getD shown) es

/-- The steps belong to calls: each passes the guard at most once, and records only
after the guard let it through. -/
def CircuitBreaker.OfCalls (b : CircuitBreaker) (guarded admitted : List Nat) : List BreakerStep → Prop
  | [] => True
  | e :: es =>
    match e.op with
    | .guard => e.call ∉ guarded ∧
        (b.apply e).OfCalls (e.call :: guarded) (if (b.guard e.now).1 then e.call :: admitted else admitted) es
    | .record _ => e.call ∈ admitted ∧ (b.apply e).OfCalls guarded admitted es

/-! ## What was recorded -/

/-- The recorded results of a run with their times, the newest first. -/
def recorded (es : List BreakerStep) : List (Nat × Bool) :=
  es.reverse.filterMap fun e =>
    match e.op with
    | .guard => none
    | .record ok => some (e.now, ok)

def failuresSinceSuccess (es : List BreakerStep) : Nat := ((recorded es).takeWhile fun r => !r.2).length

def lastFailureAt (es : List BreakerStep) : Option Nat := ((recorded es).find? fun r => !r.2).map (·.1)

def resultMark (r : Nat × Bool) : Nat × Mark := (r.1, if r.2 then .firstChunk else .failure)

theorem failuresSince_resultMark (rs : List (Nat × Bool)) :
    failuresSince .firstChunk (rs.map resultMark) = (rs.takeWhile fun r => !r.2).length := by
  induction rs with
  | nil => rfl
  | cons r rs ih =>
    obtain ⟨t, ok⟩ := r
    cases ok with
    | true => simp [resultMark]
    | false => simpa [resultMark] using ih

theorem lastFailure_resultMark (rs : List (Nat × Bool)) :
    lastFailure (rs.map resultMark) = (rs.find? fun r => !r.2).map (·.1) := by
  induction rs with
  | nil => rfl
  | cons r rs ih =>
    obtain ⟨t, ok⟩ := r
    cases ok with
    | true => simpa [resultMark] using ih
    | false => simp [resultMark]

theorem recorded_snoc_guard (es : List BreakerStep) {e : BreakerStep} (he : e.op = .guard) :
    recorded (es ++ [e]) = recorded es := by
  simp [recorded, he]

theorem recorded_snoc_record (es : List BreakerStep) {e : BreakerStep} {ok : Bool} (he : e.op = .record ok) :
    recorded (es ++ [e]) = (e.now, ok) :: recorded es := by
  simp [recorded, he]

/-! ## The invariant of a run -/

section
variable {name : String} {n d : Nat} {b : CircuitBreaker}

theorem CircuitBreaker.run_inv (hn : 0 < n) {es : List BreakerStep} {now : Nat}
    (h₀ : ∀ t, b.Inv name n d [] t) (hes : (es.map (·.now)).Pairwise (· ≤ ·)) (hnow : ∀ e ∈ es, e.now ≤ now) :
    (b.run es).Inv name n d ((recorded es).map resultMark) now := by
  induction es using List.reverseRecOn generalizing now with
  | nil => exact h₀ now
  | append_singleton es e ih =>
    rw [List.map_append, List.pairwise_append] at hes
    have hlast : ∀ x ∈ es, x.now ≤ e.now := by
      intro x hx
      exact hes.2.2 _ (List.mem_map_of_mem hx) _ (List.mem_singleton_self _)
    have hi := ih hes.1 hlast
    refine CircuitBreaker.Inv.later ?_ (hnow e (by simp))
    rw [CircuitBreaker.run, List.foldl_append]
    show ((b.run es).apply e).Inv _ _ _ _ _
    cases hop : e.op with
    | guard =>
      rw [recorded_snoc_guard es hop]
      simpa only [CircuitBreaker.apply, hop] using hi.guard.1
    | record ok =>
      rw [recorded_snoc_record es hop]
      cases ok with
      | true => simpa [CircuitBreaker.apply, hop, resultMark] using hi.firstChunk hn
      | false => simpa [CircuitBreaker.apply, hop, resultMark] using hi.failure

end

/-- The breaker after the run `es`, looked at when the clock shows `now`. -/
structure CircuitBreaker.Tracks (b : CircuitBreaker) (es : List BreakerStep) (now : Nat) : Prop where
  closed : b.state = .closed → b.consecutiveFailures < b.threshold
  tripped : b.state = .opened ∨ b.state = .halfOpen →
    b.threshold ≤ b.consecutiveFailures ∧ ∃ t, lastFailureAt es = some t ∧ b.openedAt = some t
  counted : b.consecutiveFailures = failuresSinceSuccess es
  rejects : (b.guard now).1 = false ↔ b.state = .opened ∧ ∃ t, lastFailureAt es = some t ∧ now < t + b.openFor
  reopens : b.state = .halfOpen → (b.record false now).state = .opened ∧ (b.record false now).openedAt = some now
  closes : (b.record true now).state = .closed

theorem CircuitBreaker.Inv.tracks {name : String} {n d : Nat} {b : CircuitBreaker} {es : List BreakerStep} {now : Nat}
    (hi : b.Inv name n d ((recorded es).map resultMark) now) : b.Tracks es now := by
  have hg := hi.guard.2
  obtain ⟨name, n, d, failures, state, openedAt⟩ := b
  obtain ⟨rfl, rfl, rfl, hf, hbelow, habove⟩ := hi
  rw [lastFailure_resultMark, failuresSince_resultMark] at hg
  rw [failuresSince_resultMark] at hf
  rw [lastFailure_resultMark] at habove
  simp only at hf hbelow habove hg
  constructor
  case closed =>
    rintro rfl
    by_contra hn
    obtain ⟨t, -, -, -, hst | hst⟩ := habove (Nat.le_of_not_lt hn)
    · cases hst
    · cases hst.1
  case tripped =>
    intro hst
    have hn : n ≤ failures := by
      by_contra hn
      rw [hbelow (Nat.lt_of_not_le hn)] at hst
      rcases hst with hst | hst <;> cases hst
    obtain ⟨t, ht, hopened, -⟩ := habove hn
    exact ⟨hn, t, ht, hopened⟩
  case counted => exact hf
  case rejects =>
    constructor
    · intro hrej
      refine ⟨?_, (hg.mp hrej).2⟩
      cases state with
      | opened => rfl
      | closed => cases hrej
      | halfOpen => cases hrej
    · intro h
      obtain ⟨hst, ht⟩ := h
      refine hg.mpr ⟨?_, ht⟩
      rw [← hf]
      by_contra hn
      have hcl := hbelow (Nat.lt_of_not_le hn)
      rw [hcl] at hst
      cases hst
  case reopens =>
    rintro rfl
    have hn : n ≤ failures + 1 := by
      by_contra hn
      cases hbelow (by omega)
    simp [CircuitBreaker.record, hn]
  case closes => rfl

/-- Over every run of guards and records in time order the state, the counter and the
time of opening say what was recorded. -/
theorem breaker_tracks {name : String} {n d : Nat} (hn : 0 < n) {es : List BreakerStep}
    (hes : (es.map (·.now)).Pairwise (· ≤ ·)) {now : Nat} (hnow : ∀ e ∈ es, e.now ≤ now) :
    ((CircuitBreaker.mk name n d 0 .closed none).run es).Tracks es now := by
  have h₀ : ∀ t, (CircuitBreaker.mk name n d 0 .closed none).Inv name n d [] t := by
    intro t
    exact ⟨rfl, rfl, rfl, rfl, fun _ => rfl, fun hle => absurd hle (Nat.not_le_of_lt hn)⟩
  exact (CircuitBreaker.run_inv hn h₀ hes hnow).tracks

/-- The first call succeeds once the other two have opened the breaker. -/
theorem breaker_tracks_late_success :
    ((CircuitBreaker.mk "openai" 2 30000 0 .closed none).run
      [⟨0, 0, .guard⟩, ⟨1, 1, .guard⟩, ⟨2, 2, .guard⟩, ⟨3, 1, .record false⟩, ⟨4, 2, .record false⟩,
        ⟨5, 0, .record true⟩]).Tracks
      [⟨0, 0, .guard⟩, ⟨1, 1, .guard⟩, ⟨2, 2, .guard⟩, ⟨3, 1, .record false⟩, ⟨4, 2, .record false⟩,
        ⟨5, 0, .record true⟩] 6 :=
  breaker_tracks (by decide) (by decide) (by decide)

/-! ## The gauge -/

/-- A step that is not a success recorded while open reports the state it leads to,
or leaves the state as it was. -/
theorem CircuitBreaker.transition_apply (b : CircuitBreaker) (e : BreakerStep)
    (h : ¬ (e.op = .record true ∧ b.state = .opened)) : (b.transition e).getD b.state = (b.apply e).state := by
  obtain ⟨name, n, d, failures, state, openedAt⟩ := b
  obtain ⟨now, call, op⟩ := e
  cases op with
  | guard =>
    cases state with
    | closed => rfl
    | halfOpen => rfl
    | opened =>
      simp only [CircuitBreaker.transition, CircuitBreaker.apply, CircuitBreaker.guard]
      split <;> rfl
  | record ok =>
    cases ok with
    | true =>
      cases state with
      | closed => rfl
      | halfOpen => rfl
      | opened => exact absurd ⟨rfl, rfl⟩ h
    | false =>
      simp only [CircuitBreaker.transition, CircuitBreaker.apply, CircuitBreaker.record, Bool.false_eq_true, if_false]
      by_cases hn : n ≤ failures + 1
      · cases state <;> simp [hn]
      · simp [hn]

theorem CircuitBreaker.transition_late_success (b : CircuitBreaker) {e : BreakerStep} (hop : e.op = .record true)
    (hst : b.state = .opened) : b.transition e = none ∧ (b.apply e).state = .closed := by
  simp [CircuitBreaker.transition, CircuitBreaker.apply, CircuitBreaker.record, hop, hst]

/-- The gauge shows the state after every step, from what it shows now. -/
def CircuitBreaker.GaugeTrue (b : CircuitBreaker) (shown : BreakerState) (es : List BreakerStep) : Prop :=
  ∀ pre, pre <+: es → b.gauge shown pre = (b.run pre).state

def CircuitBreaker.NoLateSuccess (b : CircuitBreaker) (es : List BreakerStep) : Prop :=
  ∀ pre e, pre ++ [e] <+: es → e.op = .record true → (b.run pre).state ≠ .opened

theorem CircuitBreaker.gauge_snoc (b : CircuitBreaker) (shown : BreakerState) (pre : List BreakerStep)
    (e : BreakerStep) : b.gauge shown (pre ++ [e]) = ((b.run pre).transition e).getD (b.gauge shown pre) := by
  induction pre generalizing b shown with
  | nil => rfl
  | cons a pre ih => exact ih (b.apply a) ((b.transition a).getD shown)

/-- The gauge tells the truth over a run exactly when no call records a success
while the breaker is open. -/
theorem gauge_true_iff (name : String) (profile : Profile) (es : List BreakerStep) :
    (CircuitBreaker.new name profile).GaugeTrue .closed es ↔
      (CircuitBreaker.new name profile).NoLateSuccess es := by
  constructor
  · intro hg pre e hpre hop hst
    have hbefore := hg pre ((List.prefix_append pre [e]).trans hpre)
    have hafter := hg (pre ++ [e]) hpre
    obtain ⟨hnone, hclosed⟩ := ((CircuitBreaker.new name profile).run pre).transition_late_success hop hst
    rw [CircuitBreaker.gauge_snoc, hnone, Option.getD_none, hbefore, hst, CircuitBreaker.run, List.foldl_append] at hafter
    have : BreakerState.opened = .closed := hafter.trans hclosed
    cases this
  · intro hlate pre
    induction pre using List.reverseRecOn with
    | nil => exact fun _ => rfl
    | append_singleton pre e ih =>
      intro hpre
      rw [CircuitBreaker.gauge_snoc, ih ((List.prefix_append pre [e]).trans hpre),
        CircuitBreaker.transition_apply _ e fun h => hlate pre e hpre h.1 h.2, CircuitBreaker.run, CircuitBreaker.run,
        List.foldl_append]
      rfl

/-- Six calls pass the guard, five of them fail, and the sixth then succeeds: the breaker
is closed and the gauge shows it open. -/
theorem gauge_false_after_late_success :
    (CircuitBreaker.new "openai" .default).OfCalls [] []
      ((List.range 6).map (⟨0, ·, .guard⟩) ++ (List.range 5).map (⟨1, ·, .record false⟩) ++ [⟨2, 5, .record true⟩]) ∧
    ¬ (CircuitBreaker.new "openai" .default).GaugeTrue .closed
      ((List.range 6).map (⟨0, ·, .guard⟩) ++ (List.range 5).map (⟨1, ·, .record false⟩) ++ [⟨2, 5, .record true⟩]) := by
  refine ⟨by simp [CircuitBreaker.OfCalls, CircuitBreaker.apply, CircuitBreaker.guard,
    CircuitBreaker.new, Profile.policy, List.range_succ], ?_⟩
  intro h
  have := h _ (List.prefix_refl _)
  revert this
  decide

end SynapseGateway
