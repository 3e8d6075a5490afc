import SynapseGateway.BufferedLeg

/-!
# When the breaker rejects

The breaker counts failures since the last first chunk, not since the last leg
that succeeded. Over every run it rejects the next leg exactly when that count
has reached the threshold and the last failure is recent.
-/

namespace SynapseGateway

def failuresSince (m : Mark) (h : History) : Nat := (h.takeWhile (·.2 != m)).countP (·.2 == .failure)

def lastFailure (h : History) : Option Nat := (h.find? (·.2 == .failure)).map (·.1)

@[simp] theorem failuresSince_failure (now : Nat) {m : Mark} (hm : m ≠ .failure) (h : History) :
    failuresSince m ((now, .failure) :: h) = failuresSince m h + 1 := by
  have : (Mark.failure != m) = true := by simpa using fun e => hm e.symm
  simp [failuresSince, this]

@[simp] theorem failuresSince_self (now : Nat) (m : Mark) (h : History) : failuresSince m ((now, m) :: h) = 0 := by
  simp [failuresSince]

@[simp] theorem failuresSince_success (now : Nat) (h : History) :
    failuresSince .firstChunk ((now, .success) :: h) = failuresSince .firstChunk h := by
  simp [failuresSince]

@[simp] theorem lastFailure_failure (now : Nat) (h : History) : lastFailure ((now, .failure) :: h) = some now := rfl

@[simp] theorem lastFailure_firstChunk (now : Nat) (h : History) :
    lastFailure ((now, .firstChunk) :: h) = lastFailure h := rfl

@[simp] theorem lastFailure_success (now : Nat) (h : History) :
    lastFailure ((now, .success) :: h) = lastFailure h := rfl

/-- The breaker after the history `h`, at time `now`. -/
structure CircuitBreaker.Inv (name : String) (n d : Nat) (b : CircuitBreaker) (h : History) (now : Nat) : Prop where
  name : b.name = name
  threshold : b.threshold = n
  openFor : b.openFor = d
  failures : b.consecutiveFailures = failuresSince .firstChunk h
  below : b.consecutiveFailures < n → b.state = .closed
  above : n ≤ b.consecutiveFailures → ∃ t, lastFailure h = some t ∧ b.openedAt = some t ∧ t ≤ now ∧
    (b.state = .opened ∨ b.state = .halfOpen ∧ t + d ≤ now)

section
variable {name : String} {n d : Nat} {b : CircuitBreaker} {h : History} {now now' : Nat}

theorem CircuitBreaker.Inv.later (hi : b.Inv name n d h now) (hle : now ≤ now') : b.Inv name n d h now' := by
  refine { hi with above := ?_ }
  intro hn
  obtain ⟨t, h1, h2, h3, h4⟩ := hi.above hn
  refine ⟨t, h1, h2, Nat.le_trans h3 hle, h4.imp id fun h4 => ⟨h4.1, Nat.le_trans h4.2 hle⟩⟩

theorem CircuitBreaker.Inv.guard (hi : b.Inv name n d h now) :
    (b.guard now).2.Inv name n d h now ∧
      ((b.guard now).1 = false ↔ n ≤ failuresSince .firstChunk h ∧ ∃ t, lastFailure h = some t ∧ now < t + d) := by
  obtain ⟨name, n, d, failures, state, openedAt⟩ := b
  obtain ⟨rfl, rfl, rfl, hf, hbelow, habove⟩ := hi
  simp only at hf hbelow habove ⊢
  subst hf
  by_cases hn : n ≤ failuresSince .firstChunk h
  · obtain ⟨t, h1, rfl, h3, h4⟩ := habove hn
    have hiff : (∃ u, lastFailure h = some u ∧ now < u + d) ↔ now < t + d := by
      rw [h1]
      simp
    rw [hiff]
    rcases h4 with rfl | ⟨rfl, h5⟩
    · simp only [CircuitBreaker.guard, Option.getD_some]
      split
      · refine ⟨⟨rfl, rfl, rfl, rfl, fun hb => absurd hb (Nat.not_lt_of_le hn),
          fun _ => ⟨t, h1, rfl, h3, .inr ⟨rfl, by omega⟩⟩⟩, ?_⟩
        simp only [Bool.true_eq_false, false_iff]
        omega
      · refine ⟨⟨rfl, rfl, rfl, rfl, hbelow, habove⟩, ?_⟩
        simp only [true_iff]
        omega
    · refine ⟨⟨rfl, rfl, rfl, rfl, hbelow, habove⟩, ?_⟩
      simp only [CircuitBreaker.guard, Bool.true_eq_false, false_iff]
      omega
  · have hc := hbelow (by omega)
    subst hc
    refine ⟨⟨rfl, rfl, rfl, rfl, hbelow, habove⟩, ?_⟩
    simp only [CircuitBreaker.guard, Bool.true_eq_false, false_iff]
    exact fun hx => hn hx.1

theorem CircuitBreaker.Inv.firstChunk (hi : b.Inv name n d h now) (hn : 0 < n) :
    (b.record true now).Inv name n d ((now, .firstChunk) :: h) now :=
  { name := hi.name
    threshold := hi.threshold
    openFor := hi.openFor
    failures := by simp [CircuitBreaker.record]
    below := fun _ => rfl
    above := fun hle => absurd hle (Nat.not_le_of_gt hn) }

theorem CircuitBreaker.Inv.failure (hi : b.Inv name n d h now) :
    (b.record false now).Inv name n d ((now, .failure) :: h) now := by
  obtain ⟨name, n, d, failures, state, openedAt⟩ := b
  obtain ⟨rfl, rfl, rfl, hf, hbelow, -⟩ := hi
  simp only at hf hbelow
  simp only [CircuitBreaker.record, Bool.false_eq_true, if_false]
  split
  · exact ⟨rfl, rfl, rfl, by simp [hf], fun hb => absurd hb (by simp only; omega),
      fun _ => ⟨now, rfl, rfl, Nat.le_refl _, .inl rfl⟩⟩
  · exact ⟨rfl, rfl, rfl, by simp [hf], fun _ => hbelow (by omega), fun hle => absurd hle (by simp only; omega)⟩

theorem CircuitBreaker.Inv.success (hi : b.Inv name n d h now) : b.Inv name n d ((now, .success) :: h) now := by
  refine { hi with failures := by simp [hi.failures], above := ?_ }
  intro hn
  simpa using hi.above hn

/-! ## Legs and runs -/

/-- What a step of a leg does to its provider: nothing, the guard, or a record
with the mark that goes with it. -/
theorem legStep_cases {model : String} {p p' : Provider} {l : Option Leg} {ev : LegEvent} {leg : Leg}
    {mark : Option Mark} (hstep : legStep model p now l ev = some (p', leg, mark)) :
    (mark = none ∧ (p' = p ∨ p' = { p with breaker := (p.breaker.guard now).2 })) ∨
    (mark = some .success ∧ p' = p) ∨
    (mark = some .firstChunk ∧ p' = { p with breaker := p.breaker.record true now }) ∨
    (mark = some .failure ∧ p' = { p with breaker := p.breaker.record false now }) := by
  unfold legStep at hstep
  split at hstep
  · split at hstep
    · rename_i b hg
      cases hstep
      exact .inl ⟨rfl, .inr (by rw [hg])⟩
    · rename_i b hg
      cases hstep
      exact .inl ⟨rfl, .inr (by rw [hg])⟩
  · split at hstep
    · cases hstep
      exact .inr (.inr (.inl ⟨rfl, rfl⟩))
    · split at hstep
      · cases hstep
        exact .inl ⟨rfl, .inl rfl⟩
      · cases hstep
        exact .inr (.inr (.inr ⟨rfl, rfl⟩))
  · split at hstep
    · cases hstep
      exact .inl ⟨rfl, .inl rfl⟩
    · cases hstep
      exact .inr (.inl ⟨rfl, rfl⟩)
    · cases hstep
      exact .inr (.inr (.inr ⟨rfl, rfl⟩))
  · cases hstep

theorem step_inv {s s' : LegSystem} {e : LegStep} {mark : Option Mark} (hn : 0 < n)
    (hi : s.provider.breaker.Inv name n d h now) (hle : now ≤ e.now) (hstep : s.step e = some (s', mark)) :
    s'.provider.breaker.Inv name n d (mark.toList.map (fun m => (e.now, m)) ++ h) e.now := by
  unfold LegSystem.step at hstep
  rw [Option.map_eq_some_iff] at hstep
  obtain ⟨⟨p', leg, m⟩, hleg, heq⟩ := hstep
  cases heq
  have hi' := hi.later hle
  rcases legStep_cases hleg with ⟨rfl, rfl | rfl⟩ | ⟨rfl, rfl⟩ | ⟨rfl, rfl⟩ | ⟨rfl, rfl⟩
  · exact hi'
  · exact hi'.guard.1
  · exact hi'.success
  · exact hi'.firstChunk hn
  · exact hi'.failure

def Timed : Nat → List LegStep → Prop
  | _, [] => True
  | now, e :: es => now ≤ e.now ∧ Timed e.now es

instance decidableTimed : ∀ (now : Nat) (es : List LegStep), Decidable (Timed now es)
  | _, [] => isTrue trivial
  | now, e :: es =>
    have := decidableTimed e.now es
    inferInstanceAs (Decidable (now ≤ e.now ∧ Timed e.now es))

def lastTime : Nat → List LegStep → Nat
  | now, [] => now
  | _, e :: es => lastTime e.now es

theorem run_inv (hn : 0 < n) {es : List LegStep} {s s' : LegSystem} {h h' : History} {k : Nat}
    (hi : s.provider.breaker.Inv name n d h k) (ht : Timed k es) (hrun : s.run h es = some (s', h')) :
    s'.provider.breaker.Inv name n d h' (lastTime k es) := by
  induction es generalizing s h k with
  | nil => cases hrun; exact hi
  | cons e es ih =>
    obtain ⟨hle, ht⟩ := ht
    rw [LegSystem.run] at hrun
    cases hstep : s.step e with
    | none => rw [hstep] at hrun; cases hrun
    | some r =>
      obtain ⟨s₁, mark⟩ := r
      rw [hstep] at hrun
      exact ih (step_inv hn hi hle hstep) ht hrun

end

/-! ## The next leg -/

def LegSystem.fresh (models : Nat → String) (name : String) (n d maxAttempts : Nat) : LegSystem :=
  ⟨⟨name, { name := name, threshold := n, openFor := d }, maxAttempts⟩, models, fun _ => none⟩

/-- A leg called at `now` returns at once with `CircuitOpen`, and without an
attempt on the upstream. -/
def LegSystem.Rejects (s : LegSystem) (now id : Nat) : Prop :=
  ∃ s', s.step ⟨now, id, .call⟩ = some (s', none) ∧
    s'.legs id = some (.returned (.error (.circuitOpen s.provider.breaker.name)))

/-- `n` or more failed legs with no success among them, the last of them less
than `d` before `now`. -/
def Sustained (n d now : Nat) (h : History) : Prop :=
  n ≤ failuresSince .success h ∧ ∃ t, lastFailure h = some t ∧ now < t + d

/-- After sustained failure the next leg is rejected exactly when `n` of the
failures came after the last first chunk. -/
theorem rejects_iff_start_failures {models : Nat → String} {name : String} {n d maxAttempts : Nat} (hn : 1 < n)
    {es : List LegStep} {s : LegSystem} {h : History}
    (hrun : (LegSystem.fresh models name n d maxAttempts).run [] es = some (s, h))
    (ht : Timed 0 es) {now : Nat} (hnow : lastTime 0 es ≤ now) (hs : Sustained n d now h) {id : Nat}
    (hid : s.legs id = none) : s.Rejects now id ↔ n ≤ failuresSince .firstChunk h := by
  have h₀ : (LegSystem.fresh models name n d maxAttempts).provider.breaker.Inv name n d [] 0 :=
    ⟨rfl, rfl, rfl, rfl, fun _ => rfl, fun hle => absurd hle (by show ¬ n ≤ 0; omega)⟩
  have hi := (run_inv (by omega) h₀ ht hrun).later hnow
  have hg := hi.guard.2
  have hname : (s.provider.breaker.guard now).2.name = s.provider.breaker.name := by
    rw [hi.guard.1.name, hi.name]
  have hstep : s.Rejects now id ↔ (s.provider.breaker.guard now).1 = false := by
    unfold LegSystem.Rejects LegSystem.step legStep
    rw [hid]
    cases hb : s.provider.breaker.guard now with
    | mk ok b =>
      rw [hb] at hname
      cases ok <;> simp [← hname]
  rw [hstep, hg]
  exact ⟨fun hx => hx.1, fun hx => ⟨hx, hs.2⟩⟩

def lateFailure (t id : Nat) : List LegStep := [
  ⟨t, id, .call⟩,
  ⟨t + 1, id, .attempt (.ok (.delta "hi".toList))⟩,
  ⟨t + 2, id, .chunk (.item (.error (.midStream "connection reset")))⟩]

def startFailure (t id : Nat) : List LegStep := [
  ⟨t, id, .call⟩,
  ⟨t + 1, id, .attempt (.error .emptyStream)⟩]

/-- Two models of the provider, taken in turns. -/
def twoModels (id : Nat) : String := if id % 2 = 0 then "gpt-4o" else "gpt-4o-mini"

theorem rejects_after_start_failures : ∃ s h,
    (LegSystem.fresh twoModels "openai" 5 30000 3).run []
      ((List.range 5).flatMap fun i => startFailure (10 * i) i) = some (s, h) ∧
    (s.Rejects 50 5 ↔ 5 ≤ failuresSince .firstChunk h) := by
  obtain ⟨⟨s, h⟩, hrun⟩ := Option.isSome_iff_exists.mp (show ((LegSystem.fresh twoModels "openai" 5 30000 3).run []
    ((List.range 5).flatMap fun i => startFailure (10 * i) i)).isSome = true by decide)
  have hh : ((LegSystem.fresh twoModels "openai" 5 30000 3).run []
      ((List.range 5).flatMap fun i => startFailure (10 * i) i)).map (fun r => (r.2, r.1.legs 5)) =
    some ([41, 31, 21, 11, 1].map fun t => (t, Mark.failure), none) := by decide
  rw [hrun] at hh
  obtain ⟨rfl, hid⟩ := Prod.mk.inj (Option.some.inj hh)
  exact ⟨s, _, hrun, rejects_iff_start_failures (by decide) hrun (by decide) (by decide)
    ⟨by decide, 41, rfl, by decide⟩ hid⟩

/-- Five legs in a row fail mid-stream under the default profile, and the next
leg is not rejected. -/
theorem not_rejected_after_late_failures : ∃ s h,
    (LegSystem.mk ⟨"openai", .new "openai" .default, 3⟩ twoModels fun _ => none).run []
      ((List.range 5).flatMap fun i => lateFailure (10 * i) i) = some (s, h) ∧
    Sustained (CircuitBreaker.new "openai" .default).threshold (CircuitBreaker.new "openai" .default).openFor 50 h ∧
    s.legs 5 = none ∧ ¬ s.Rejects 50 5 := by
  refine ⟨_, _, rfl, ⟨by decide, 42, rfl, by decide⟩, rfl, ?_⟩
  intro h
  obtain ⟨s', hstep, hleg⟩ := h
  cases hstep
  cases hleg

end SynapseGateway
