/-!
# Runs with a trace

A run gives a result or fails, and leaves the events it caused on the way. What
follows a failure does not happen.
-/

structure Trace (ε σ α : Type) where
  result : Except σ α
  events : List ε

namespace Trace

variable {ε σ α β : Type}

def emit (e : ε) : Trace ε σ Unit := ⟨.ok (), [e]⟩

def lift (r : Except σ α) : Trace ε σ α := ⟨r, []⟩

def fail (e : σ) : Trace ε σ α := ⟨.error e, []⟩

def bind (x : Trace ε σ α) (f : α → Trace ε σ β) : Trace ε σ β :=
  match x.result with
  | .ok a => ⟨(f a).result, x.events ++ (f a).events⟩
  | .error e => ⟨.error e, x.events⟩

instance : Monad (Trace ε σ) where
  pure a := ⟨.ok a, []⟩
  bind := bind

@[simp] theorem pure_bind (a : α) (f : α → Trace ε σ β) : (pure a : Trace ε σ α) >>= f = f a := rfl

@[simp] theorem lift_bind_ok (a : α) (f : α → Trace ε σ β) : (lift (.ok a) : Trace ε σ α) >>= f = f a := rfl

@[simp] theorem lift_bind_error (e : σ) (f : α → Trace ε σ β) :
    (lift (.error e) : Trace ε σ α) >>= f = fail e := rfl

@[simp] theorem emit_bind (e : ε) (f : Unit → Trace ε σ β) :
    (emit e : Trace ε σ Unit) >>= f = ⟨(f ()).result, e :: (f ()).events⟩ := rfl

theorem bind_of_ok {x : Trace ε σ α} {a : α} (h : x.result = .ok a) (f : α → Trace ε σ β) :
    x >>= f = ⟨(f a).result, x.events ++ (f a).events⟩ := by
  show bind x f = _
  unfold bind
  rw [h]

theorem bind_of_error {x : Trace ε σ α} {e : σ} (h : x.result = .error e) (f : α → Trace ε σ β) :
    x >>= f = ⟨.error e, x.events⟩ := by
  show bind x f = _
  unfold bind
  rw [h]

theorem bind_pure (x : Trace ε σ α) (f : α → β) : (x >>= fun a => pure (f a)) = ⟨x.result.map f, x.events⟩ := by
  cases h : x.result with
  | error e => exact bind_of_error h _
  | ok a =>
    rw [bind_of_ok h]
    exact congrArg (Trace.mk _) (List.append_nil _)

theorem of_bind_ok {x : Trace ε σ α} {f : α → Trace ε σ β} {b : β} (h : (x >>= f).result = .ok b) :
    ∃ a, x.result = .ok a ∧ (f a).result = .ok b ∧ (x >>= f).events = x.events ++ (f a).events := by
  cases hx : x.result with
  | error e =>
    rw [bind_of_error hx] at h
    cases h
  | ok a =>
    rw [bind_of_ok hx] at h ⊢
    exact ⟨a, rfl, h, rfl⟩

/-- What a failure is followed by. -/
def recover (x : Trace ε σ α) (f : σ → Trace ε σ α) : Trace ε σ α :=
  match x.result with
  | .ok _ => x
  | .error e => ⟨(f e).result, x.events ++ (f e).events⟩

theorem recover_of_ok {x : Trace ε σ α} {a : α} (h : x.result = .ok a) (f : σ → Trace ε σ α) : x.recover f = x := by
  unfold recover
  rw [h]

theorem recover_of_error {x : Trace ε σ α} {e : σ} (h : x.result = .error e) (f : σ → Trace ε σ α) :
    x.recover f = ⟨(f e).result, x.events ++ (f e).events⟩ := by
  unfold recover
  rw [h]

/-! ## What the events are -/

/-- Every event of the run is one of `p`. -/
def Emits (p : ε → Prop) (x : Trace ε σ α) : Prop := ∀ ev ∈ x.events, p ev

theorem Emits.bind {p : ε → Prop} {x : Trace ε σ α} {f : α → Trace ε σ β} (hx : x.Emits p)
    (hf : ∀ a, x.result = .ok a → (f a).Emits p) : (x >>= f).Emits p := by
  cases h : x.result with
  | error e =>
    rw [bind_of_error h]
    exact hx
  | ok a =>
    rw [bind_of_ok h]
    intro ev hev
    rcases List.mem_append.mp hev with hev | hev
    · exact hx ev hev
    · exact hf a h ev hev

/-- A run that fails does so in one of its parts. -/
theorem emits_bind_of_error {p : ε → Prop} {x : Trace ε σ α} {f : α → Trace ε σ β} {e : σ} (hx : x.Emits p)
    (hf : ∀ a, x.result = .ok a → (f a).result = .error e → (f a).Emits p) (h : (x >>= f).result = .error e) :
    (x >>= f).Emits p := by
  refine hx.bind fun a ha => hf a ha ?_
  rw [bind_of_ok ha] at h
  exact h

theorem Emits.mono {p q : ε → Prop} {x : Trace ε σ α} (h : x.Emits p) (hpq : ∀ ev, p ev → q ev) : x.Emits q :=
  fun ev hev => hpq ev (h ev hev)

theorem emits_lift (p : ε → Prop) (r : Except σ α) : (lift r : Trace ε σ α).Emits p := fun _ h => by cases h

theorem emits_pure (p : ε → Prop) (a : α) : (pure a : Trace ε σ α).Emits p := fun _ h => by cases h

theorem emits_fail (p : ε → Prop) (e : σ) : (fail e : Trace ε σ α).Emits p := fun _ h => by cases h

/-- The events come in stages from `lo` on and before `hi`: one of each at most,
but for those of the stage `top`. -/
structure Staged (stage : ε → Nat) (top lo hi : Nat) (x : Trace ε σ α) : Prop where
  ordered : x.events.Pairwise fun a b => stage a < stage b ∨ stage a = top ∧ stage b = top
  bounds : x.Emits fun ev => lo ≤ stage ev ∧ stage ev < hi

theorem Staged.bind {stage : ε → Nat} {top lo mid hi : Nat} {x : Trace ε σ α} {f : α → Trace ε σ β}
    (hx : x.Staged stage top lo mid) (hf : ∀ a, x.result = .ok a → (f a).Staged stage top mid hi) (hlo : lo ≤ mid)
    (hhi : mid ≤ hi) : (x >>= f).Staged stage top lo hi := by
  have hbounds : (x >>= f).Emits fun ev => lo ≤ stage ev ∧ stage ev < hi :=
    (hx.bounds.mono fun ev h => ⟨h.1, by omega⟩).bind fun a ha => (hf a ha).bounds.mono fun ev h => ⟨by omega, h.2⟩
  refine ⟨?_, hbounds⟩
  cases h : x.result with
  | error e =>
    rw [bind_of_error h]
    exact hx.ordered
  | ok a =>
    rw [bind_of_ok h]
    refine List.pairwise_append.mpr ⟨hx.ordered, (hf a h).ordered, fun ev hev ev' hev' => .inl ?_⟩
    have := (hx.bounds ev hev).2
    have := ((hf a h).bounds ev' hev').1
    omega

/-- The run fails and none of its events is one of `p`. -/
def Refuses (p : ε → Prop) (x : Trace ε σ α) : Prop := (∃ e, x.result = .error e) ∧ ∀ ev ∈ x.events, ¬ p ev

theorem Refuses.bind {p : ε → Prop} {x : Trace ε σ α} (h : x.Refuses p) (f : α → Trace ε σ β) : (x >>= f).Refuses p := by
  obtain ⟨⟨e, he⟩, hev⟩ := h
  rw [bind_of_error he]
  exact ⟨⟨e, rfl⟩, hev⟩

theorem refuses_fail (p : ε → Prop) (e : σ) : (fail e : Trace ε σ α).Refuses p :=
  ⟨⟨e, rfl⟩, fun ev hev => by cases hev⟩

theorem not_refuses_of_mem {p : ε → Prop} {x : Trace ε σ α} {ev : ε} (hev : ev ∈ x.events) (hp : p ev)
    (f : α → Trace ε σ β) : ¬ (x >>= f).Refuses p := by
  intro h
  refine h.2 ev ?_ hp
  show ev ∈ (Trace.bind x f).events
  unfold Trace.bind
  split
  · exact List.mem_append_left _ hev
  · exact hev

theorem refuses_bind_ok {p : ε → Prop} {x : Trace ε σ α} {a : α} (h : x.result = .ok a)
    (hev : ∀ ev ∈ x.events, ¬ p ev) (f : α → Trace ε σ β) : (x >>= f).Refuses p ↔ (f a).Refuses p := by
  rw [bind_of_ok h]
  refine and_congr Iff.rfl ⟨fun hall ev hm => hall ev (List.mem_append_right _ hm), fun hall ev hm => ?_⟩
  rcases List.mem_append.mp hm with hm | hm
  · exact hev ev hm
  · exact hall ev hm

end Trace
