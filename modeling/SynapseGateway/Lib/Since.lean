import SynapseGateway.Lib.Steps

/-!
# Set and not ended since

A cell of a state, which a step may set or end. After a run it holds what a step
of the run set and no later step ended.
-/

namespace Since

open Steps (Taken Run)

variable {σ α β : Type} {sets ends : Taken σ α → β → Prop} {tr : List (Taken σ α)} {b : β}

def Held (sets ends : Taken σ α → β → Prop) (tr : List (Taken σ α)) (b : β) : Prop :=
  ∃ pre x post, tr = pre ++ x :: post ∧ sets x b ∧ ∀ y ∈ post, ¬ ends y b

theorem not_held_nil : ¬ Held sets ends [] b := by
  rintro ⟨pre, x, post, h, -, -⟩
  simp at h

theorem held_snoc {x : Taken σ α} : Held sets ends (tr ++ [x]) b ↔ sets x b ∨ Held sets ends tr b ∧ ¬ ends x b := by
  constructor
  · rintro ⟨pre, y, post, heq, hset, hkept⟩
    rcases post.eq_nil_or_concat with rfl | ⟨post, z, rfl⟩
    · have hxy := List.append_inj_right' heq rfl
      simp only [List.cons.injEq, and_true] at hxy
      exact .inl (hxy ▸ hset)
    · rw [List.concat_eq_append, ← List.cons_append, ← List.append_assoc] at heq
      obtain ⟨rfl, hxz⟩ := List.append_inj' heq rfl
      simp only [List.cons.injEq, and_true] at hxz
      rw [List.concat_eq_append] at hkept
      refine .inr ⟨⟨pre, y, post, rfl, hset, ?_⟩, ?_⟩
      · exact fun w hw => hkept w (List.mem_append_left _ hw)
      · exact hxz ▸ hkept z (by simp)
  · rintro (hset | ⟨⟨pre, y, post, rfl, hset, hkept⟩, hx⟩)
    · exact ⟨tr, x, [], rfl, hset, fun _ hw => (List.not_mem_nil hw).elim⟩
    · refine ⟨pre, y, post ++ [x], by simp, hset, ?_⟩
      intro w hw
      rcases List.mem_append.mp hw with hw | hw
      · exact hkept w hw
      · exact List.mem_singleton.mp hw ▸ hx

/-- A condition that holds at every step need not be asked for at each. -/
theorem held_while {p : σ → β → Prop} (h : ∀ y ∈ tr, p y.after b) :
    Held (fun x b => sets x b ∧ p x.after b) (fun x b => ends x b ∨ ¬ p x.after b) tr b ↔ Held sets ends tr b := by
  constructor
  · rintro ⟨pre, x, post, rfl, hset, hkept⟩
    exact ⟨pre, x, post, rfl, hset.1, fun y hy he => hkept y hy (.inl he)⟩
  · rintro ⟨pre, x, post, rfl, hset, hkept⟩
    refine ⟨pre, x, post, rfl, ⟨hset, h x (by simp)⟩, ?_⟩
    rintro y hy (he | hp)
    · exact hkept y hy he
    · exact hp (h y (by simp [hy]))

/-- What one step does to the cell. -/
def Governs (step : σ → α → σ → Prop) (cell : σ → Option β) (sets ends : Taken σ α → β → Prop) : Prop :=
  ∀ s a t b, step s a t → (cell t = some b ↔ sets ⟨s, a, t⟩ b ∨ cell s = some b ∧ ¬ ends ⟨s, a, t⟩ b)

section
variable {step : σ → α → σ → Prop} {cell : σ → Option β} {s t : σ}

theorem cell_iff (hstep : Governs step cell sets ends) (h0 : cell s = none) (h : Run step s tr t) (b : β) :
    cell t = some b ↔ Held sets ends tr b := by
  induction h with
  | nil => simp [h0, not_held_nil]
  | snoc _ ha ih => rw [held_snoc, hstep _ _ _ _ ha, ih]

end

end Since
