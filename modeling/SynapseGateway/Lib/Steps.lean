import Mathlib.Data.List.Induction

/-!
# Runs of a step relation

A run remembers the steps it took, each with the states before and after. What
every step preserves holds after every run.
-/

namespace Steps

variable {σ α : Type}

structure Taken (σ α : Type) where
  before : σ
  action : α
  after : σ

inductive Run (step : σ → α → σ → Prop) (s : σ) : List (Taken σ α) → σ → Prop where
  | nil : Run step s [] s
  | snoc {tr t a u} : Run step s tr t → step t a u → Run step s (tr ++ [⟨t, a, u⟩]) u

namespace Run

variable {step : σ → α → σ → Prop} {s t : σ} {tr : List (Taken σ α)}

theorem inv {p : σ → Prop} (h0 : p s) (hstep : ∀ t a u, p t → step t a u → p u) (h : Run step s tr t) : p t := by
  induction h with
  | nil => exact h0
  | snoc _ ha ih => exact hstep _ _ _ ih ha

/-- A step of a run comes after a run and before a run. -/
theorem split (h : Run step s tr t) {x : Taken σ α} (hx : x ∈ tr) :
    step x.before x.action x.after ∧ (∃ tr₁, Run step s tr₁ x.before) ∧ ∃ tr₂, Run step x.after tr₂ t := by
  induction h with
  | nil => cases hx
  | snoc hrun ha ih =>
    rcases List.mem_append.mp hx with hx | hx
    · obtain ⟨hstep, hbefore, tr₂, hafter⟩ := ih hx
      exact ⟨hstep, hbefore, _, .snoc hafter ha⟩
    · obtain rfl := List.mem_singleton.mp hx
      exact ⟨ha, ⟨_, hrun⟩, [], .nil⟩

/-- What holds of the start and is preserved holds before and after every step. -/
theorem inv_taken {p : σ → Prop} (h0 : p s) (hstep : ∀ t a u, p t → step t a u → p u) (h : Run step s tr t)
    {x : Taken σ α} (hx : x ∈ tr) : p x.before ∧ p x.after := by
  obtain ⟨ha, ⟨_, hbefore⟩, -⟩ := h.split hx
  have hb := hbefore.inv h0 hstep
  exact ⟨hb, hstep _ _ _ hb ha⟩

end Run

/-! ## A step function that may get stuck -/

section
variable {step : σ → α → Option σ} {s t : σ}

theorem foldlM_snoc {evs : List α} {ev : α} (h : (evs ++ [ev]).foldlM step s = some t) :
    ∃ u, evs.foldlM step s = some u ∧ step u ev = some t := by
  rw [List.foldlM_append] at h
  obtain ⟨u, hu, hlast⟩ := Option.bind_eq_some_iff.mp h
  refine ⟨u, hu, ?_⟩
  rw [List.foldlM_cons] at hlast
  obtain ⟨v, hv, hnil⟩ := Option.bind_eq_some_iff.mp hlast
  cases hnil
  exact hv

/-- What the start has and every step keeps, with the steps so far, a run has at its end. -/
theorem foldlM_inv {p : List α → σ → Prop} (h0 : p [] s)
    (hstep : ∀ evs u ev v, p evs u → step u ev = some v → p (evs ++ [ev]) v) :
    ∀ (evs : List α) (t : σ), evs.foldlM step s = some t → p evs t := by
  intro evs
  induction evs using List.reverseRecOn with
  | nil =>
    intro t h
    cases h
    exact h0
  | append_singleton evs ev ih =>
    intro t h
    obtain ⟨u, hu, hlast⟩ := foldlM_snoc h
    exact hstep evs u ev t (ih u hu) hlast

end

end Steps
