import Mathlib.Data.List.Nodup

/-!
# Groups laid out in an order of their keys

A list made of one group for each key, the groups in the order of the keys.
-/

namespace Grouped

variable {κ α : Type} {keys : List κ} {group : κ → List α} {key : α → κ}

theorem filter_group_eq [DecidableEq κ] (hkey : ∀ k, ∀ a ∈ group k, key a = k) (k j : κ) :
    (group j).filter (fun a => decide (key a = k)) = if j = k then group j else [] := by
  by_cases h : j = k
  · rw [if_pos h, List.filter_eq_self]
    intro a ha
    exact decide_eq_true (h ▸ hkey j a ha)
  · rw [if_neg h, List.filter_eq_nil_iff]
    intro a ha hk
    exact h ((hkey j a ha).symm.trans (of_decide_eq_true hk))

/-- What has a key is its group, where the keys are without repetition. -/
theorem filter_flatMap [DecidableEq κ] (hnodup : keys.Nodup) (hkey : ∀ k, ∀ a ∈ group k, key a = k) (k : κ) :
    (keys.flatMap group).filter (fun a => decide (key a = k)) = if k ∈ keys then group k else [] := by
  induction keys with
  | nil => simp
  | cons j keys ih =>
    rw [List.nodup_cons] at hnodup
    rw [List.flatMap_cons, List.filter_append, ih hnodup.2, filter_group_eq hkey]
    by_cases hj : j = k
    · subst hj
      simp [hnodup.1]
    · simp [hj, Ne.symm hj]

/-- The groups follow one another as their keys do. -/
theorem pairwise_flatMap {R : κ → κ → Prop} (hkeys : keys.Pairwise R) (hkey : ∀ k, ∀ a ∈ group k, key a = k) :
    (keys.flatMap group).Pairwise fun a b => key a = key b ∨ R (key a) (key b) := by
  rw [List.pairwise_flatMap]
  constructor
  · intro k _
    exact List.pairwise_of_forall_mem_list fun a ha b hb => .inl ((hkey k a ha).trans (hkey k b hb).symm)
  · apply hkeys.imp
    intro j k hjk a ha b hb
    rw [hkey j a ha, hkey k b hb]
    exact .inr hjk

theorem head?_flatMap_cons {k : κ} (keys : List κ) (h : group k ≠ []) :
    ((k :: keys).flatMap group).head? = (group k).head? := by
  rw [List.flatMap_cons, List.head?_append_of_ne_nil _ h]

end Grouped
