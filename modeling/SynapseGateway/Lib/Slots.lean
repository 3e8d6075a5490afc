import Mathlib.Data.List.Basic

/-!
# Slots

The parties of a system as a list: one is replaced in place, a new one comes last.
-/

namespace Slots

variable {α : Type} {l : List α} {c d : Nat} {old new x : α}

theorem getElem?_set (hc : l[c]? = some old) (new : α) (d : Nat) :
    (l.set c new)[d]? = if d = c then some new else l[d]? := by
  have hlt : c < l.length := (List.getElem?_eq_some_iff.mp hc).1
  by_cases hd : c = d
  · subst hd
    rw [List.getElem?_set_self hlt, if_pos rfl]
  · rw [List.getElem?_set_ne hd, if_neg (Ne.symm hd)]

theorem map_set {β : Type} {f : α → β} (hc : l[c]? = some old) (hf : f new = f old) : (l.set c new).map f = l.map f := by
  apply List.ext_getElem?
  intro d
  rw [List.getElem?_map, List.getElem?_map, getElem?_set hc]
  by_cases hd : d = c
  · rw [if_pos hd, hd, hc]
    exact congrArg some hf
  · rw [if_neg hd]

theorem set_self (hc : l[c]? = some old) (new : α) : (l.set c new)[c]? = some new :=
  List.getElem?_set_self (List.getElem?_eq_some_iff.mp hc).1

theorem of_set (h : (l.set c new)[d]? = some x) : (d = c ∧ x = new) ∨ (d ≠ c ∧ l[d]? = some x) := by
  rw [List.getElem?_set] at h
  by_cases hd : c = d
  · rw [if_pos hd] at h
    split at h
    · cases h
      exact .inl ⟨hd.symm, rfl⟩
    · cases h
  · rw [if_neg hd] at h
    exact .inr ⟨Ne.symm hd, h⟩

theorem of_concat (h : (l ++ [new])[d]? = some x) : (d = l.length ∧ x = new) ∨ l[d]? = some x := by
  rcases Nat.lt_or_ge d l.length with hlt | hge
  · rw [List.getElem?_append_left hlt] at h
    exact .inr h
  · rw [List.getElem?_append_right hge, List.getElem?_singleton] at h
    by_cases hzero : d - l.length = 0
    · rw [if_pos hzero] at h
      cases h
      exact .inl ⟨by omega, rfl⟩
    · rw [if_neg hzero] at h
      cases h

theorem concat_old (hc : l[c]? = some x) (new : α) : (l ++ [new])[c]? = some x := by
  rw [List.getElem?_append_left (List.getElem?_eq_some_iff.mp hc).1]
  exact hc

/-- What a slot has and its replacement keeps, the slot has after. -/
theorem keeps_set {p : α → Prop} (hc : l[c]? = some old) (hnew : p old → p new) (h : ∃ x, l[d]? = some x ∧ p x) :
    ∃ x, (l.set c new)[d]? = some x ∧ p x := by
  obtain ⟨x, hd, hx⟩ := h
  rw [getElem?_set hc]
  by_cases hdc : d = c
  · subst hdc
    obtain rfl := Option.some.inj (hc.symm.trans hd)
    exact ⟨new, if_pos rfl, hnew hx⟩
  · rw [if_neg hdc]
    exact ⟨x, hd, hx⟩

end Slots
