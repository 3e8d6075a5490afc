import Mathlib.Data.List.Nodup

/-!
# Association lists

A map as the list of its entries. Where each key has one entry, looking a key up
is membership.
-/

namespace Assoc

variable {κ α β : Type} [DecidableEq κ]

theorem mem_of_lookup {l : List (κ × α)} {k : κ} {a : α} (h : l.lookup k = some a) : (k, a) ∈ l := by
  obtain ⟨l₁, l₂, rfl, -⟩ := List.lookup_eq_some_iff.mp h
  simp

theorem lookup_of_mem {l : List (κ × α)} (hl : (l.map (·.1)).Nodup) {k : κ} {a : α} (h : (k, a) ∈ l) :
    l.lookup k = some a := by
  obtain ⟨l₁, l₂, rfl⟩ := List.append_of_mem h
  rw [List.map_append, List.nodup_append] at hl
  refine List.lookup_eq_some_iff.mpr ⟨l₁, l₂, rfl, ?_⟩
  intro p hp
  have := hl.2.2 _ (List.mem_map_of_mem hp) k (by simp)
  simpa using Ne.symm this

theorem lookup_cons (k k' : κ) (a : α) (l : List (κ × α)) :
    ((k', a) :: l).lookup k = if k = k' then some a else l.lookup k := by
  by_cases h : k = k'
  · rw [if_pos h, h, List.lookup_cons_self]
  · rw [if_neg h, List.lookup_cons, beq_false_of_ne h]

theorem lookup_isSome {l : List (κ × α)} {k : κ} : (l.lookup k).isSome = true ↔ k ∈ l.map (·.1) := by
  rw [List.lookup_isSome_iff]
  constructor
  · intro h
    obtain ⟨⟨k', a⟩, hmem, hk⟩ := h
    rw [beq_iff_eq] at hk
    exact List.mem_map.mpr ⟨_, hmem, hk.symm⟩
  · intro h
    obtain ⟨p, hp, rfl⟩ := List.mem_map.mp h
    exact ⟨p, hp, beq_self_eq_true _⟩

theorem lookup_filter_key (l : List (κ × α)) (p : κ → Bool) (k : κ) :
    (l.filter fun e => p e.1).lookup k = if p k then l.lookup k else none := by
  induction l with
  | nil => simp
  | cons e l ih =>
    obtain ⟨k', a⟩ := e
    rw [lookup_cons]
    by_cases hk : k = k'
    · subst hk
      by_cases hp : p k = true
      · simp [hp]
      · simp [hp, ih]
    · rw [if_neg hk, ← ih]
      by_cases hp : p k' = true
      · rw [List.filter_cons, if_pos hp, lookup_cons, if_neg hk]
      · rw [List.filter_cons, if_neg hp]

theorem lookup_map (l : List (κ × α)) (f : κ → α → β) (k : κ) :
    (l.map fun e => (e.1, f e.1 e.2)).lookup k = (l.lookup k).map (f k) := by
  induction l with
  | nil => rfl
  | cons e l ih =>
    rw [List.map_cons, lookup_cons, ih, lookup_cons]
    by_cases hk : k = e.1
    · rw [if_pos hk, if_pos hk, hk]
      rfl
    · rw [if_neg hk, if_neg hk]

theorem lookup_filterMap {l : List (κ × α)} (hl : (l.map (·.1)).Nodup) (f : α → Option β) (k : κ) :
    (l.filterMap fun e => (f e.2).map fun b => (e.1, b)).lookup k = (l.lookup k).bind f := by
  induction l with
  | nil => rfl
  | cons e l ih =>
    rw [List.map_cons, List.nodup_cons] at hl
    have ih := ih hl.2
    rw [List.filterMap_cons, lookup_cons]
    by_cases hk : k = e.1
    · subst hk
      have hnone : l.lookup e.1 = none := by
        rw [← Option.not_isSome_iff_eq_none, lookup_isSome]
        exact hl.1
      rw [hnone] at ih
      rw [if_pos rfl, Option.bind_some]
      cases f e.2 with
      | none => exact ih
      | some b => exact List.lookup_cons_self
    · rw [if_neg hk, ← ih]
      cases f e.2 with
      | none => rfl
      | some b =>
        rw [Option.map_some, lookup_cons, if_neg hk]

omit [DecidableEq κ] in
theorem keys_filterMap_sublist (l : List (κ × α)) (f : α → Option β) :
    ((l.filterMap fun e => (f e.2).map fun b => (e.1, b)).map (·.1)).Sublist (l.map (·.1)) := by
  induction l with
  | nil => exact .slnil
  | cons e l ih =>
    rw [List.filterMap_cons, List.map_cons]
    cases f e.2 with
    | none => exact ih.cons e.1
    | some b => exact ih.cons_cons e.1

theorem lookup_map_filter {l : List (κ × α)} (hl : (l.map (·.1)).Nodup) (f : α → β) (p : β → Bool) (k : κ) :
    ((l.map fun e => (e.1, f e.2)).filter fun e => p e.2).lookup k = ((l.lookup k).map f).filter p := by
  induction l with
  | nil => rfl
  | cons e l ih =>
    obtain ⟨k', a⟩ := e
    rw [List.map_cons, List.nodup_cons] at hl
    have ih := ih hl.2
    rw [List.map_cons, lookup_cons]
    by_cases hk : k = k'
    · subst hk
      have hnone : l.lookup k = none := by
        rw [← Option.not_isSome_iff_eq_none, lookup_isSome]
        exact hl.1
      rw [hnone] at ih
      rw [if_pos rfl, Option.map_some]
      by_cases hp : p (f a) = true
      · rw [List.filter_cons, if_pos hp, lookup_cons, if_pos rfl, Option.filter_some_pos hp]
      · rw [List.filter_cons, if_neg hp, ih, Option.filter_some_neg (by simpa using hp)]
        rfl
    · rw [if_neg hk, ← ih]
      by_cases hp : p (f a) = true
      · rw [List.filter_cons, if_pos hp, lookup_cons, if_neg hk]
      · rw [List.filter_cons, if_neg hp]

end Assoc
