import Mathlib.Data.List.Basic

/-!
# Outlines

The outline of a list under a partial map: the images of the elements that have
one, with each maximal run of the others closed up into a single gap. Lists of
different types have the same outline where they differ in their gaps only.
-/

namespace Outline

variable {α γ β : Type}

def push : Option β → List (Option β) → List (Option β)
  | some y, s => some y :: s
  | none, none :: s => none :: s
  | none, s => none :: s

def outline (f : α → Option β) : List α → List (Option β)
  | [] => []
  | a :: xs => push (f a) (outline f xs)

variable {f : α → Option β} {g : γ → Option β}

theorem push_ne_nil (x : Option β) (s : List (Option β)) : push x s ≠ [] := by
  intro h
  cases x with
  | some y => cases h
  | none =>
    cases s with
    | nil => cases h
    | cons z s => cases z <;> cases h

theorem push_none_push_none (s : List (Option β)) : push none (push none s) = push none s := by
  cases s with
  | nil => rfl
  | cons z s => cases z <;> rfl

theorem push_append (x : Option β) (y : β) (s t : List (Option β)) :
    push x (s ++ some y :: t) = push x s ++ some y :: t := by
  cases x with
  | some z => rfl
  | none =>
    cases s with
    | nil => rfl
    | cons z s => cases z <;> rfl

theorem mem_push {x : Option β} {s : List (Option β)} {y : β} : some y ∈ push x s ↔ x = some y ∨ some y ∈ s := by
  cases x with
  | some z => simp [push, eq_comm]
  | none =>
    cases s with
    | nil => simp [push]
    | cons z s => cases z <;> simp [push]

theorem mem_outline {xs : List α} {y : β} : some y ∈ outline f xs ↔ ∃ a ∈ xs, f a = some y := by
  induction xs with
  | nil => simp [outline]
  | cons a xs ih => simp [outline, mem_push, ih]

theorem outline_append (xs ys : List α) : outline f (xs ++ ys) = (outline f xs).foldr push (outline f ys) := by
  induction xs with
  | nil => rfl
  | cons a xs ih =>
    rw [List.cons_append, outline, outline, ih]
    cases f a with
    | some y => rfl
    | none =>
      cases outline f xs with
      | nil => rfl
      | cons z s =>
        cases z with
        | some y => rfl
        | none => exact push_none_push_none _

theorem outline_append_congr {xs ys : List α} {us vs : List γ} (h : outline f xs = outline g us)
    (hr : outline f ys = outline g vs) : outline f (xs ++ ys) = outline g (us ++ vs) := by
  rw [outline_append, outline_append, h, hr]

theorem outline_flatten {xss : List (List α)} {uss : List (List γ)}
    (h : List.Forall₂ (fun xs us => outline f xs = outline g us) xss uss) :
    outline f xss.flatten = outline g uss.flatten := by
  induction h with
  | nil => rfl
  | cons h _ ih => exact outline_append_congr h ih

/-- An element that has an image separates the outlines on its two sides. -/
theorem outline_mid {xs ys : List α} {a : α} {y : β} (ha : f a = some y) :
    outline f (xs ++ a :: ys) = outline f xs ++ some y :: outline f ys := by
  induction xs with
  | nil =>
    show push (f a) (outline f ys) = _
    rw [ha]
    rfl
  | cons b xs ih => rw [List.cons_append, outline, outline, ih, push_append]

/-- Where an outline has an image, the list has an element with that image. -/
theorem split_outline {xs : List α} {p q : List (Option β)} {y : β} (h : outline f xs = p ++ some y :: q) :
    ∃ us a vs, xs = us ++ a :: vs ∧ f a = some y ∧ outline f us = p ∧ outline f vs = q := by
  induction xs generalizing p with
  | nil =>
    rw [outline] at h
    cases p <;> cases h
  | cons b xs ih =>
    rw [outline] at h
    cases hb : f b with
    | some z =>
      rw [hb] at h
      cases p with
      | nil =>
        cases h
        exact ⟨[], b, xs, rfl, hb, rfl, rfl⟩
      | cons x p =>
        obtain ⟨rfl, ht⟩ : some z = x ∧ outline f xs = p ++ some y :: q := List.cons.inj h
        obtain ⟨us, a, vs, rfl, ha, hus, hvs⟩ := ih ht
        exact ⟨b :: us, a, vs, rfl, ha, by rw [outline, hb, hus]; rfl, hvs⟩
    | none =>
      rw [hb] at h
      match hx : outline f xs with
      | none :: s =>
        -- `b` lengthens the gap that `xs` begins with
        rw [hx] at h
        have hp : outline f xs = p ++ some y :: q := hx.trans h
        obtain ⟨us, a, vs, rfl, ha, hus, hvs⟩ := ih hp
        refine ⟨b :: us, a, vs, rfl, ha, ?_, hvs⟩
        cases p with
        | nil => cases h
        | cons x p =>
          cases h
          rw [outline, hb, hus]
          rfl
      | [] =>
        rw [hx] at h
        cases p with
        | nil => cases h
        | cons x p => cases p <;> cases h
      | some z :: s =>
        rw [hx] at h
        cases p with
        | nil => cases h
        | cons x p =>
          obtain ⟨rfl, ht⟩ : none = x ∧ some z :: s = p ++ some y :: q := List.cons.inj h
          obtain ⟨us, a, vs, rfl, ha, hus, hvs⟩ := ih (hx.trans ht)
          refine ⟨b :: us, a, vs, rfl, ha, ?_, hvs⟩
          rw [outline, hb, hus]
          cases p with
          | nil => rfl
          | cons w p =>
            cases ht
            rfl

/-- Two lists with one outline split alike at an element that has an image. -/
theorem split_alike {xs : List α} {us vs : List γ} {c : γ} {y : β} (hc : g c = some y)
    (h : outline f xs = outline g (us ++ c :: vs)) :
    ∃ as a bs, xs = as ++ a :: bs ∧ f a = some y ∧ outline f as = outline g us ∧ outline f bs = outline g vs :=
  split_outline (h.trans (outline_mid hc))

theorem outline_eq_nil {xs : List α} : outline f xs = [] ↔ xs = [] := by
  cases xs with
  | nil => simp [outline]
  | cons a xs => simp [outline, push_ne_nil]

end Outline
