import Mathlib.Algebra.GroupWithZero.Nat

/-!
# Splices

Replacing ranges of a list from left to right. The ranges are given in the
positions of a list of which this one is the part from `k` on.
-/

namespace Splice

variable {α : Type}

structure Patch (α : Type) where
  start : Nat
  stop : Nat
  text : List α

def splice : Nat → List α → List (Patch α) → List α
  | _, xs, [] => xs
  | k, xs, e :: es => xs.take (e.start - k) ++ (e.text ++ splice e.stop (xs.drop (e.stop - k)) es)

/-- The ranges lie one after the other between `k` and `c`. -/
def Between : Nat → List (Patch α) → Nat → Prop
  | _, [], _ => True
  | k, e :: es, c => k ≤ e.start ∧ e.start ≤ e.stop ∧ e.stop ≤ c ∧ Between e.stop es c

/-- `ys` is `xs` with the ranges replaced and everything else kept. -/
structure Spliced (k : Nat) (xs : List α) (es : List (Patch α)) (ys : List α) : Prop where
  between : Between k es (k + xs.length)
  eq : ys = splice k xs es

theorem between_of_pairwise {es : List (Patch α)} {k c : Nat}
    (h : ∀ e ∈ es, k ≤ e.start ∧ e.start ≤ e.stop ∧ e.stop ≤ c)
    (hp : es.Pairwise fun a b => a.stop ≤ b.start) : Between k es c := by
  induction es generalizing k with
  | nil => trivial
  | cons e es ih =>
    obtain ⟨h1, h2, h3⟩ := h e List.mem_cons_self
    obtain ⟨hp1, hp2⟩ := List.pairwise_cons.mp hp
    refine ⟨h1, h2, h3, ih ?_ hp2⟩
    intro x hx
    have := h x (List.mem_cons_of_mem e hx)
    exact ⟨hp1 x hx, this.2⟩

theorem Between.mono {es : List (Patch α)} {k c c' : Nat} (h : Between k es c) (hc : c ≤ c') : Between k es c' := by
  induction es generalizing k with
  | nil => trivial
  | cons e es ih =>
    obtain ⟨h1, h2, h3, h4⟩ := h
    exact ⟨h1, h2, Nat.le_trans h3 hc, ih h4⟩

/-- Where no range straddles `c`, the parts before and after it are spliced on their own. -/
theorem splice_cut {es₁ es₂ : List (Patch α)} {k c : Nat} (xs : List α) (hk : k ≤ c) (h₁ : Between k es₁ c)
    (h₂ : ∀ e ∈ es₂, c ≤ e.start ∧ e.start ≤ e.stop) :
    splice k xs (es₁ ++ es₂) = splice k (xs.take (c - k)) es₁ ++ splice c (xs.drop (c - k)) es₂ := by
  induction es₁ generalizing k xs with
  | nil =>
    cases es₂ with
    | nil => exact (List.take_append_drop (c - k) xs).symm
    | cons e es =>
      obtain ⟨h1, h2⟩ := h₂ e List.mem_cons_self
      have hstart : e.start - k = (c - k) + (e.start - c) := by omega
      have hstop : e.stop - k = (c - k) + (e.stop - c) := by omega
      simp only [List.nil_append, splice]
      rw [hstart, List.take_add, hstop, ← List.drop_drop, List.append_assoc]
  | cons e es ih =>
    obtain ⟨h1, h2, h3, h4⟩ := h₁
    have hstart : min (e.start - k) (c - k) = e.start - k := by omega
    simp only [List.cons_append, splice]
    rw [ih (xs.drop (e.stop - k)) h3 h4, List.take_take, hstart, List.drop_take, List.drop_drop,
      show e.stop - k + (c - e.stop) = c - k by omega, show c - k - (e.stop - k) = c - e.stop by omega]
    simp only [List.append_assoc]

theorem splice_length {es : List (Patch α)} {k : Nat} {xs : List α} (h : Between k es (k + xs.length)) :
    (splice k xs es).length + (es.map fun e => e.stop - e.start).sum =
      xs.length + (es.map fun e => e.text.length).sum := by
  induction es generalizing k xs with
  | nil => rfl
  | cons e es ih =>
    obtain ⟨h1, h2, h3, h4⟩ := h
    have hlen : e.stop + (xs.drop (e.stop - k)).length = k + xs.length := by
      rw [List.length_drop]
      omega
    have hrest : (splice e.stop (xs.drop (e.stop - k)) es).length + (es.map fun e => e.stop - e.start).sum =
        (xs.drop (e.stop - k)).length + (es.map fun e => e.text.length).sum := ih (by rwa [hlen])
    simp only [splice, List.length_append, List.length_take, List.map_cons, List.sum_cons]
    rw [List.length_drop] at hrest
    omega

end Splice
