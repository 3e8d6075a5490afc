import Mathlib.Algebra.BigOperators.Group.List.Basic
import Mathlib.Algebra.GroupWithZero.Nat

/-!
# The longest run within a budget

The entries of a list taken in order for as long as their costs fit.
-/

namespace Budget

variable {α : Type}

def fitting (cost : α → Nat) (budget used : Nat) : List α → List α
  | [] => []
  | a :: l => if used + cost a ≤ budget then a :: fitting cost budget (used + cost a) l else []

def total (cost : α → Nat) (l : List α) : Nat := (l.map cost).sum

@[simp] theorem total_nil (cost : α → Nat) : total cost [] = 0 := rfl

@[simp] theorem total_cons (cost : α → Nat) (a : α) (l : List α) : total cost (a :: l) = cost a + total cost l := by
  simp [total]

theorem total_append (cost : α → Nat) (l l' : List α) : total cost (l ++ l') = total cost l + total cost l' := by
  simp [total]

theorem total_le {cost cost' : α → Nat} (l : List α) (h : ∀ a ∈ l, cost a ≤ cost' a) :
    total cost l ≤ total cost' l := by
  induction l with
  | nil => exact Nat.le_refl 0
  | cons a l ih =>
    rw [total_cons, total_cons]
    exact Nat.add_le_add (h a List.mem_cons_self) (ih fun b hb => h b (List.mem_cons_of_mem a hb))

theorem total_reverse (cost : α → Nat) (l : List α) : total cost l.reverse = total cost l := by
  simp [total, List.sum_reverse]

theorem total_replicate (cost : α → Nat) (n : Nat) (a : α) : total cost (List.replicate n a) = n * cost a := by
  simp [total]

/-- `kept` starts `l`, costs no more than the budget, and every start of `l`
that does is a start of `kept`. -/
structure Longest (cost : α → Nat) (budget : Nat) (l kept : List α) : Prop where
  noGap : kept <+: l
  fits : total cost kept ≤ budget
  longest : ∀ p, p <+: l → total cost p ≤ budget → p <+: kept

theorem fitting_prefix (cost : α → Nat) (budget used : Nat) (l : List α) : fitting cost budget used l <+: l := by
  induction l generalizing used with
  | nil => exact List.prefix_rfl
  | cons a l ih =>
    unfold fitting
    by_cases h : used + cost a ≤ budget
    · rw [if_pos h, List.cons_prefix_cons]
      exact ⟨rfl, ih _⟩
    · rw [if_neg h]
      exact List.nil_prefix

theorem used_add_total_fitting (cost : α → Nat) {budget used : Nat} (l : List α) (hu : used ≤ budget) :
    used + total cost (fitting cost budget used l) ≤ budget := by
  induction l generalizing used with
  | nil => exact hu
  | cons a l ih =>
    unfold fitting
    by_cases h : used + cost a ≤ budget
    · rw [if_pos h, total_cons]
      have := ih h
      omega
    · rw [if_neg h]
      exact hu

theorem prefix_fitting (cost : α → Nat) {budget used : Nat} {l p : List α} (hp : p <+: l)
    (h : used + total cost p ≤ budget) : p <+: fitting cost budget used l := by
  induction l generalizing used p with
  | nil => exact hp
  | cons a l ih =>
    cases p with
    | nil => exact List.nil_prefix
    | cons b p =>
      rw [List.cons_prefix_cons] at hp
      obtain ⟨rfl, hp⟩ := hp
      rw [total_cons] at h
      have hb : used + cost b ≤ budget := by omega
      unfold fitting
      rw [if_pos hb, List.cons_prefix_cons]
      exact ⟨rfl, ih hp (by omega)⟩

theorem longest_fitting (cost : α → Nat) (budget : Nat) (l : List α) :
    Longest cost budget l (fitting cost budget 0 l) where
  noGap := fitting_prefix cost budget 0 l
  fits := by
    have := used_add_total_fitting cost l (Nat.zero_le budget)
    omega
  longest p hp h := prefix_fitting cost hp (by omega)

/-- The longest run at one cost fits at another exactly when every start that
fits at the one does. -/
theorem Longest.total_le_iff {cost cost' : α → Nat} {budget : Nat} {l kept : List α}
    (h : Longest cost budget l kept) :
    total cost' kept ≤ budget ↔ ∀ p, p <+: l → total cost p ≤ budget → total cost' p ≤ budget := by
  constructor
  · intro hk p hp hfit
    obtain ⟨rest, hrest⟩ := h.longest p hp hfit
    rw [← hrest, total_append] at hk
    omega
  · intro hall
    exact hall kept h.noGap h.fits

theorem Longest.eq_of_fits {cost : α → Nat} {budget : Nat} {l kept : List α} (h : Longest cost budget l kept)
    (hl : total cost l ≤ budget) : kept = l :=
  h.noGap.eq_of_length_le (h.longest l List.prefix_rfl hl).length_le

end Budget
