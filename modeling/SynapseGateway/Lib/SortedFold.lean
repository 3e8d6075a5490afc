import Mathlib.Data.List.Perm.Basic

/-!
# Folding two sortings of one list

Two sorted permutations of a list differ only in the order of elements that
are equal to the sorting. A fold that does not see that order has one value on
all of them.
-/

namespace SortedFold

variable {α β : Type} {f : β → α → β} {r : α → α → Prop}

theorem foldl_move_front {a : α} {u v : List α} (h : ∀ x ∈ u, ∀ b, f (f b x) a = f (f b a) x) (b : β) :
    (u ++ a :: v).foldl f b = (a :: (u ++ v)).foldl f b := by
  induction u generalizing b with
  | nil => rfl
  | cons x u ih =>
    have ih := ih (fun y hy => h y (List.mem_cons_of_mem _ hy)) (f b x)
    simp only [List.cons_append, List.foldl_cons] at ih ⊢
    rw [ih, h x (List.mem_cons_self ..)]

theorem foldl_perm_sorted {l₁ l₂ : List α} (hp : l₁.Perm l₂) (h₁ : l₁.Pairwise r) (h₂ : l₂.Pairwise r)
    (hf : ∀ x ∈ l₁, ∀ y ∈ l₁, r x y → r y x → ∀ b, f (f b x) y = f (f b y) x) (b : β) :
    l₁.foldl f b = l₂.foldl f b := by
  induction l₁ generalizing l₂ b with
  | nil => rw [List.nil_perm.mp hp]
  | cons a l₁ ih =>
    obtain ⟨u, v, rfl⟩ := List.append_of_mem (hp.subset (List.mem_cons_self ..))
    have hp' : l₁.Perm (u ++ v) := (List.perm_cons a).mp (hp.trans List.perm_middle)
    obtain ⟨ha, hs⟩ := List.pairwise_cons.mp h₁
    have huv := List.pairwise_append.mp h₂
    have hfront : ∀ x ∈ u, ∀ b, f (f b x) a = f (f b a) x := by
      intro x hx
      have hxl : x ∈ l₁ := hp'.symm.subset (List.mem_append_left _ hx)
      exact hf x (List.mem_cons_of_mem _ hxl) a (List.mem_cons_self ..)
        (huv.2.2 x hx a (List.mem_cons_self ..)) (ha x hxl)
    rw [foldl_move_front hfront, List.foldl_cons, List.foldl_cons]
    refine ih hp' hs ?_ (fun x hx y hy => hf x (List.mem_cons_of_mem _ hx) y
      (List.mem_cons_of_mem _ hy)) _
    exact h₂.sublist (List.Sublist.append (List.Sublist.refl u) (List.sublist_cons_self a v))

end SortedFold
