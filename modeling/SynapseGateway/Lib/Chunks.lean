import Mathlib.Data.List.Forall2
import Mathlib.Data.PNat.Defs

/-!
# Chunks of a list

A list cut into pieces of one size, the last perhaps shorter. Pieces of the same
sizes put together again have their elements at the same places.
-/

namespace Chunks

variable {α β : Type} {n : ℕ+}

def chunks (n : ℕ+) : List α → List (List α)
  | [] => []
  | a :: l => (a :: l).take n :: chunks n ((a :: l).drop n)
termination_by l => l.length
decreasing_by
  have := n.pos
  simp only [List.length_drop, List.length_cons]
  omega

@[simp] theorem chunks_nil : chunks n ([] : List α) = [] := by rw [chunks]

theorem chunks_of_ne_nil {l : List α} (h : l ≠ []) : chunks n l = l.take n :: chunks n (l.drop n) := by
  cases l with
  | nil => exact absurd rfl h
  | cons a l => rw [chunks]

theorem induct {p : List α → Prop} (n : ℕ+) (nil : p []) (step : ∀ l, l ≠ [] → p (l.drop n) → p l) (l : List α) : p l := by
  induction hk : l.length using Nat.strong_induction_on generalizing l with
  | _ k ih =>
    cases l with
    | nil => exact nil
    | cons a l =>
      have hlt : ((a :: l).drop n).length < k := by
        have := n.pos
        rw [List.length_drop]
        simp only [List.length_cons] at hk ⊢
        omega
      exact step _ (List.cons_ne_nil a l) (ih _ hlt _ rfl)

theorem flatten_chunks (n : ℕ+) (l : List α) : (chunks n l).flatten = l := by
  induction l using induct n with
  | nil => simp
  | step l hl ih => rw [chunks_of_ne_nil hl, List.flatten_cons, ih, List.take_append_drop]

theorem getElem?_chunks (n : ℕ+) (l : List α) (b : Nat) :
    (chunks n l)[b]? = if b * n < l.length then some ((l.drop (b * n)).take n) else none := by
  induction l using induct n generalizing b with
  | nil => simp
  | step l hl ih =>
    rw [chunks_of_ne_nil hl]
    cases b with
    | zero => simp [List.length_pos_iff.mpr hl]
    | succ b =>
      rw [List.getElem?_cons_succ, ih, List.length_drop, List.drop_drop, Nat.add_mul, Nat.one_mul, Nat.add_comm (n : ℕ)]
      by_cases h : b * n < l.length - n
      · rw [if_pos h, if_pos (by omega)]
      · rw [if_neg h, if_neg (by omega)]

theorem length_of_mem_chunks {l c : List α} (h : c ∈ chunks n l) : c.length ≤ n := by
  obtain ⟨b, hb⟩ := List.mem_iff_getElem?.mp h
  rw [getElem?_chunks] at hb
  split at hb
  · cases hb
    exact List.length_take_le ..
  · cases hb

/-- Pieces of the sizes of the chunks of `l`, put together: the place `i` is place
`i % n` of piece `i / n`. -/
theorem getElem?_flatten {l : List α} {outs : List (List β)}
    (h : List.Forall₂ (fun c out => out.length = c.length) (chunks n l) outs) (i : Nat) :
    outs.flatten[i]? = outs[i / n]?.bind fun out => out[i % n]? := by
  induction l using induct n generalizing outs i with
  | nil =>
    rw [chunks_nil] at h
    cases h
    rfl
  | step l hl ih =>
    rw [chunks_of_ne_nil hl] at h
    cases h with
    | @cons c out cs outs hlen h =>
      rw [List.length_take] at hlen
      rw [List.flatten_cons, List.getElem?_append]
      by_cases hi : i < n
      · rw [Nat.div_eq_of_lt hi, Nat.mod_eq_of_lt hi, List.getElem?_cons_zero, Option.bind_some]
        split
        · rfl
        · rename_i hout
          have hdrop : l.drop n = [] := by
            rw [List.drop_eq_nil_iff]
            omega
          rw [hdrop, chunks_nil] at h
          cases h
          rw [List.getElem?_eq_none (Nat.le_of_not_lt hout)]
          rfl
      · have hn := n.pos
        rw [Nat.div_eq_sub_div hn (Nat.le_of_not_lt hi), Nat.mod_eq_sub_mod (Nat.le_of_not_lt hi),
          List.getElem?_cons_succ]
        by_cases hfull : n ≤ l.length
        · have hout : out.length = n := by omega
          rw [if_neg (by omega), hout]
          exact ih h (i - n)
        · have hdrop : l.drop n = [] := by
            rw [List.drop_eq_nil_iff]
            omega
          rw [hdrop, chunks_nil] at h
          cases h
          rw [if_neg (by omega)]
          rfl

/-! ## Pieces side by side -/

theorem forall₂_getElem? {R : α → β → Prop} {l : List α} {m : List β} (h : List.Forall₂ R l m) {i : Nat} {a : α}
    (ha : l[i]? = some a) : ∃ b, m[i]? = some b ∧ R a b := by
  induction h generalizing i with
  | nil => cases ha
  | cons hr h ih =>
    cases i with
    | zero =>
      cases ha
      exact ⟨_, rfl, hr⟩
    | succ i => exact ih ha

theorem getElem?_forall₂ {R : α → β → Prop} {l : List α} {m : List β} (h : List.Forall₂ R l m) {i : Nat} {b : β}
    (hb : m[i]? = some b) : ∃ a, l[i]? = some a ∧ R a b := by
  induction h generalizing i with
  | nil => cases hb
  | cons hr h ih =>
    cases i with
    | zero =>
      cases hb
      exact ⟨_, rfl, hr⟩
    | succ i => exact ih hb

theorem flatten_length_le {l : List (List α)} {m : List (List β)}
    (h : List.Forall₂ (fun c out => c.length ≤ out.length) l m) : l.flatten.length ≤ m.flatten.length := by
  induction h with
  | nil => exact Nat.le_refl 0
  | cons hr h ih =>
    rw [List.flatten_cons, List.flatten_cons, List.length_append, List.length_append]
    omega

theorem flatten_length_eq {l : List (List α)} {m : List (List β)}
    (h : List.Forall₂ (fun c out => out.length = c.length) l m) : m.flatten.length = l.flatten.length := by
  induction h with
  | nil => rfl
  | cons hr h ih => rw [List.flatten_cons, List.flatten_cons, List.length_append, List.length_append, hr, ih]

/-- Pieces that are each at least as long, and together no longer, are each as long. -/
theorem forall₂_length_eq {l : List (List α)} {m : List (List β)}
    (h : List.Forall₂ (fun c out => c.length ≤ out.length) l m) (hlen : m.flatten.length = l.flatten.length) :
    List.Forall₂ (fun c out => out.length = c.length) l m := by
  induction h with
  | nil => exact .nil
  | cons hr h ih =>
    have hle := flatten_length_le h
    rw [List.flatten_cons, List.flatten_cons, List.length_append, List.length_append] at hlen
    exact .cons (by omega) (ih (by omega))

end Chunks
