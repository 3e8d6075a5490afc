import Mathlib.Data.List.Forall2

/-!
# Retrying a call, falling back along a list

A call is retried while its errors allow it and retries are left. A list of
alternatives is walked up to the first that gives a result.
-/

namespace Attempts

variable {α ε β : Type}

/-! ## Retrying -/

/-- The result of the last attempt, and the number of attempts. -/
def retry (retryable : ε → Bool) (op : Nat → Except ε β) : Nat → Nat → Except ε β × Nat
  | 0, n => (op n, n + 1)
  | retries + 1, n =>
    match op n with
    | .ok b => (.ok b, n + 1)
    | .error e => if retryable e then retry retryable op retries (n + 1) else (.error e, n + 1)

/-- At least one attempt and at most `most`. Every attempt before the last
failed in a way that can be retried; where the last did too, none was left. -/
structure Retried (retryable : ε → Bool) (op : Nat → Except ε β) (most : Nat) (r : Except ε β × Nat) : Prop where
  pos : 1 ≤ r.2
  le : r.2 ≤ most
  last : op (r.2 - 1) = r.1
  before : ∀ i, i < r.2 - 1 → ∃ e, op i = .error e ∧ retryable e = true
  spent : ∀ e, r.1 = .error e → retryable e = true → r.2 = most

theorem retry_from (retryable : ε → Bool) (op : Nat → Except ε β) (retries n : Nat)
    (hbefore : ∀ i, i < n → ∃ e, op i = .error e ∧ retryable e = true) :
    Retried retryable op (n + retries + 1) (retry retryable op retries n) := by
  induction retries generalizing n with
  | zero =>
    exact ⟨Nat.succ_pos n, Nat.le_refl _, rfl, hbefore, fun _ _ _ => rfl⟩
  | succ retries ih =>
    unfold retry
    cases hop : op n with
    | ok b =>
      refine ⟨Nat.succ_pos n, ?_, hop, hbefore, fun e he => by cases he⟩
      show n + 1 ≤ n + (retries + 1) + 1
      omega
    | error e =>
      by_cases he : retryable e = true
      · have hnext : ∀ i, i < n + 1 → ∃ e, op i = .error e ∧ retryable e = true := by
          intro i hi
          rcases Nat.lt_or_eq_of_le (Nat.le_of_lt_succ hi) with hi | rfl
          · exact hbefore i hi
          · exact ⟨e, hop, he⟩
        have hmost : n + (retries + 1) + 1 = n + 1 + retries + 1 := by omega
        simp only [he, ite_true, hmost]
        exact ih (n + 1) hnext
      · simp only [he]
        refine ⟨Nat.succ_pos n, ?_, hop, hbefore, fun e' he' hr => ?_⟩
        · show n + 1 ≤ n + (retries + 1) + 1
          omega
        · cases he'
          exact absurd hr he

theorem retry_retried (retryable : ε → Bool) (op : Nat → Except ε β) (retries : Nat) :
    Retried retryable op (retries + 1) (retry retryable op retries 0) := by
  have := retry_from retryable op retries 0 fun i hi => absurd hi (Nat.not_lt_zero i)
  rwa [Nat.zero_add] at this

/-! ## Falling back -/

def firstOk (f : α → Except ε β) : List α → Except (List ε) β
  | [] => .error []
  | a :: l =>
    match f a with
    | .ok b => .ok b
    | .error e => (firstOk f l).mapError (e :: ·)

/-- The alternatives a walk tries. -/
def tried (f : α → Except ε β) : List α → List α
  | [] => []
  | a :: l =>
    match f a with
    | .ok _ => [a]
    | .error _ => a :: tried f l

theorem tried_begins (f : α → Except ε β) (l : List α) : tried f l <+: l := by
  induction l with
  | nil => exact List.nil_prefix
  | cons a l ih =>
    rw [tried]
    cases f a with
    | ok b => exact List.cons_prefix_cons.mpr ⟨rfl, List.nil_prefix⟩
    | error e => exact List.cons_prefix_cons.mpr ⟨rfl, ih⟩

/-- The steps a run takes that stops at the first failure. -/
def reached (f : α → Except ε β) : List α → List α
  | [] => []
  | a :: l =>
    match f a with
    | .ok _ => a :: reached f l
    | .error _ => [a]

theorem reached_of_oks {f : α → Except ε β} {l : List α} (h : ∀ a ∈ l, ∃ b, f a = .ok b) : reached f l = l := by
  induction l with
  | nil => rfl
  | cons a l ih =>
    obtain ⟨⟨b, hb⟩, hl⟩ := List.forall_mem_cons.mp h
    rw [reached, hb, ih hl]

theorem firstOk_of_ok {f : α → Except ε β} {pre : List α} (post : List α) {a : α} {b : β}
    (hpre : ∀ x ∈ pre, ∃ e, f x = .error e) (ha : f a = .ok b) :
    firstOk f (pre ++ a :: post) = .ok b ∧ tried f (pre ++ a :: post) = pre ++ [a] := by
  induction pre with
  | nil => simp [firstOk, tried, ha]
  | cons x pre ih =>
    obtain ⟨e, he⟩ := hpre x List.mem_cons_self
    obtain ⟨hfirst, htried⟩ := ih fun y hy => hpre y (List.mem_cons_of_mem x hy)
    constructor
    · rw [List.cons_append, firstOk, he]
      simp only [hfirst]
      rfl
    · rw [List.cons_append, tried, he]
      simp only [htried, List.cons_append]

theorem firstOk_of_errors {f : α → Except ε β} {l : List α} {es : List ε}
    (h : List.Forall₂ (fun x e => f x = .error e) l es) : firstOk f l = .error es ∧ tried f l = l := by
  induction h with
  | nil => exact ⟨rfl, rfl⟩
  | cons he _ ih =>
    constructor
    · rw [firstOk, he]
      simp only [ih.1]
      rfl
    · rw [tried, he]
      simp only [ih.2]

theorem error_of_mem {f : α → Except ε β} {l : List α} {es : List ε}
    (h : List.Forall₂ (fun x e => f x = .error e) l es) {x : α} (hx : x ∈ l) : ∃ e, f x = .error e := by
  induction h with
  | nil => cases hx
  | cons he _ ih =>
    rcases List.mem_cons.mp hx with rfl | hx
    · exact ⟨_, he⟩
    · exact ih hx

theorem errors_of_forall {f : α → Except ε β} {l : List α} (h : ∀ x ∈ l, ∃ e, f x = .error e) :
    ∃ es, List.Forall₂ (fun x e => f x = .error e) l es := by
  induction l with
  | nil => exact ⟨[], .nil⟩
  | cons x l ih =>
    rw [List.forall_mem_cons] at h
    obtain ⟨e, he⟩ := h.1
    obtain ⟨es, hes⟩ := ih h.2
    exact ⟨e :: es, .cons he hes⟩

theorem all_or_first (P : α → Prop) (l : List α) :
    (∀ x ∈ l, P x) ∨ ∃ pre x post, l = pre ++ x :: post ∧ (∀ y ∈ pre, P y) ∧ ¬ P x := by
  induction l with
  | nil => exact .inl fun x hx => by cases hx
  | cons a l ih =>
    by_cases ha : P a
    · rcases ih with hall | ⟨pre, x, post, rfl, hpre, hx⟩
      · exact .inl (List.forall_mem_cons.mpr ⟨ha, hall⟩)
      · exact .inr ⟨a :: pre, x, post, rfl, List.forall_mem_cons.mpr ⟨ha, hpre⟩, hx⟩
    · exact .inr ⟨[], a, l, rfl, fun _ hy => (List.not_mem_nil hy).elim, ha⟩

theorem ok_or_errors (f : α → Except ε β) (l : List α) :
    (∃ pre a post b, l = pre ++ a :: post ∧ (∀ x ∈ pre, ∃ e, f x = .error e) ∧ f a = .ok b) ∨
    ∃ es, List.Forall₂ (fun x e => f x = .error e) l es := by
  rcases all_or_first (fun x => ∃ e, f x = .error e) l with hall | ⟨pre, a, post, rfl, hpre, ha⟩
  · exact .inr (errors_of_forall hall)
  · cases hfa : f a with
    | ok b => exact .inl ⟨pre, a, post, b, rfl, hpre, hfa⟩
    | error e => exact absurd ⟨e, hfa⟩ ha

theorem firstOk_ok {f : α → Except ε β} {l : List α} {b : β} (h : firstOk f l = .ok b) :
    ∃ pre a post, l = pre ++ a :: post ∧ tried f l = pre ++ [a] ∧ f a = .ok b ∧ ∀ x ∈ pre, ∃ e, f x = .error e := by
  rcases ok_or_errors f l with ⟨pre, a, post, b', rfl, hpre, ha⟩ | ⟨es, hes⟩
  · obtain ⟨hfirst, htried⟩ := firstOk_of_ok post hpre ha
    obtain rfl := Except.ok.inj (hfirst.symm.trans h)
    exact ⟨pre, a, post, rfl, htried, ha, hpre⟩
  · exact nomatch (firstOk_of_errors hes).1.symm.trans h

end Attempts
