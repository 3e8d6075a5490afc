import Mathlib.Data.List.Forall2

/-!
# Fallible computations

What a computation that returned says about its parts.
-/

namespace Fallible

theorem of_bind_ok {ε α β : Type} {x : Except ε α} {f : α → Except ε β} {b : β} (h : x >>= f = .ok b) :
    ∃ a, x = .ok a ∧ f a = .ok b := by
  cases x with
  | error e => cases h
  | ok a => exact ⟨a, rfl, h⟩

theorem of_map_ok {ε α β : Type} {x : Except ε α} {f : α → β} {b : β} (h : x.map f = .ok b) :
    ∃ a, x = .ok a ∧ f a = b := by
  cases x with
  | error e => cases h
  | ok a => exact ⟨a, rfl, Except.ok.inj h⟩

theorem of_map_error {ε α β : Type} {x : Except ε α} {f : α → β} {e : ε} (h : x.map f = .error e) : x = .error e := by
  cases x with
  | error e' => exact congrArg Except.error (Except.error.inj h)
  | ok a => cases h

theorem of_mapError_ok {σ τ α : Type} {f : σ → τ} {x : Except σ α} {a : α} (h : x.mapError f = .ok a) : x = .ok a := by
  cases x with
  | error e => cases h
  | ok b => exact congrArg Except.ok (Except.ok.inj h)

def refuseIf {ε : Type} (bad : Prop) [Decidable bad] (problem : ε) : Except ε Unit :=
  if bad then .error problem else .ok ()

def okOr {ε α : Type} (value : Option α) (problem : ε) : Except ε α := value.elim (.error problem) .ok

theorem of_refuseIf_ok {ε : Type} {bad : Prop} [Decidable bad] {problem : ε} {u : Unit}
    (h : refuseIf bad problem = .ok u) : ¬ bad := by
  unfold refuseIf at h
  split at h
  · cases h
  · assumption

theorem refuseIf_ok_iff {ε : Type} {bad : Prop} [Decidable bad] {problem : ε} :
    refuseIf bad problem = .ok () ↔ ¬ bad := by
  unfold refuseIf
  by_cases h : bad
  · simp [h]
  · simp [h]

theorem bind_ok_iff {ε β : Type} {x : Except ε Unit} {f : Unit → Except ε β} {b : β} :
    x >>= f = .ok b ↔ x = .ok () ∧ f () = .ok b := by
  constructor
  · intro h
    obtain ⟨_, hx, hf⟩ := of_bind_ok h
    exact ⟨hx, hf⟩
  · rintro ⟨rfl, hf⟩
    exact hf

theorem of_mapM_ok {ε α β : Type} {f : α → Except ε β} {xs : List α} {ys : List β} (h : xs.mapM f = .ok ys) :
    List.Forall₂ (fun x y => f x = .ok y) xs ys := by
  induction xs generalizing ys with
  | nil =>
    cases h
    exact .nil
  | cons x xs ih =>
    rw [List.mapM_cons] at h
    obtain ⟨y, hy, h⟩ := of_bind_ok h
    obtain ⟨ys, hys, h⟩ := of_bind_ok h
    cases h
    exact .cons hy (ih hys)

theorem mem_of_mapM_ok {ε α β : Type} {f : α → Except ε β} {xs : List α} {ys : List β} (h : xs.mapM f = .ok ys) {y : β}
    (hy : y ∈ ys) : ∃ x ∈ xs, f x = .ok y := by
  have hall := of_mapM_ok h
  clear h
  induction hall with
  | nil => cases hy
  | cons hx _ ih =>
    rcases List.mem_cons.mp hy with rfl | hy
    · exact ⟨_, List.mem_cons_self .., hx⟩
    · obtain ⟨x, hmem, hx⟩ := ih hy
      exact ⟨x, List.mem_cons_of_mem _ hmem, hx⟩

theorem ok_of_mem {ε α β : Type} {f : α → Except ε β} {xs : List α} {ys : List β} (h : xs.mapM f = .ok ys) {x : α}
    (hx : x ∈ xs) : ∃ y ∈ ys, f x = .ok y := by
  have hall := of_mapM_ok h
  clear h
  induction hall with
  | nil => cases hx
  | cons hy _ ih =>
    rcases List.mem_cons.mp hx with rfl | hx
    · exact ⟨_, List.mem_cons_self .., hy⟩
    · obtain ⟨y, hmem, hy⟩ := ih hx
      exact ⟨y, List.mem_cons_of_mem _ hmem, hy⟩

theorem exists_mapM_ok_iff {ε α β : Type} {f : α → Except ε β} {xs : List α} :
    (∃ ys, xs.mapM f = .ok ys) ↔ ∀ x ∈ xs, ∃ y, f x = .ok y := by
  constructor
  · rintro ⟨ys, h⟩ x hx
    obtain ⟨y, -, hy⟩ := ok_of_mem h hx
    exact ⟨y, hy⟩
  · intro h
    induction xs with
    | nil => exact ⟨[], rfl⟩
    | cons x xs ih =>
      rw [List.forall_mem_cons] at h
      obtain ⟨y, hy⟩ := h.1
      obtain ⟨ys, hys⟩ := ih h.2
      exact ⟨y :: ys, by rw [List.mapM_cons, hy, hys]; rfl⟩

theorem exists_map_ok_iff {ε α β : Type} {x : Except ε α} {f : α → β} : (∃ b, x.map f = .ok b) ↔ ∃ a, x = .ok a := by
  constructor
  · rintro ⟨b, h⟩
    obtain ⟨a, ha, -⟩ := of_map_ok h
    exact ⟨a, ha⟩
  · rintro ⟨a, rfl⟩
    exact ⟨f a, rfl⟩

theorem exists_ok_of_isOk {ε α : Type} {x : Except ε α} (h : x.isOk = true) : ∃ a, x = .ok a := by
  cases x with
  | error e => cases h
  | ok a => exact ⟨a, rfl⟩

theorem okOr_ok_iff {ε α : Type} {value : Option α} {problem : ε} {a : α} :
    okOr value problem = .ok a ↔ value = some a := by
  cases value <;> simp [okOr]

theorem map_of_mapM_ok {ε α β γ : Type} {f : α → Except ε β} {xs : List α} {ys : List β} (h : xs.mapM f = .ok ys)
    {g : α → γ} {g' : β → γ} (hg : ∀ x y, f x = .ok y → g' y = g x) : ys.map g' = xs.map g := by
  have hall := of_mapM_ok h
  clear h
  induction hall with
  | nil => rfl
  | cons hx _ ih => rw [List.map_cons, List.map_cons, hg _ _ hx, ih]

theorem of_forM_ok {ε α : Type} {f : α → Except ε Unit} {xs : List α} {u : Unit} (h : xs.forM f = .ok u) :
    ∀ x ∈ xs, f x = .ok () := by
  induction xs with
  | nil => exact fun x hx => by cases hx
  | cons y xs ih =>
    unfold List.forM at h
    obtain ⟨_, hy, h⟩ := of_bind_ok h
    exact List.forall_mem_cons.mpr ⟨hy, ih h⟩

theorem forM_ok_iff {ε α : Type} {f : α → Except ε Unit} {xs : List α} :
    xs.forM f = .ok () ↔ ∀ x ∈ xs, f x = .ok () := by
  refine ⟨of_forM_ok, fun h => ?_⟩
  induction xs with
  | nil => rfl
  | cons y xs ih =>
    rw [List.forall_mem_cons] at h
    unfold List.forM
    rw [bind_ok_iff]
    exact ⟨h.1, ih h.2⟩

theorem keep_of_foldlM_ok {ε α σ : Type} {f : σ → α → Except ε σ} {p : σ → Prop}
    (hf : ∀ s x t, p s → f s x = .ok t → p t) {xs : List α} {s t : σ} (hs : p s) (h : xs.foldlM f s = .ok t) : p t := by
  induction xs generalizing s with
  | nil =>
    cases h
    exact hs
  | cons x xs ih =>
    rw [List.foldlM_cons] at h
    obtain ⟨u, hu, h⟩ := of_bind_ok h
    exact ih (hf s x u hs hu) h

theorem mapM_eq_some_iff {α β : Type} {f : α → Option β} {xs : List α} {ys : List β} :
    xs.mapM f = some ys ↔ List.Forall₂ (fun x y => f x = some y) xs ys := by
  induction xs generalizing ys with
  | nil =>
    rw [List.forall₂_nil_left_iff, List.mapM_nil]
    exact ⟨fun h => (Option.some.inj h).symm, fun h => by rw [h]; rfl⟩
  | cons x xs ih =>
    rw [List.mapM_cons, List.forall₂_cons_left_iff]
    constructor
    · intro h
      obtain ⟨y, hy, h⟩ := Option.bind_eq_some_iff.mp h
      obtain ⟨ys', hys, h⟩ := Option.bind_eq_some_iff.mp h
      exact ⟨y, ys', hy, ih.mp hys, (Option.some.inj h).symm⟩
    · rintro ⟨y, ys', hy, hys, rfl⟩
      rw [hy, ih.mpr hys]
      rfl

theorem exists_mapM_eq_some {α β : Type} {f : α → Option β} {xs : List α} (h : ∀ x ∈ xs, ∃ y, f x = some y) :
    ∃ ys, xs.mapM f = some ys := by
  induction xs with
  | nil => exact ⟨[], rfl⟩
  | cons x xs ih =>
    rw [List.forall_mem_cons] at h
    obtain ⟨y, hy⟩ := h.1
    obtain ⟨ys, hys⟩ := ih h.2
    exact ⟨y :: ys, mapM_eq_some_iff.mpr (.cons hy (mapM_eq_some_iff.mp hys))⟩

end Fallible
