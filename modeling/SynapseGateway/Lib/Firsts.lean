import Mathlib.Data.List.Nodup
import Mathlib.Logic.Function.Basic

/-!
# The first of each key

The elements of a list whose key occurs for the first time.
-/

namespace Firsts

variable {α β κ ω : Type} [DecidableEq κ] [DecidableEq ω]

def firstOn (key : α → κ) : List κ → List α → List α
  | _, [] => []
  | seen, a :: l => if key a ∈ seen then firstOn key seen l else a :: firstOn key (key a :: seen) l

section
variable {key : α → κ} {seen seen' : List κ} {l l' : List α}

theorem firstOn_congr (h : ∀ k, k ∈ seen ↔ k ∈ seen') : firstOn key seen l = firstOn key seen' l := by
  induction l generalizing seen seen' with
  | nil => rfl
  | cons a l ih =>
    rw [firstOn, firstOn, if_congr (h (key a)) rfl rfl, ih h]
    congr 2
    apply ih
    intro k
    rw [List.mem_cons, List.mem_cons, h]

theorem firstOn_append : firstOn key seen (l ++ l') = firstOn key seen l ++ firstOn key (l.map key ++ seen) l' := by
  induction l generalizing seen with
  | nil => rfl
  | cons a l ih =>
    rw [List.cons_append, firstOn, firstOn]
    by_cases h : key a ∈ seen
    · rw [if_pos h, if_pos h, ih]
      congr 1
      apply firstOn_congr
      intro k
      simp only [List.map_cons, List.cons_append, List.mem_cons, List.mem_append]
      constructor
      · exact .inr
      · rintro (rfl | hk)
        · exact .inr h
        · exact hk
    · rw [if_neg h, if_neg h, ih, List.cons_append]
      congr 2
      apply firstOn_congr
      intro k
      simp only [List.map_cons, List.cons_append, List.mem_cons, List.mem_append]
      tauto

theorem firstOn_of_seen (h : ∀ a ∈ l, key a ∈ seen) : firstOn key seen l = [] := by
  induction l with
  | nil => rfl
  | cons a l ih =>
    rw [firstOn, if_pos (h a List.mem_cons_self)]
    exact ih fun b hb => h b (List.mem_cons_of_mem a hb)

theorem firstOn_of_fresh (h : ∀ a ∈ l, key a ∉ seen') : firstOn key (seen ++ seen') l = firstOn key seen l := by
  induction l generalizing seen with
  | nil => rfl
  | cons a l ih =>
    have ha : key a ∈ seen ++ seen' ↔ key a ∈ seen := by
      simp [h a List.mem_cons_self]
    rw [firstOn, firstOn, if_congr ha rfl rfl, ih fun b hb => h b (List.mem_cons_of_mem a hb), ← List.cons_append,
      ih fun b hb => h b (List.mem_cons_of_mem a hb)]

theorem firstOn_sublist : (firstOn key seen l).Sublist l := by
  induction l generalizing seen with
  | nil => exact .slnil
  | cons a l ih =>
    rw [firstOn]
    by_cases h : key a ∈ seen
    · rw [if_pos h]
      exact ih.cons a
    · rw [if_neg h]
      exact ih.cons_cons a

theorem mem_keys_firstOn {k : κ} : k ∈ (firstOn key seen l).map key ↔ k ∈ l.map key ∧ k ∉ seen := by
  induction l generalizing seen with
  | nil => simp [firstOn]
  | cons a l ih =>
    rw [firstOn]
    by_cases h : key a ∈ seen
    · rw [if_pos h, ih, List.map_cons, List.mem_cons]
      constructor
      · exact fun ⟨hk, hs⟩ => ⟨.inr hk, hs⟩
      · rintro ⟨rfl | hk, hs⟩
        · exact absurd h hs
        · exact ⟨hk, hs⟩
    · rw [if_neg h, List.map_cons, List.mem_cons, ih, List.map_cons, List.mem_cons, List.mem_cons]
      by_cases hk : k = key a
      · simp [hk, h]
      · simp [hk]

theorem nodup_keys_firstOn : ((firstOn key seen l).map key).Nodup := by
  induction l generalizing seen with
  | nil => exact List.nodup_nil
  | cons a l ih =>
    rw [firstOn]
    by_cases h : key a ∈ seen
    · rw [if_pos h]
      exact ih
    · rw [if_neg h, List.map_cons, List.nodup_cons, mem_keys_firstOn]
      exact ⟨fun hk => hk.2 List.mem_cons_self, ih⟩

theorem firstOn_of_nodup (h : (l.map key).Nodup) : firstOn key [] l = l := by
  induction l with
  | nil => rfl
  | cons a l ih =>
    rw [List.map_cons, List.nodup_cons] at h
    rw [firstOn, if_neg List.not_mem_nil]
    have hfresh := @firstOn_of_fresh α κ _ key [] [key a] l (fun b hb hk =>
      h.1 (List.mem_singleton.mp hk ▸ List.mem_map_of_mem hb))
    rw [List.nil_append] at hfresh
    rw [hfresh, ih h.2]

theorem firstOn_comp {f : κ → ω} (hf : Function.Injective f) :
    firstOn (fun a => f (key a)) (seen.map f) l = firstOn key seen l := by
  induction l generalizing seen with
  | nil => rfl
  | cons a l ih =>
    rw [firstOn, firstOn, if_congr (List.mem_map_of_injective hf) rfl rfl, ← List.map_cons, ih, ih]

theorem firstOn_map (g : β → α) (m : List β) :
    firstOn key seen (m.map g) = (firstOn (fun b => key (g b)) seen m).map g := by
  induction m generalizing seen with
  | nil => rfl
  | cons b m ih =>
    rw [List.map_cons, firstOn, firstOn, ih, ih, apply_ite (List.map g)]
    rfl

/-- What is left of a choice of keys is the choice of what is left. -/
theorem firstOn_filter {q : κ → Bool} :
    firstOn key seen (l.filter fun a => q (key a)) = (firstOn key seen l).filter fun a => q (key a) := by
  induction l generalizing seen with
  | nil => rfl
  | cons a l ih =>
    rw [List.filter_cons]
    by_cases hq : q (key a) = true
    · rw [if_pos hq, firstOn, firstOn]
      by_cases h : key a ∈ seen
      · rw [if_pos h, if_pos h, ih]
      · rw [if_neg h, if_neg h, List.filter_cons, if_pos hq, ih]
    · rw [if_neg hq, ih, firstOn]
      by_cases h : key a ∈ seen
      · rw [if_pos h]
      · have hsame : (firstOn key seen l).filter (fun a => q (key a)) =
            (firstOn key (key a :: seen) l).filter fun a => q (key a) := by
          rw [← ih, ← ih]
          have hfresh := @firstOn_of_fresh α κ _ key seen [key a] (l.filter fun a => q (key a)) (fun b hb hk =>
            hq (List.mem_singleton.mp hk ▸ (List.mem_filter.mp hb).2))
          rw [← hfresh]
          apply firstOn_congr
          intro k
          simp only [List.mem_append, List.mem_cons, List.not_mem_nil, or_false]
          exact or_comm
        rw [if_neg h, List.filter_cons, if_neg hq, hsame]

theorem firstOn_filterMap {σ : Type} {g : β → Option α} {key' : β → κ} {view : α → σ} {view' : β → σ}
    (hkey : ∀ b a, g b = some a → key a = key' b) (hview : ∀ b a, g b = some a → view a = view' b) (m : List β) :
    (firstOn key seen (m.filterMap g)).map view = (firstOn key' seen (m.filter fun b => (g b).isSome)).map view' := by
  induction m generalizing seen with
  | nil => rfl
  | cons b m ih =>
    cases hb : g b with
    | none =>
      rw [List.filterMap_cons_none hb, List.filter_cons, hb]
      exact ih
    | some a =>
      rw [List.filterMap_cons_some hb, List.filter_cons, hb, firstOn, hkey b a hb]
      simp only [Option.isSome_some, if_true, firstOn]
      by_cases h : key' b ∈ seen
      · rw [if_pos h, if_pos h, ih]
      · rw [if_neg h, if_neg h, List.map_cons, List.map_cons, hview b a hb, ih]

end

omit [DecidableEq κ] [DecidableEq ω] in
theorem flatMap_filter {q : β → Bool} {f f' : β → List α} (h : ∀ x, q x = true → f x = f' x)
    (hnil : ∀ x, ¬ q x = true → f' x = []) (xs : List β) : (xs.filter q).flatMap f = xs.flatMap f' := by
  induction xs with
  | nil => rfl
  | cons x xs ih =>
    rw [List.filter_cons, List.flatMap_cons]
    by_cases hx : q x = true
    · rw [if_pos hx, List.flatMap_cons, h x hx, ih]
    · rw [if_neg hx, hnil x hx, List.nil_append, ih]

/-- Blocks of one key each: the first block of each key is left, without its own
repetitions. -/
theorem firstOn_flatMap {key : α → κ} {outer : β → ω} {block : β → List α} (blockOf : κ → ω)
    (hblock : ∀ x, ∀ a ∈ block x, blockOf (key a) = outer x)
    (hsame : ∀ x y, outer x = outer y → (block x).map key = (block y).map key) (xs : List β) :
    firstOn key [] (xs.flatMap block) = (firstOn outer [] xs).flatMap fun x => firstOn key [] (block x) := by
  have hgen : ∀ (done xs : List β), firstOn key (done.flatMap fun x => (block x).map key) (xs.flatMap block) =
      (firstOn outer (done.map outer) xs).flatMap fun x => firstOn key [] (block x) := by
    intro done xs
    induction xs generalizing done with
    | nil => rfl
    | cons x xs ih =>
      have hnext := ih (x :: done)
      rw [List.flatMap_cons, List.map_cons] at hnext
      rw [List.flatMap_cons, firstOn_append, firstOn]
      by_cases hx : outer x ∈ done.map outer
      · obtain ⟨y, hy, hyx⟩ := List.mem_map.mp hx
        have hseen : ∀ k ∈ (block x).map key, k ∈ done.flatMap fun x => (block x).map key := fun k hk =>
          List.mem_flatMap.mpr ⟨y, hy, hsame y x hyx ▸ hk⟩
        rw [if_pos hx, firstOn_of_seen fun a ha => hseen _ (List.mem_map_of_mem ha), List.nil_append, ← ih done]
        apply firstOn_congr
        intro k
        rw [List.mem_append]
        exact ⟨fun h => h.elim (hseen k) id, .inr⟩
      · rw [if_neg hx, List.flatMap_cons, ← hnext]
        congr 1
        apply @firstOn_of_fresh α κ _ key []
        intro a ha hk
        obtain ⟨y, hy, hk⟩ := List.mem_flatMap.mp hk
        obtain ⟨b, hb, hab⟩ := List.mem_map.mp hk
        apply hx
        rw [← hblock x a ha, ← hab, hblock y b hb]
        exact List.mem_map_of_mem hy
  exact hgen [] xs

omit [DecidableEq κ] [DecidableEq ω] in
theorem nodup_of_no_repeat {key : α → κ} {l : List α}
    (h : ∀ i a, l[i]? = some a → ∀ b ∈ l.take i, key b ≠ key a) : (l.map key).Nodup := by
  rw [List.nodup_iff_pairwise_ne, List.pairwise_map, List.pairwise_iff_getElem]
  intro i j hi hj hij
  apply h j l[j] (List.getElem?_eq_getElem hj)
  rw [List.mem_take_iff_getElem]
  exact ⟨i, by omega, rfl⟩

/-- `a` is the first of the list with key `k`. -/
def IsFirst (key : α → κ) (k : κ) (l : List α) (a : α) : Prop :=
  ∃ before after, l = before ++ a :: after ∧ key a = k ∧ ∀ b ∈ before, key b ≠ k

omit [DecidableEq κ] [DecidableEq ω] in
theorem find?_eq_some_iff {key : α → κ} {k : κ} {p : α → Bool} (hp : ∀ a, p a = true ↔ key a = k) {l : List α} {a : α} :
    l.find? p = some a ↔ IsFirst key k l a := by
  rw [List.find?_eq_some_iff_append, hp]
  constructor
  · rintro ⟨hk, before, after, rfl, hbefore⟩
    refine ⟨before, after, rfl, hk, ?_⟩
    intro b hb hkey
    have := hbefore b hb
    rw [(hp b).mpr hkey] at this
    cases this
  · rintro ⟨before, after, rfl, hk, hbefore⟩
    refine ⟨hk, before, after, rfl, ?_⟩
    intro b hb
    rw [Bool.not_eq_true', ← Bool.not_eq_true, hp]
    exact hbefore b hb

omit [DecidableEq κ] [DecidableEq ω] in
/-- What a search by key finds is the first of the key, and there is no other. -/
theorem find?_isFirst {key : α → κ} {l : List α} {a : α} (ha : a ∈ l) {p : α → Bool} (hp : ∀ b, p b = true ↔ key b = key a) :
    ∃ b, l.find? p = some b ∧ ∀ c, IsFirst key (key a) l c ↔ c = b := by
  obtain ⟨b, hb⟩ := Option.isSome_iff_exists.mp (List.find?_isSome.mpr ⟨a, ha, (hp a).mpr rfl⟩)
  refine ⟨b, hb, ?_⟩
  intro c
  rw [← find?_eq_some_iff hp, hb, Option.some_inj, eq_comm]

end Firsts
