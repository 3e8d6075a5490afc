import Mathlib.Data.List.AList
import Mathlib.Data.List.Induction

/-!
# Maps filled in any order

A list of entries put into a map one after the other: of the entries for a key
the last one stays. The order does not show exactly when entries for one key
agree.
-/

namespace Inserts

variable {κ α β : Type} [DecidableEq κ]

def fill (m : AList fun _ : κ => β) (es : List (κ × β)) : AList fun _ : κ => β := es.foldl (fun m e => m.insert e.1 e.2) m

/-- Entries for one key have one value. -/
def Agree (es : List (κ × β)) : Prop := ∀ k b b', (k, b) ∈ es → (k, b') ∈ es → b = b'

theorem lookup_fill_snoc (m : AList fun _ : κ => β) (es : List (κ × β)) (e : κ × β) (k : κ) :
    (fill m (es ++ [e])).lookup k = if k = e.1 then some e.2 else (fill m es).lookup k := by
  unfold fill
  rw [List.foldl_append]
  simp only [List.foldl_cons, List.foldl_nil]
  split
  · rename_i hk
    rw [hk, AList.lookup_insert]
  · rename_i hk
    rw [AList.lookup_insert_ne hk]

theorem lookup_fill_none {es : List (κ × β)} {k : κ} (h : ∀ b, (k, b) ∉ es) (m : AList fun _ : κ => β) :
    (fill m es).lookup k = m.lookup k := by
  induction es using List.reverseRecOn with
  | nil => rfl
  | append_singleton es e ih =>
    have hk : k ≠ e.1 := by
      rintro rfl
      exact h e.2 (List.mem_append_right es List.mem_cons_self)
    rw [lookup_fill_snoc, if_neg hk]
    exact ih fun b hb => h b (List.mem_append_left _ hb)

theorem lookup_fill_mem {es : List (κ × β)} (h : Agree es) {k : κ} {b : β} (hb : (k, b) ∈ es) (m : AList fun _ : κ => β) :
    (fill m es).lookup k = some b := by
  induction es using List.reverseRecOn with
  | nil => cases hb
  | append_singleton es e ih =>
    rw [lookup_fill_snoc]
    split
    · rename_i hk
      have he : (k, e.2) ∈ es ++ [e] := by simp [hk]
      rw [h k e.2 b he hb]
    · rename_i hk
      have hes : (k, b) ∈ es := by
        rcases List.mem_append.mp hb with hb | hb
        · exact hb
        · rw [List.mem_singleton] at hb
          exact absurd (congrArg Prod.fst hb) hk
      exact ih (fun k b b' hb hb' => h k b b' (List.mem_append_left _ hb) (List.mem_append_left _ hb')) hes

omit [DecidableEq κ] in
theorem Agree.perm {es es' : List (κ × β)} (h : Agree es) (hp : es'.Perm es) : Agree es' :=
  fun k b b' hb hb' => h k b b' (hp.mem_iff.mp hb) (hp.mem_iff.mp hb')

theorem fill_perm {es es' : List (κ × β)} (h : Agree es) (hp : es'.Perm es) (m : AList fun _ : κ => β) (k : κ) :
    (fill m es').lookup k = (fill m es).lookup k := by
  by_cases hk : ∃ b, (k, b) ∈ es
  · obtain ⟨b, hb⟩ := hk
    rw [lookup_fill_mem h hb, lookup_fill_mem (h.perm hp) (hp.mem_iff.mpr hb)]
  · have hnone : ∀ b, (k, b) ∉ es := fun b hb => hk ⟨b, hb⟩
    rw [lookup_fill_none hnone, lookup_fill_none fun b hb => hnone b (hp.mem_iff.mp hb)]

/-- The order of some entries does not show exactly when those they come to agree. -/
theorem fill_perm_iff [DecidableEq α] (f : α → Option (κ × β)) (l : List α) :
    (∀ l' : List α, l'.Perm l → ∀ (m : AList fun _ : κ => β) (k : κ),
      (fill m (l'.filterMap f)).lookup k = (fill m (l.filterMap f)).lookup k) ↔ Agree (l.filterMap f) := by
  constructor
  · intro h k b b' hb hb'
    -- an entry that comes last is the one that stays
    have last : ∀ b, (k, b) ∈ l.filterMap f → (fill ∅ (l.filterMap f)).lookup k = some b := by
      intro b hb
      obtain ⟨a, ha, hfa⟩ := List.mem_filterMap.mp hb
      have hperm : (l.erase a ++ [a]).Perm l := List.perm_append_singleton a (l.erase a) |>.trans (List.perm_cons_erase ha).symm
      rw [← h _ hperm, List.filterMap_append, List.filterMap_cons_some hfa, List.filterMap_nil, lookup_fill_snoc, if_pos rfl]
    exact Option.some.inj ((last b hb).symm.trans (last b' hb'))
  · intro h l' hp m k
    exact fill_perm h (hp.filterMap f) m k

end Inserts
