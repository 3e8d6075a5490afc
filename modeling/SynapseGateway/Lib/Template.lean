import Mathlib.Data.List.Infix
import Mathlib.Algebra.GroupWithZero.Nat

/-!
# Words replaced in a text

Each occurrence of a word is replaced from left to right. Two kinds of slots of a
template are filled at once, or one kind after the other; `twice_eq_fill_iff` says
when this makes no difference.
-/

namespace Template

variable {α : Type} [DecidableEq α]

/-- The next `skip` letters are of a word that is replaced already. -/
def replaceFrom (w new : List α) : Nat → List α → List α
  | _, [] => []
  | skip + 1, _ :: t => replaceFrom w new skip t
  | 0, c :: t => if w <+: c :: t then new ++ replaceFrom w new (w.length - 1) t else c :: replaceFrom w new 0 t

def replaceWord (w new t : List α) : List α := replaceFrom w new 0 t

/-- The slots `k` and `p` filled in one pass. -/
def fillFrom (k p key text : List α) : Nat → List α → List α
  | _, [] => []
  | skip + 1, _ :: t => fillFrom k p key text skip t
  | 0, c :: t =>
    if k <+: c :: t then key ++ fillFrom k p key text (k.length - 1) t
    else if p <+: c :: t then text ++ fillFrom k p key text (p.length - 1) t
    else c :: fillFrom k p key text 0 t

def fill (k p key text t : List α) : List α := fillFrom k p key text 0 t

/-- The places where the word begins. -/
def occurrences (w : List α) : List α → Nat
  | [] => 0
  | c :: t => (if w <+: c :: t then 1 else 0) + occurrences w t

/-- Where `q` begins before `p` and they meet, `q` ends first. -/
def Apart (q p : List α) : Prop := ∀ n < q.length, 0 < n → ¬ q.drop n <+: p ∧ ¬ p <+: q.drop n

/-- `q` does not begin within `p`. -/
def Without (q p : List α) : Prop := ∀ n < p.length, ¬ p.drop n <+: q ∧ ¬ q <+: p.drop n

instance (q p : List α) : Decidable (Apart q p) :=
  inferInstanceAs (Decidable (∀ n < q.length, 0 < n → ¬ q.drop n <+: p ∧ ¬ p <+: q.drop n))

instance (q p : List α) : Decidable (Without q p) :=
  inferInstanceAs (Decidable (∀ n < p.length, ¬ p.drop n <+: q ∧ ¬ q <+: p.drop n))

/-! ## One word -/

section
variable {w new p q a s t : List α}

theorem replaceFrom_eq_drop (n : Nat) (t : List α) : replaceFrom w new n t = replaceWord w new (t.drop n) := by
  induction n generalizing t with
  | zero => rfl
  | succ n ih =>
    cases t with
    | nil => rfl
    | cons c t => exact ih t

omit [DecidableEq α] in
theorem drop_length_cons (hw : w ≠ []) (c : α) (t : List α) : t.drop (w.length - 1) = (c :: t).drop w.length := by
  obtain ⟨x, w, rfl⟩ := List.exists_cons_of_ne_nil hw
  rfl

theorem replaceWord_begins (hw : w ≠ []) (h : w <+: t) (ht : t ≠ []) :
    replaceWord w new t = new ++ replaceWord w new (t.drop w.length) := by
  obtain ⟨c, t, rfl⟩ := List.exists_cons_of_ne_nil ht
  rw [replaceWord, replaceFrom, if_pos h, replaceFrom_eq_drop, drop_length_cons hw c]

theorem replaceWord_cons {c : α} (h : ¬ w <+: c :: t) : replaceWord w new (c :: t) = c :: replaceWord w new t := by
  rw [replaceWord, replaceFrom, if_neg h]
  rfl

theorem replaceWord_append_self (hw : w ≠ []) (r : List α) :
    replaceWord w new (w ++ r) = new ++ replaceWord w new r := by
  rw [replaceWord_begins hw (List.prefix_append w r) (by simp [hw]), List.drop_left]

/-- `s` is nothing or begins with the word. -/
def Begins (p s : List α) : Prop := s = [] ∨ p <+: s

omit [DecidableEq α] in
theorem begins_append (p r : List α) : Begins p (p ++ r) := .inr (List.prefix_append p r)

omit [DecidableEq α] in
theorem begins_nil (p : List α) : Begins p [] := .inl rfl

omit [DecidableEq α] in
/-- A word that stays apart from `p` does not reach over to it. -/
theorem prefix_append_iff (hqp : Apart q p) (hs : Begins p s) (ha : a ≠ []) : q <+: a ++ s ↔ q <+: a := by
  refine ⟨fun h => ?_, fun h => h.trans (List.prefix_append a s)⟩
  rcases hs with rfl | hs
  · rwa [List.append_nil] at h
  by_cases hlen : q.length ≤ a.length
  · exact List.prefix_of_prefix_length_le h (List.prefix_append a s) hlen
  · obtain ⟨x, rfl⟩ := List.prefix_of_prefix_length_le (List.prefix_append a s) h (by omega)
    have hx : x <+: s := (List.prefix_append_right_inj a).mp h
    have hdrop : (a ++ x).drop a.length = x := List.drop_left
    obtain ⟨hno, hno'⟩ := hqp a.length (by omega) (List.length_pos_iff.mpr ha)
    rw [hdrop] at hno hno'
    rcases List.prefix_or_prefix_of_prefix hx hs with h | h
    · exact absurd h hno
    · exact absurd h hno'

theorem replaceWord_append (hq : q ≠ []) (hqp : Apart q p) (hs : Begins p s) :
    replaceWord q new (a ++ s) = replaceWord q new a ++ replaceWord q new s := by
  induction hn : a.length using Nat.strong_induction_on generalizing a with
  | _ n ih =>
    subst hn
    cases a with
    | nil => rfl
    | cons c a =>
      have hiff := prefix_append_iff hqp hs (List.cons_ne_nil c a)
      have hpos := List.length_pos_iff.mpr hq
      by_cases h : q <+: c :: a
      · have hdrop : (c :: a ++ s).drop q.length = (c :: a).drop q.length ++ s :=
          List.drop_append_of_le_length h.length_le
        rw [replaceWord_begins hq (hiff.mpr h) (by simp), replaceWord_begins hq h (by simp), hdrop,
          ih _ (by rw [List.length_drop, List.length_cons]; omega) rfl, List.append_assoc]
      · rw [List.cons_append] at hiff
        rw [replaceWord_cons h, List.cons_append, replaceWord_cons fun hall => h (hiff.mp hall),
          ih a.length (by simp) rfl, List.cons_append]

omit [DecidableEq α] in
theorem Without.not_here {c : α} (h : Without q (c :: p)) (r : List α) : ¬ q <+: c :: (p ++ r) := by
  intro hq
  obtain ⟨hpq, hqp⟩ := h 0 (by simp)
  rcases List.prefix_or_prefix_of_prefix hq (List.prefix_append (c :: p) r) with hle | hle
  · exact hqp hle
  · exact hpq hle

omit [DecidableEq α] in
theorem Without.tail {c : α} (h : Without q (c :: p)) : Without q p := fun n hn => h (n + 1) (by simpa using hn)

theorem replaceWord_through (h : Without q p) (r : List α) : replaceWord q new (p ++ r) = p ++ replaceWord q new r := by
  induction p with
  | nil => rfl
  | cons c p ih =>
    rw [List.cons_append, replaceWord_cons (h.not_here r), ih h.tail, List.cons_append]

theorem replaceWord_free (h : ¬ w <:+: t) : replaceWord w new t = t := by
  induction t with
  | nil => rfl
  | cons c t ih =>
    rw [replaceWord_cons fun hp => h hp.isInfix, ih fun hi => h (hi.trans (List.suffix_cons c t).isInfix)]

/-! ## Occurrences -/

theorem occurrences_append (hp : Apart p p) (hs : Begins p s) :
    occurrences p (a ++ s) = occurrences p a + occurrences p s := by
  induction a with
  | nil => simp [occurrences]
  | cons c a ih =>
    have hiff := prefix_append_iff hp hs (List.cons_ne_nil c a)
    rw [List.cons_append] at hiff ⊢
    rw [occurrences, occurrences, ih, if_congr hiff rfl rfl, Nat.add_assoc]

theorem occurrences_through (h : Without q p) (r : List α) : occurrences q (p ++ r) = occurrences q r := by
  induction p with
  | nil => rfl
  | cons c p ih =>
    rw [List.cons_append, occurrences, if_neg (h.not_here r), Nat.zero_add, ih h.tail]

theorem occurrences_self (hp : p ≠ []) (hpp : Apart p p) (r : List α) :
    occurrences p (p ++ r) = 1 + occurrences p r := by
  obtain ⟨c, p', rfl⟩ := List.exists_cons_of_ne_nil hp
  have htail : Without (c :: p') p' := fun n hn => hpp (n + 1) (by simpa using hn) (Nat.succ_pos n)
  have hself : c :: p' <+: c :: (p' ++ r) := List.prefix_append (c :: p') r
  rw [List.cons_append, occurrences, if_pos hself, occurrences_through htail]

theorem occurrences_eq_zero (hw : w ≠ []) : occurrences w t = 0 ↔ ¬ w <:+: t := by
  induction t with
  | nil => simp [occurrences, hw]
  | cons c t ih =>
    rw [occurrences, Nat.add_eq_zero_iff, ih, List.infix_cons_iff, not_or]
    apply and_congr_left
    intro _
    by_cases h : w <+: c :: t
    · simp [h]
    · simp [h]

end

/-! ## Two kinds of slots -/

/-- Two words whose occurrences never overlap. -/
structure Slots (k p : List α) : Prop where
  key_ne : k ≠ []
  text_ne : p ≠ []
  key_text : Apart k p
  text_text : Apart p p
  text_key : Without k p

section
variable {k p key text a s : List α}

theorem fillFrom_eq_drop (n : Nat) (t : List α) : fillFrom k p key text n t = fill k p key text (t.drop n) := by
  induction n generalizing t with
  | zero => rfl
  | succ n ih =>
    cases t with
    | nil => rfl
    | cons c t => exact ih t

theorem fill_cons_key {c : α} {t : List α} (hk : k ≠ []) (h : k <+: c :: t) :
    fill k p key text (c :: t) = key ++ fill k p key text ((c :: t).drop k.length) := by
  rw [fill, fillFrom, if_pos h, fillFrom_eq_drop, drop_length_cons hk c]

theorem fill_cons {c : α} {t : List α} (hk : ¬ k <+: c :: t) (hp : ¬ p <+: c :: t) :
    fill k p key text (c :: t) = c :: fill k p key text t := by
  rw [fill, fillFrom, if_neg hk, if_neg hp]
  rfl

theorem Slots.fill_text (h : Slots k p) (r : List α) :
    fill k p key text (p ++ r) = text ++ fill k p key text r := by
  obtain ⟨c, p', hp⟩ := List.exists_cons_of_ne_nil h.text_ne
  have hk : ¬ k <+: c :: (p' ++ r) := (hp ▸ h.text_key).not_here r
  have hself : p <+: c :: (p' ++ r) := by
    rw [← List.cons_append, ← hp]
    exact List.prefix_append p r
  have hdrop : (c :: (p' ++ r)).drop p.length = r := by
    rw [← List.cons_append, ← hp, List.drop_left]
  rw [hp, List.cons_append, fill, fillFrom, ← hp, if_neg hk, if_pos hself, fillFrom_eq_drop,
    drop_length_cons h.text_ne c, hdrop]

/-- Before the first text slot there are keys to fill in. -/
theorem Slots.fill_append (h : Slots k p) (ha : ¬ p <:+: a) (hs : Begins p s) :
    fill k p key text (a ++ s) = replaceWord k key a ++ fill k p key text s := by
  induction hn : a.length using Nat.strong_induction_on generalizing a with
  | _ n ih =>
    subst hn
    cases a with
    | nil => rfl
    | cons c a =>
      have hkey := prefix_append_iff h.key_text hs (List.cons_ne_nil c a)
      have htext := prefix_append_iff h.text_text hs (List.cons_ne_nil c a)
      have hpos := List.length_pos_iff.mpr h.key_ne
      rw [List.cons_append] at hkey htext ⊢
      by_cases hk : k <+: c :: a
      · have hdrop : (c :: (a ++ s)).drop k.length = (c :: a).drop k.length ++ s :=
          List.drop_append_of_le_length hk.length_le
        have hfree : ¬ p <:+: (c :: a).drop k.length := fun hi => ha (hi.trans (List.drop_suffix _ _).isInfix)
        rw [fill_cons_key h.key_ne (hkey.mpr hk), replaceWord_begins h.key_ne hk (by simp), hdrop,
          ih _ (by rw [List.length_drop, List.length_cons]; omega) hfree rfl, List.append_assoc]
      · have hp : ¬ p <+: c :: a := fun hp => ha hp.isInfix
        have hfree : ¬ p <:+: a := fun hi => ha (hi.trans (List.suffix_cons c a).isInfix)
        rw [fill_cons (fun hall => hk (hkey.mp hall)) (fun hall => hp (htext.mp hall)), replaceWord_cons hk,
          ih a.length (by simp) hfree rfl, List.cons_append]

theorem first_occurrence (hp : p ≠ []) (t : List α) :
    ¬ p <:+: t ∨ ∃ a r, t = a ++ (p ++ r) ∧ ¬ p <:+: a := by
  induction t with
  | nil => exact .inl (by simp [hp])
  | cons c t ih =>
    by_cases hc : p <+: c :: t
    · obtain ⟨r, hr⟩ := hc
      exact .inr ⟨[], r, hr.symm, by simp [hp]⟩
    · rcases ih with hfree | ⟨a, r, rfl, hfree⟩
      · left
        rw [List.infix_cons_iff, not_or]
        exact ⟨hc, hfree⟩
      · refine .inr ⟨c :: a, r, rfl, ?_⟩
        rw [List.infix_cons_iff, not_or]
        refine ⟨fun hpa => hc ?_, hfree⟩
        exact hpa.trans (List.prefix_append (c :: a) (p ++ r))

/-- Induction from one occurrence of `p` to the next. -/
theorem stretches {motive : List α → Prop} (hp : p ≠ []) (hfree : ∀ a, ¬ p <:+: a → motive a)
    (hcut : ∀ a r, ¬ p <:+: a → motive r → motive (a ++ (p ++ r))) (t : List α) : motive t := by
  induction hn : t.length using Nat.strong_induction_on generalizing t with
  | _ n ih =>
    subst hn
    rcases first_occurrence hp t with h | ⟨a, r, rfl, ha⟩
    · exact hfree t h
    · have hpos := List.length_pos_iff.mpr hp
      exact hcut a r ha (ih r.length (by rw [List.length_append, List.length_append]; omega) r rfl)

/-! ## One kind after the other -/

theorem Slots.fill_free (h : Slots k p) (ha : ¬ p <:+: a) : fill k p key text a = replaceWord k key a := by
  have hnil : fill k p key text (a ++ []) = replaceWord k key a ++ fill k p key text [] := h.fill_append ha (begins_nil p)
  rwa [List.append_nil, show fill k p key text [] = [] from rfl, List.append_nil] at hnil

theorem Slots.fill_cut (h : Slots k p) (ha : ¬ p <:+: a) (r : List α) :
    fill k p key text (a ++ (p ++ r)) = replaceWord k key a ++ (text ++ fill k p key text r) := by
  rw [h.fill_append ha (begins_append p r), h.fill_text]

theorem Slots.replaceKey_cut (h : Slots k p) (a r : List α) :
    replaceWord k key (a ++ (p ++ r)) = replaceWord k key a ++ (p ++ replaceWord k key r) := by
  rw [replaceWord_append h.key_ne h.key_text (begins_append p r), replaceWord_through h.text_key]

theorem Slots.replaceText_cut (h : Slots k p) (a r : List α) :
    replaceWord p text (a ++ (p ++ r)) = replaceWord p text a ++ (text ++ replaceWord p text r) := by
  rw [replaceWord_append h.text_ne h.text_text (begins_append p r), replaceWord_append_self h.text_ne]

theorem Slots.replaceText_self (h : Slots k p) (t : List α) : replaceWord p p t = t := by
  induction t using stretches h.text_ne with
  | hfree a ha => exact replaceWord_free ha
  | hcut a r ha ih => rw [h.replaceText_cut, replaceWord_free ha, ih]

theorem Slots.occurrences_cut (h : Slots k p) (a r : List α) :
    occurrences p (a ++ (p ++ r)) = occurrences p a + (1 + occurrences p r) := by
  rw [occurrences_append h.text_text (begins_append p r), occurrences_self h.text_ne h.text_text]

theorem Slots.fill_keys (h : Slots k p) (t : List α) : fill k p key p t = replaceWord k key t := by
  induction t using stretches h.text_ne with
  | hfree a ha => exact h.fill_free ha
  | hcut a r ha ih => rw [h.fill_cut ha, h.replaceKey_cut, ih]

theorem Slots.length_replaceText (h : Slots k p) (t : List α) :
    (replaceWord p text t).length + occurrences p t * p.length = t.length + occurrences p t * text.length := by
  induction t using stretches h.text_ne with
  | hfree a ha => rw [replaceWord_free ha, (occurrences_eq_zero h.text_ne).mpr ha, Nat.zero_mul, Nat.zero_mul]
  | hcut a r ha ih =>
    rw [h.replaceText_cut, h.occurrences_cut, replaceWord_free ha, (occurrences_eq_zero h.text_ne).mpr ha]
    simp only [List.length_append, Nat.zero_add, Nat.add_mul, Nat.one_mul]
    omega

theorem Slots.length_fill (h : Slots k p) (t : List α) :
    (fill k p key text t).length + occurrences p t * p.length =
      (replaceWord k key t).length + occurrences p t * text.length := by
  induction t using stretches h.text_ne with
  | hfree a ha => rw [h.fill_free ha, (occurrences_eq_zero h.text_ne).mpr ha, Nat.zero_mul, Nat.zero_mul]
  | hcut a r ha ih =>
    rw [h.fill_cut ha, h.replaceKey_cut, h.occurrences_cut, (occurrences_eq_zero h.text_ne).mpr ha]
    simp only [List.length_append, Nat.zero_add, Nat.add_mul, Nat.one_mul]
    omega

theorem Slots.occurrences_le (h : Slots k p) (t : List α) : occurrences p t ≤ occurrences p (replaceWord k key t) := by
  induction t using stretches h.text_ne with
  | hfree a ha =>
    rw [(occurrences_eq_zero h.text_ne).mpr ha]
    exact Nat.zero_le _
  | hcut a r ha ih =>
    rw [h.replaceKey_cut, h.occurrences_cut, h.occurrences_cut, (occurrences_eq_zero h.text_ne).mpr ha]
    omega

theorem Slots.twice_eq_fill (h : Slots k p) {t : List α}
    (heq : occurrences p (replaceWord k key t) = occurrences p t) :
    replaceWord p text (replaceWord k key t) = fill k p key text t := by
  induction t using stretches h.text_ne with
  | hfree a ha =>
    rw [(occurrences_eq_zero h.text_ne).mpr ha, occurrences_eq_zero h.text_ne] at heq
    rw [h.fill_free ha, replaceWord_free heq]
  | hcut a r ha ih =>
    have hle : occurrences p r ≤ occurrences p (replaceWord k key r) := h.occurrences_le r
    rw [h.replaceKey_cut, h.occurrences_cut, h.occurrences_cut, (occurrences_eq_zero h.text_ne).mpr ha] at heq
    have hfree : ¬ p <:+: replaceWord k key a := (occurrences_eq_zero h.text_ne).mp (by omega)
    rw [h.replaceKey_cut, h.replaceText_cut, h.fill_cut ha, replaceWord_free hfree, ih (by omega)]

/-- Texts of the length of the slot keep the places, so what differs shows. -/
theorem Slots.slot_of_twice_eq (h : Slots k p) (hlen : text.length = p.length) {t : List α}
    (heq : replaceWord p text (replaceWord k key t) = fill k p key text t) :
    text = p ∨ occurrences p (replaceWord k key t) = occurrences p t := by
  have hsame : ∀ u, (replaceWord p text u).length = u.length := by
    intro u
    have hu : (replaceWord p text u).length + occurrences p u * p.length = u.length + occurrences p u * text.length :=
      h.length_replaceText u
    rw [hlen] at hu
    omega
  have hkept : ∀ u, replaceWord p text u = u → text = p ∨ occurrences p u = 0 := by
    intro u hu
    rcases first_occurrence h.text_ne u with hfree | ⟨b, r, rfl, hfree⟩
    · exact .inr ((occurrences_eq_zero h.text_ne).mpr hfree)
    · rw [h.replaceText_cut, replaceWord_free hfree, List.append_cancel_left_eq] at hu
      exact .inl (List.append_inj_left hu hlen)
  induction t using stretches h.text_ne with
  | hfree a ha =>
    rw [h.fill_free ha] at heq
    rw [(occurrences_eq_zero h.text_ne).mpr ha]
    exact hkept _ heq
  | hcut a r ha ih =>
    rw [h.replaceKey_cut, h.replaceText_cut, h.fill_cut ha] at heq
    obtain ⟨hleft, hright⟩ := List.append_inj heq (hsame _)
    rw [List.append_cancel_left_eq] at hright
    rw [h.replaceKey_cut, h.occurrences_cut, h.occurrences_cut, (occurrences_eq_zero h.text_ne).mpr ha]
    rcases hkept _ hleft with hslot | hzero
    · exact .inl hslot
    · rcases ih hright with hslot | hr
      · exact .inl hslot
      · right
        omega

theorem twice_eq_fill_iff (h : Slots k p) (key text t : List α) :
    replaceWord p text (replaceWord k key t) = fill k p key text t ↔
      text = p ∨ occurrences p (fill k p key p t) = occurrences p t := by
  rw [h.fill_keys]
  constructor
  · intro heq
    by_cases hlen : text.length = p.length
    · exact h.slot_of_twice_eq hlen heq
    · right
      have hle : occurrences p t ≤ occurrences p (replaceWord k key t) := h.occurrences_le t
      have htwice := @Slots.length_replaceText α _ k p text h (replaceWord k key t)
      have hfill := @Slots.length_fill α _ k p key text h t
      rw [heq] at htwice
      by_contra hne
      obtain ⟨e, he⟩ := Nat.exists_eq_add_of_lt (Nat.lt_of_le_of_ne hle (Ne.symm hne))
      rw [he] at htwice
      have hmul : (e + 1) * p.length = (e + 1) * text.length := by
        have hsplit : occurrences p t + e + 1 = occurrences p t + (e + 1) := by omega
        simp only [hsplit, Nat.add_mul (occurrences p t)] at htwice
        omega
      exact hlen (Nat.eq_of_mul_eq_mul_left (Nat.succ_pos e) hmul).symm
  · rintro (rfl | heq)
    · rw [h.fill_keys, h.replaceText_self]
    · exact h.twice_eq_fill heq

end

end Template
