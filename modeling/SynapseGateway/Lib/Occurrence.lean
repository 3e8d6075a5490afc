import Mathlib.Data.List.Perm.Basic
import SynapseGateway.Lib.Utf8

/-!
# Occurrences of a finite set of patterns

`hits pats t` lists every occurrence of every pattern in `t`, by byte offsets.
At a cut that no occurrence straddles, the occurrences of a text are those of
its two parts (`hits_append`), and an occurrence that straddles the end of a
text has fewer characters in it than its pattern has (`hits_straddle`).
-/

namespace Utf8

open String (utf8Len utf8Len_nil utf8Len_cons utf8Len_append)

structure Pattern (ι : Type) where
  text : Text
  nonempty : text ≠ []
  tag : ι

structure Hit (ι : Type) where
  start : Nat
  stop : Nat
  tag : ι
deriving DecidableEq

variable {ι : Type}

def Hit.shift (k : Nat) (h : Hit ι) : Hit ι := ⟨h.start + k, h.stop + k, h.tag⟩

/-- The occurrences in a text that starts at offset `k`. -/
def hitsFrom (pats : List (Pattern ι)) : Nat → Text → List (Hit ι)
  | _, [] => []
  | k, c :: t =>
    (pats.filter fun p => p.text.isPrefixOf (c :: t)).map (fun p => ⟨k, k + utf8Len p.text, p.tag⟩) ++
      hitsFrom pats (k + c.utf8Size) t

def hits (pats : List (Pattern ι)) (t : Text) : List (Hit ι) := hitsFrom pats 0 t

theorem Pattern.utf8Len_pos (p : Pattern ι) : 0 < utf8Len p.text := by
  have := p.nonempty
  have : utf8Len p.text ≠ 0 := by simpa using this
  omega

theorem mem_hitsFrom {pats : List (Pattern ι)} {h : Hit ι} {t : Text} {k : Nat} : h ∈ hitsFrom pats k t ↔
    ∃ p ∈ pats, ∃ a b, t = a ++ (p.text ++ b) ∧
      h = ⟨k + utf8Len a, k + utf8Len a + utf8Len p.text, p.tag⟩ := by
  induction t generalizing k with
  | nil =>
    simp only [hitsFrom, List.not_mem_nil, false_iff]
    intro h
    obtain ⟨p, -, a, b, ht, -⟩ := h
    have := List.append_eq_nil_iff.mp ht.symm
    exact p.nonempty (List.append_eq_nil_iff.mp this.2).1
  | cons c t ih =>
    simp only [hitsFrom, List.mem_append, List.mem_map, List.mem_filter, ih]
    constructor
    · intro h
      obtain ⟨p, ⟨hp, hpre⟩, rfl⟩ | ⟨p, hp, a, b, rfl, rfl⟩ := h
      · obtain ⟨b, hb⟩ := List.isPrefixOf_iff_prefix.mp hpre
        exact ⟨p, hp, [], b, hb.symm, by simp⟩
      · refine ⟨p, hp, c :: a, b, rfl, ?_⟩
        simp only [utf8Len_cons]
        congr 1 <;> omega
    · intro h
      obtain ⟨p, hp, a, b, ht, rfl⟩ := h
      cases a with
      | nil =>
        left
        exact ⟨p, ⟨hp, List.isPrefixOf_iff_prefix.mpr ⟨b, ht.symm⟩⟩, by simp⟩
      | cons d a =>
        rw [List.cons_append, List.cons.injEq] at ht
        obtain ⟨rfl, rfl⟩ := ht
        right
        refine ⟨p, hp, a, b, rfl, ?_⟩
        simp only [utf8Len_cons]
        congr 1 <;> omega

theorem hitsFrom_bounds {pats : List (Pattern ι)} {k : Nat} {t : Text} {h : Hit ι}
    (hm : h ∈ hitsFrom pats k t) : k ≤ h.start ∧ h.start < h.stop ∧ h.stop ≤ k + utf8Len t := by
  obtain ⟨p, -, a, b, rfl, rfl⟩ := mem_hitsFrom.mp hm
  have := p.utf8Len_pos
  simp only [utf8Len_append]
  omega

theorem hitsFrom_shift (pats : List (Pattern ι)) (k : Nat) (t : Text) (j : Nat) :
    hitsFrom pats (k + j) t = (hitsFrom pats j t).map (Hit.shift k) := by
  induction t generalizing j with
  | nil => rfl
  | cons c t ih =>
    simp only [hitsFrom, List.map_append, List.map_map]
    rw [show k + j + c.utf8Size = k + (j + c.utf8Size) by omega, ih]
    congr 1
    apply List.map_congr_left
    intro p _
    simp only [Function.comp, Hit.shift]
    congr 1 <;> omega

theorem hitsFrom_eq_map (pats : List (Pattern ι)) (k : Nat) (t : Text) :
    hitsFrom pats k t = (hits pats t).map (Hit.shift k) := hitsFrom_shift pats k t 0

/-! ## A text cut in two -/

theorem isPrefixOf_append {p a b : Text} :
    (p.isPrefixOf (a ++ b) = true ∧ utf8Len p ≤ utf8Len a) ↔ p.isPrefixOf a = true := by
  simp only [List.isPrefixOf_iff_prefix]
  constructor
  · intro h
    obtain ⟨⟨s, hs⟩, hl⟩ := h
    obtain ⟨m, ha, -⟩ := append_eq_append_of_le hs hl
    exact ⟨m, ha.symm⟩
  · intro h
    obtain ⟨s, rfl⟩ := h
    exact ⟨⟨s ++ b, by simp⟩, by simp⟩

theorem hitsFrom_append_left (pats : List (Pattern ι)) (b a : Text) (k : Nat) :
    (hitsFrom pats k (a ++ b)).filter (fun h => h.stop ≤ k + utf8Len a) = hitsFrom pats k a := by
  induction a generalizing k with
  | nil =>
    rw [List.nil_append, hitsFrom, List.filter_eq_nil_iff]
    intro h hm
    have := hitsFrom_bounds hm
    rw [decide_eq_true_eq, utf8Len_nil]
    omega
  | cons c a ih =>
    simp only [List.cons_append, hitsFrom, List.filter_append]
    congr 1
    · rw [List.filter_map, List.filter_filter]
      congr 1
      apply List.filter_congr
      intro p _
      simp only [Function.comp]
      rw [Bool.eq_iff_iff, Bool.and_eq_true, decide_eq_true_eq, ← List.cons_append,
        ← isPrefixOf_append (a := c :: a) (b := b)]
      constructor
      · rintro ⟨h1, h2⟩; exact ⟨h2, by omega⟩
      · rintro ⟨h1, h2⟩; exact ⟨by omega, h1⟩
    · rw [← ih (k + c.utf8Size)]
      apply List.filter_congr
      intro h _
      rw [Bool.eq_iff_iff, decide_eq_true_eq, decide_eq_true_eq, utf8Len_cons]
      omega

theorem hitsFrom_append_right (pats : List (Pattern ι)) (b a : Text) (k : Nat) :
    (hitsFrom pats k (a ++ b)).filter (fun h => k + utf8Len a ≤ h.start) = hitsFrom pats (k + utf8Len a) b := by
  induction a generalizing k with
  | nil =>
    rw [List.nil_append, utf8Len_nil, Nat.add_zero, List.filter_eq_self]
    intro h hm
    exact decide_eq_true (hitsFrom_bounds hm).1
  | cons c a ih =>
    simp only [List.cons_append, hitsFrom, List.filter_append]
    have hnil : ((pats.filter fun p => p.text.isPrefixOf (c :: (a ++ b))).map
        (fun p => (⟨k, k + utf8Len p.text, p.tag⟩ : Hit ι))).filter
          (fun h => k + utf8Len (c :: a) ≤ h.start) = [] := by
      have hc := c.utf8Size_pos
      rw [List.filter_eq_nil_iff]
      intro h hm
      obtain ⟨p, -, rfl⟩ := List.mem_map.mp hm
      rw [decide_eq_true_eq, utf8Len_cons]
      show ¬ k + (utf8Len a + c.utf8Size) ≤ k
      omega
    rw [hnil, List.nil_append, utf8Len_cons,
      show k + (utf8Len a + c.utf8Size) = k + c.utf8Size + utf8Len a by omega,
      ih (k + c.utf8Size)]

/-- Cut `c` falls strictly inside the occurrence. -/
def Hit.Crosses (c : Nat) (h : Hit ι) : Prop := h.start < c ∧ c < h.stop

instance (c : Nat) (h : Hit ι) : Decidable (h.Crosses c) := inferInstanceAs (Decidable (_ ∧ _))

theorem hits_append {pats : List (Pattern ι)} {a b : Text}
    (hc : ∀ h ∈ hits pats (a ++ b), ¬ h.Crosses (utf8Len a)) :
    (hits pats (a ++ b)).Perm (hits pats a ++ (hits pats b).map (Hit.shift (utf8Len a))) := by
  have hl := hitsFrom_append_left pats b a 0
  have hr := hitsFrom_append_right pats b a 0
  rw [Nat.zero_add] at hl hr
  rw [← hitsFrom_eq_map, ← hr]
  conv_rhs => rw [hits, ← hl]
  refine (List.filter_append_perm (fun h => h.stop ≤ utf8Len a) _).symm.trans ?_
  rw [show hits pats (a ++ b) = hitsFrom pats 0 (a ++ b) from rfl] at hc ⊢
  refine List.Perm.append_left _ (List.Perm.of_eq (List.filter_congr fun h hm => ?_))
  have hb := hitsFrom_bounds hm
  have hx := hc h hm
  rw [Hit.Crosses] at hx
  rw [Bool.eq_iff_iff, Bool.not_eq_true', decide_eq_false_iff_not, decide_eq_true_eq]
  omega

theorem mem_hits_append_left {pats : List (Pattern ι)} {a b : Text} {h : Hit ι} :
    h ∈ hits pats a ↔ h ∈ hits pats (a ++ b) ∧ h.stop ≤ utf8Len a := by
  have := hitsFrom_append_left pats b a 0
  rw [hits, ← this, List.mem_filter, decide_eq_true_eq, Nat.zero_add, hits]

theorem mem_hits_append_right {pats : List (Pattern ι)} {a b : Text} {h : Hit ι} :
    h ∈ (hits pats b).map (Hit.shift (utf8Len a)) ↔ h ∈ hits pats (a ++ b) ∧ utf8Len a ≤ h.start := by
  have := hitsFrom_append_right pats b a 0
  rw [Nat.zero_add] at this
  rw [← hitsFrom_eq_map, ← this, List.mem_filter, decide_eq_true_eq, hits]

/-- An occurrence that starts in `a` and ends after it has only part of its
pattern's characters in `a`. -/
theorem hits_straddle {pats : List (Pattern ι)} {a f : Text} {h : Hit ι} (hm : h ∈ hits pats (a ++ f))
    (hc : h.Crosses (utf8Len a)) :
    ∃ p ∈ pats, ∃ x m, a = x ++ m ∧ utf8Len x = h.start ∧ m.length < p.text.length := by
  obtain ⟨p, hp, x, y, ht, rfl⟩ := mem_hitsFrom.mp hm
  simp only [Hit.Crosses, Nat.zero_add] at hc
  obtain ⟨m, ha, hpy⟩ := append_eq_append_of_le ht.symm (Nat.le_of_lt hc.1)
  have hml : utf8Len m < utf8Len p.text := by
    have := congrArg utf8Len ha
    rw [utf8Len_append] at this
    omega
  obtain ⟨m', hp', -⟩ := append_eq_append_of_le hpy.symm (Nat.le_of_lt hml)
  refine ⟨p, hp, x, m, ha, by simp, ?_⟩
  have hne : m' ≠ [] := by
    rintro rfl
    rw [hp', List.append_nil] at hml
    omega
  rw [hp', List.length_append]
  have := List.length_pos_iff.mpr hne
  omega

end Utf8
