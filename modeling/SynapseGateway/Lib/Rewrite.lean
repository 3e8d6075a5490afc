import Mathlib.Algebra.GroupWithZero.Nat
import SynapseGateway.Lib.Utf8

/-!
# Rewriting disjoint ranges of a text

`rewriteFrom` replaces a list of increasing ranges from left to right, in a
text that starts at a given offset. Replacing them one by one from the last to
the first in place gives the same text (`replaceAll_eq`), and rewriting
commutes with cutting the text where no range straddles the cut
(`rewriteFrom_append`).
-/

namespace Utf8

open String (utf8Len utf8Len_append)

structure Edit where
  start : Nat
  stop : Nat
  text : Text

def Edit.shift (k : Nat) (e : Edit) : Edit := ⟨e.start + k, e.stop + k, e.text⟩

def rewriteFrom : Nat → Text → List Edit → Text
  | _, t, [] => t
  | k, t, e :: es => takeBytes (e.start - k) t ++ (e.text ++ rewriteFrom e.stop (dropBytes (e.stop - k) t) es)

/-- The edits are increasing cuts of a text that starts at offset `k`. -/
def Fits : Nat → Text → List Edit → Prop
  | _, _, [] => True
  | k, t, e :: es => k ≤ e.start ∧ e.start ≤ e.stop ∧ Boundary (e.start - k) t ∧ Boundary (e.stop - k) t ∧
      Fits e.stop (dropBytes (e.stop - k) t) es

/-- The edits made in place, the last one first. -/
def replaceAll (t : Text) (es : List Edit) : Text :=
  es.foldr (fun e t => replaceRange t e.start e.stop e.text) t

/-! ## Boundaries -/

theorem Boundary.le {n : Nat} {t : Text} (h : Boundary n t) : n ≤ utf8Len t := by
  obtain ⟨a, b, rfl, rfl⟩ := boundary_iff.mp h
  rw [utf8Len_append]; omega

theorem Boundary.utf8Len_dropBytes {n : Nat} {t : Text} (h : Boundary n t) :
    utf8Len (dropBytes n t) = utf8Len t - n := by
  obtain ⟨a, b, rfl, rfl⟩ := boundary_iff.mp h
  rw [dropBytes_utf8Len_append, utf8Len_append]; omega

theorem boundary_dropBytes {m n : Nat} {t : Text} (hm : Boundary m t) (hn : Boundary n t) (h : m ≤ n) :
    Boundary (n - m) (dropBytes m t) := by
  obtain ⟨a, b, rfl, rfl⟩ := boundary_iff.mp hm
  obtain ⟨c, d, ht, rfl⟩ := boundary_iff.mp hn
  obtain ⟨x, rfl, rfl⟩ := append_eq_append_of_le ht h
  rw [dropBytes_utf8Len_append, utf8Len_append, Nat.add_sub_cancel_left]
  exact boundary_append x d

theorem Boundary.append {n : Nat} {a : Text} (h : Boundary n a) (b : Text) : Boundary n (a ++ b) := by
  rw [Boundary, takeBytes_append_le a b h.le]; exact h

theorem takeBytes_add {m n : Nat} {t : Text} (hm : Boundary m t) (h : m ≤ n) :
    takeBytes m t ++ takeBytes (n - m) (dropBytes m t) = takeBytes n t := by
  obtain ⟨a, b, rfl, rfl⟩ := boundary_iff.mp hm
  rw [takeBytes_utf8Len_append, dropBytes_utf8Len_append, takeBytes_append_ge a b h]

theorem dropBytes_add {m n : Nat} {t : Text} (hm : Boundary m t) (h : m ≤ n) :
    dropBytes (n - m) (dropBytes m t) = dropBytes n t := by
  obtain ⟨a, b, rfl, rfl⟩ := boundary_iff.mp hm
  rw [dropBytes_utf8Len_append, dropBytes_append_ge a b h]

theorem fits_of_pairwise {t : Text} {es : List Edit} {k : Nat} (hk : Boundary k t)
    (hb : ∀ e ∈ es, k ≤ e.start ∧ e.start ≤ e.stop ∧ Boundary e.start t ∧ Boundary e.stop t)
    (hp : es.Pairwise (fun a b => a.stop ≤ b.start)) : Fits k (dropBytes k t) es := by
  induction es generalizing k with
  | nil => trivial
  | cons e es ih =>
    obtain ⟨h1, h2, h3, h4⟩ := hb e (List.mem_cons_self ..)
    obtain ⟨hp1, hp2⟩ := List.pairwise_cons.mp hp
    have hks : k ≤ e.stop := Nat.le_trans h1 h2
    refine ⟨h1, h2, boundary_dropBytes hk h3 h1, boundary_dropBytes hk h4 hks, ?_⟩
    rw [dropBytes_add hk hks]
    apply ih h4 ?_ hp2
    intro x hx
    have := hb x (List.mem_cons_of_mem _ hx)
    exact ⟨hp1 x hx, this.2⟩

theorem Fits.le_start {es : List Edit} {k : Nat} {t : Text} (h : Fits k t es) : ∀ e ∈ es, k ≤ e.start ∧ k ≤ e.stop := by
  induction es generalizing k t with
  | nil => exact fun e he => by cases he
  | cons e es ih =>
    obtain ⟨h1, h2, -, -, h5⟩ := h
    intro x hx
    rcases List.mem_cons.mp hx with rfl | hx
    · exact ⟨h1, Nat.le_trans h1 h2⟩
    · obtain ⟨hstart, hstop⟩ := ih h5 x hx
      exact ⟨by omega, by omega⟩

theorem Fits.shift {es : List Edit} {j : Nat} {t : Text} (h : Fits j t es) (k : Nat) :
    Fits (k + j) t (es.map (Edit.shift k)) := by
  induction es generalizing j t with
  | nil => trivial
  | cons e es ih =>
    obtain ⟨h1, h2, h3, h4, h5⟩ := h
    have hrest := ih h5
    rw [List.map_cons]
    refine ⟨?_, ?_, ?_, ?_, ?_⟩
    · simp only [Edit.shift]
      omega
    · simp only [Edit.shift]
      omega
    · rwa [Edit.shift, show e.start + k - (k + j) = e.start - j by omega]
    · rwa [Edit.shift, show e.stop + k - (k + j) = e.stop - j by omega]
    · rwa [Edit.shift, show e.stop + k - (k + j) = e.stop - j by omega, show e.stop + k = k + e.stop by omega]

theorem Fits.append {es₁ es₂ : List Edit} {k : Nat} {a b : Text} (h₁ : Fits k a es₁)
    (h₂ : Fits (k + utf8Len a) b es₂) : Fits k (a ++ b) (es₁ ++ es₂) := by
  induction es₁ generalizing k a with
  | nil =>
    cases es₂ with
    | nil => trivial
    | cons e es =>
      obtain ⟨h1, h2, h3, h4, h5⟩ := h₂
      refine ⟨by omega, h2, ?_, ?_, ?_⟩
      · rw [boundary_append_ge b (by omega)]
        rwa [Nat.sub_sub]
      · rw [boundary_append_ge b (by omega)]
        rwa [Nat.sub_sub]
      · rw [dropBytes_append_ge a b (by omega)]
        rwa [Nat.sub_sub]
  | cons e es ih =>
    obtain ⟨h1, h2, h3, h4, h5⟩ := h₁
    have hlen := h4.utf8Len_dropBytes
    have hle := h4.le
    refine ⟨h1, h2, h3.append b, h4.append b, ?_⟩
    rw [dropBytes_append_le a b hle]
    apply ih h5
    rwa [hlen, show e.stop + (utf8Len a - (e.stop - k)) = k + utf8Len a by omega]

/-! ## Rewriting -/

theorem rewriteFrom_append : ∀ {es₁ : List Edit} {k : Nat} {a : Text} (b : Text) {es₂ : List Edit}, Fits k a es₁ →
    (∀ e ∈ es₂, k + utf8Len a ≤ e.start ∧ k + utf8Len a ≤ e.stop) →
    rewriteFrom k (a ++ b) (es₁ ++ es₂) = rewriteFrom k a es₁ ++ rewriteFrom (k + utf8Len a) b es₂
  | [], k, a, b, [], _, _ => rfl
  | [], k, a, b, e :: es, _, h => by
    obtain ⟨h1, h2⟩ := h e (List.mem_cons_self ..)
    simp only [List.nil_append, rewriteFrom]
    rw [takeBytes_append_ge a b (by omega), dropBytes_append_ge a b (by omega), List.append_assoc,
      Nat.sub_sub, Nat.sub_sub]
  | e :: es₁, k, a, b, es₂, ⟨h1, h2, h3, h4, h5⟩, h => by
    have hl := h4.utf8Len_dropBytes
    have hle := h4.le
    simp only [List.cons_append, rewriteFrom]
    rw [takeBytes_append_le a b h3.le, dropBytes_append_le a b hle,
      rewriteFrom_append b h5 (fun x hx => by have := h x hx; omega)]
    rw [show e.stop + utf8Len (dropBytes (e.stop - k) a) = k + utf8Len a by omega]
    simp only [List.append_assoc]

theorem rewriteFrom_shift (k : Nat) (es : List Edit) (j : Nat) (t : Text) :
    rewriteFrom (k + j) t (es.map (Edit.shift k)) = rewriteFrom j t es := by
  induction es generalizing j t with
  | nil => rfl
  | cons e es ih =>
    simp only [List.map_cons, rewriteFrom, Edit.shift]
    rw [show e.stop + k = k + e.stop by omega, ih e.stop,
      show e.start + k - (k + j) = e.start - j by omega, show k + e.stop - (k + j) = e.stop - j by omega]

theorem utf8Len_rewriteFrom {es : List Edit} {k : Nat} {t : Text} (h : Fits k t es) :
    utf8Len (rewriteFrom k t es) + (es.map fun e => e.stop - e.start).sum =
      utf8Len t + (es.map fun e => utf8Len e.text).sum := by
  induction es generalizing k t with
  | nil => rfl
  | cons e es ih =>
    obtain ⟨h1, h2, h3, h4, h5⟩ := h
    have ih := ih h5
    rw [h4.utf8Len_dropBytes] at ih
    have hle := h4.le
    have hs : utf8Len (takeBytes (e.start - k) t) = e.start - k := h3
    simp only [rewriteFrom, utf8Len_append, List.map_cons, List.sum_cons, hs]
    omega

theorem replaceAll_eq_from {t : Text} {es : List Edit} {k : Nat} (hk : Boundary k t)
    (h : Fits k (dropBytes k t) es) :
    replaceAll t es = takeBytes k t ++ rewriteFrom k (dropBytes k t) es := by
  induction es generalizing k with
  | nil => exact (takeBytes_append_dropBytes k t).symm
  | cons e es ih =>
    obtain ⟨h1, h2, h3, h4, h5⟩ := h
    have hks : k ≤ e.stop := Nat.le_trans h1 h2
    have hstop : Boundary e.stop t := by
      have hs : utf8Len (takeBytes (e.stop - k) (dropBytes k t)) = e.stop - k := h4
      have hkl : utf8Len (takeBytes k t) = k := hk
      rw [Boundary, ← takeBytes_add hk hks, utf8Len_append, hs, hkl]
      omega
    rw [dropBytes_add hk hks] at h5
    have ih := ih hstop h5
    have hlen : utf8Len (takeBytes e.stop t) = e.stop := hstop
    have htake : takeBytes e.start (takeBytes e.stop t) = takeBytes e.start t := by
      rw [← takeBytes_append_le (takeBytes e.stop t) (dropBytes e.stop t) (by rw [hlen]; exact h2),
        takeBytes_append_dropBytes]
    show replaceRange (replaceAll t es) e.start e.stop e.text = _
    rw [ih, replaceRange, takeBytes_append_le _ _ (by rw [hlen]; exact h2), htake,
      dropBytes_append_ge _ _ (by rw [hlen]), hlen, Nat.sub_self, dropBytes_zero]
    simp only [rewriteFrom]
    rw [dropBytes_add hk hks, ← takeBytes_add hk h1, List.append_assoc, List.append_assoc]

theorem replaceAll_eq {t : Text} {es : List Edit} (h : Fits 0 t es) : replaceAll t es = rewriteFrom 0 t es := by
  rw [replaceAll_eq_from (boundary_zero t) (by rwa [dropBytes_zero]), takeBytes_zero, dropBytes_zero, List.nil_append]

/-! ## Edits that may miss a boundary -/

/-- The edits in place, the last one first; `none` where one of them panics. -/
def tryReplaceAll (t : Text) (es : List Edit) : Option Text :=
  es.foldr (fun e t => t.bind fun t => tryReplaceRange t e.start e.stop e.text) (some t)

structure Ordered (es : List Edit) : Prop where
  le : ∀ e ∈ es, e.start ≤ e.stop
  sorted : es.Pairwise fun a b => a.stop ≤ b.start

def OnBoundaries (t : Text) (es : List Edit) : Prop := ∀ e ∈ es, Boundary e.start t ∧ Boundary e.stop t

instance (t : Text) (es : List Edit) : Decidable (OnBoundaries t es) :=
  inferInstanceAs (Decidable (∀ e ∈ es, Boundary e.start t ∧ Boundary e.stop t))

theorem Ordered.tail {e : Edit} {es : List Edit} (h : Ordered (e :: es)) : Ordered es :=
  ⟨fun x hx => h.le x (List.mem_cons_of_mem e hx), (List.pairwise_cons.mp h.sorted).2⟩

theorem Ordered.fits {t : Text} {es : List Edit} {k : Nat} (h : Ordered es) (hb : OnBoundaries t es)
    (hk : Boundary k t) (hle : ∀ e ∈ es, k ≤ e.start) : Fits k (dropBytes k t) es :=
  fits_of_pairwise hk (fun e he => ⟨hle e he, h.le e he, hb e he⟩) h.sorted

theorem Ordered.fits_zero {t : Text} {es : List Edit} (h : Ordered es) (hb : OnBoundaries t es) : Fits 0 t es := by
  have := h.fits hb (boundary_zero t) fun _ _ => Nat.zero_le _
  rwa [dropBytes_zero] at this

/-- Edits further on do not move the boundaries before them. -/
theorem boundary_replaceAll {t : Text} {es : List Edit} {n : Nat} (h : Ordered es) (hb : OnBoundaries t es)
    (hn : ∀ e ∈ es, n ≤ e.start) : Boundary n (replaceAll t es) ↔ Boundary n t := by
  cases es with
  | nil => rfl
  | cons e es =>
    have hk := (hb e List.mem_cons_self).1
    have hfirst : ∀ x ∈ e :: es, e.start ≤ x.start := by
      intro x hx
      rcases List.mem_cons.mp hx with rfl | hx
      · exact Nat.le_refl _
      · exact Nat.le_trans (h.le e List.mem_cons_self) ((List.pairwise_cons.mp h.sorted).1 x hx)
    have hlen : n ≤ utf8Len (takeBytes e.start t) := by
      rw [show utf8Len (takeBytes e.start t) = e.start from hk]
      exact hn e List.mem_cons_self
    rw [replaceAll_eq_from hk (h.fits hb hk hfirst), boundary_append_le _ hlen]
    conv_rhs => rw [← takeBytes_append_dropBytes e.start t]
    exact (boundary_append_le _ hlen).symm

theorem tryReplaceAll_eq {t : Text} {es : List Edit} (h : Ordered es) :
    (OnBoundaries t es → tryReplaceAll t es = some (replaceAll t es)) ∧
      (¬ OnBoundaries t es → tryReplaceAll t es = none) := by
  induction es with
  | nil => exact ⟨fun _ => rfl, fun hno => absurd (fun e he => by cases he) hno⟩
  | cons e es ih =>
    obtain ⟨hok, hno⟩ := ih h.tail
    have hstep : tryReplaceAll t (e :: es) =
      (tryReplaceAll t es).bind fun t => tryReplaceRange t e.start e.stop e.text := rfl
    by_cases hb : OnBoundaries t es
    · have hlater := (List.pairwise_cons.mp h.sorted).1
      have hstart : Boundary e.start (replaceAll t es) ↔ Boundary e.start t := boundary_replaceAll h.tail hb
        fun x hx => Nat.le_trans (h.le e List.mem_cons_self) (hlater x hx)
      have hstop : Boundary e.stop (replaceAll t es) ↔ Boundary e.stop t := boundary_replaceAll h.tail hb hlater
      rw [hstep, hok hb, Option.bind_some, tryReplaceRange]
      constructor
      · intro hall
        exact if_pos ((and_congr hstart hstop).mpr (hall e List.mem_cons_self))
      · intro hmiss
        refine if_neg fun he => hmiss fun x hx => ?_
        rw [hstart, hstop] at he
        rcases List.mem_cons.mp hx with rfl | hx
        · exact he
        · exact hb x hx
    · rw [hstep, hno hb]
      exact ⟨fun hall => absurd (fun x hx => hall x (List.mem_cons_of_mem e hx)) hb, fun _ => rfl⟩

theorem Boundary.takeBytes {n c : Nat} {t : Text} (h : Boundary n t) (hc : n ≤ c) : Boundary n (takeBytes c t) := by
  obtain ⟨a, b, rfl, rfl⟩ := boundary_iff.mp h
  rw [takeBytes_append_ge a b hc]
  exact boundary_append a _

/-- Edits that end by `c` leave what comes after `c` as it is. -/
theorem replaceAll_before {t : Text} {es : List Edit} {c : Nat} (h : Ordered es) (hb : OnBoundaries t es)
    (hc : ∀ e ∈ es, e.stop ≤ c) :
    Fits 0 (takeBytes c t) es ∧ replaceAll t es = rewriteFrom 0 (takeBytes c t) es ++ dropBytes c t := by
  have hfront : Fits 0 (takeBytes c t) es := h.fits_zero fun e he =>
    ⟨(hb e he).1.takeBytes (Nat.le_trans (h.le e he) (hc e he)), (hb e he).2.takeBytes (hc e he)⟩
  refine ⟨hfront, ?_⟩
  have happend := @rewriteFrom_append es 0 (takeBytes c t) (dropBytes c t) [] hfront fun _ hx => by cases hx
  rwa [takeBytes_append_dropBytes, List.append_nil, ← replaceAll_eq (h.fits_zero hb)] at happend

end Utf8
