import SynapseGateway.Lib.Splice
import SynapseGateway.MaskSound
import SynapseGateway.Sse

/-!
# What masking changes

The merged spans cover the bytes that the reported ones cover. Each leaf is
rewritten in its share of them and nowhere else, and at an offset that no merged
span straddles a rewritten leaf is cut where `shifted` says.
-/

namespace SynapseGateway

open Splice
open String (utf8Len utf8Len_append)
open Utf8

/-! ## Merging -/

def MaskSpan.Covers (s : MaskSpan) (p : Nat) : Prop := s.start ≤ p ∧ p < s.stop

/-- A merged span absorbs those that lie in it. -/
def MaskSpan.Absorbs (m s : MaskSpan) : Prop := m.start ≤ s.start ∧ s.stop ≤ m.stop

/-- What merged spans are to those read: the same bytes, each under the label of a span of
lowest order among those it absorbs. -/
structure Gathers (read out : List MaskSpan) : Prop where
  covers : ∀ p, (∃ m ∈ out, m.Covers p) ↔ ∃ s ∈ read, s.Covers p
  absorbed : ∀ s ∈ read, ∃ m ∈ out, m.Absorbs s
  label : ∀ m ∈ out, ∃ s ∈ read, m.Absorbs s ∧ m.label = s.label ∧ m.order = s.order ∧
    ∀ s' ∈ read, m.Absorbs s' → s.order ≤ s'.order

structure MergeOf (spans merged : List MaskSpan) : Prop extends Gathers spans merged where
  sorted : merged.Pairwise fun a b => a.stop ≤ b.start
  lt : ∀ m ∈ merged, m.start < m.stop

theorem MaskSpan.Absorbs.overlap {m m' s : MaskSpan} (h : m.Absorbs s) (h' : m'.Absorbs s) (hs : s.start < s.stop) :
    m.start < m'.stop := by
  obtain ⟨h1, -⟩ := h
  obtain ⟨-, h2⟩ := h'
  omega

theorem gathers_apart {read out : List MaskSpan} {s : MaskSpan} (h : Gathers read out) (hs : s.start < s.stop)
    (hread : ∀ x ∈ read, x.start < x.stop) (hapart : ∀ m ∈ out, m.stop ≤ s.start) :
    Gathers (read ++ [s]) (s :: out) where
  covers := by
    intro p
    have hp := h.covers p
    simp only [List.mem_cons, List.mem_append, List.not_mem_nil, or_false, or_and_right, exists_or, exists_eq_left]
    rw [hp]
    exact or_comm
  absorbed := by
    intro x hx
    rcases List.mem_append.mp hx with hx | hx
    · obtain ⟨m, hm, hmx⟩ := h.absorbed x hx
      exact ⟨m, List.mem_cons_of_mem s hm, hmx⟩
    · rw [List.mem_singleton.mp hx]
      exact ⟨s, List.mem_cons_self, Nat.le_refl _, Nat.le_refl _⟩
  label := by
    intro m hm
    rcases List.mem_cons.mp hm with rfl | hm
    · refine ⟨m, by simp, ⟨Nat.le_refl _, Nat.le_refl _⟩, rfl, rfl, ?_⟩
      intro x hx hmx
      rcases List.mem_append.mp hx with hx | hx
      · obtain ⟨e, he, hex⟩ := h.absorbed x hx
        exact absurd (hmx.overlap hex (hread x hx)) (Nat.not_lt.mpr (hapart e he))
      · rw [List.mem_singleton.mp hx]
    · obtain ⟨x, hx, hmx, hlabel, horder, hleast⟩ := h.label m hm
      refine ⟨x, List.mem_append_left [s] hx, hmx, hlabel, horder, ?_⟩
      intro y hy hmy
      rcases List.mem_append.mp hy with hy | hy
      · exact hleast y hy hmy
      · rw [List.mem_singleton.mp hy] at hmy
        exact absurd (Nat.lt_of_lt_of_le hs hmy.2) (Nat.not_lt.mpr (hapart m hm))

/-- The last merged span once it has grown over `s`. -/
structure Grown (last s grown : MaskSpan) : Prop where
  overlaps : last.start ≤ s.start ∧ s.start < last.stop
  start : grown.start = last.start
  stop : grown.stop = max last.stop s.stop
  label : if s.order < last.order then grown.label = s.label ∧ grown.order = s.order
    else grown.label = last.label ∧ grown.order = last.order

section
variable {read rest : List MaskSpan} {last s grown : MaskSpan}

theorem Grown.absorbs (hg : Grown last s grown) {x : MaskSpan} (hx : last.Absorbs x ∨ x = s) : grown.Absorbs x := by
  obtain ⟨⟨h1, h2⟩, hstart, hstop, -⟩ := hg
  rcases hx with ⟨h3, h4⟩ | rfl
  · exact ⟨by omega, by omega⟩
  · exact ⟨by omega, by omega⟩

theorem Grown.covers (hg : Grown last s grown) (p : Nat) : grown.Covers p ↔ last.Covers p ∨ s.Covers p := by
  obtain ⟨⟨h1, h2⟩, hstart, hstop, -⟩ := hg
  unfold MaskSpan.Covers
  omega

/-- A span read before that lies in the grown one was absorbed by the last already. -/
theorem Grown.absorbed (hg : Grown last s grown) (h : Gathers read (last :: rest))
    (hrest : ∀ m ∈ rest, m.stop ≤ last.start) {x : MaskSpan} (hx : x ∈ read) (hlt : x.start < x.stop)
    (hgx : grown.Absorbs x) : last.Absorbs x := by
  obtain ⟨m, hm, hmx⟩ := h.absorbed x hx
  rcases List.mem_cons.mp hm with rfl | hm
  · exact hmx
  · have hover := hgx.overlap hmx hlt
    rw [hg.start] at hover
    exact absurd hover (Nat.not_lt.mpr (hrest m hm))

/-- The grown span has the label of a span of lowest order among those it absorbs. -/
theorem Grown.least (hg : Grown last s grown) (h : Gathers read (last :: rest))
    (hread : ∀ x ∈ read, x.start < x.stop) (hrest : ∀ m ∈ rest, m.stop ≤ last.start) :
    ∃ x ∈ read ++ [s], grown.Absorbs x ∧ grown.label = x.label ∧ grown.order = x.order ∧
      ∀ y ∈ read ++ [s], grown.Absorbs y → x.order ≤ y.order := by
  obtain ⟨x, hx, hlx, hxlabel, hxorder, hleast⟩ := h.label last List.mem_cons_self
  have hlabel := hg.label
  have hearlier : ∀ y ∈ read, grown.Absorbs y → last.order ≤ y.order := by
    intro y hy hgy
    rw [hxorder]
    exact hleast y hy (hg.absorbed h hrest hy (hread y hy) hgy)
  by_cases horder : s.order < last.order
  · rw [if_pos horder] at hlabel
    refine ⟨s, by simp, hg.absorbs (.inr rfl), hlabel.1, hlabel.2, ?_⟩
    intro y hy hgy
    rcases List.mem_append.mp hy with hy | hy
    · exact Nat.le_of_lt (Nat.lt_of_lt_of_le horder (hearlier y hy hgy))
    · rw [List.mem_singleton.mp hy]
  · rw [if_neg horder] at hlabel
    refine ⟨x, List.mem_append_left [s] hx, hg.absorbs (.inl hlx), hlabel.1.trans hxlabel, hlabel.2.trans hxorder, ?_⟩
    intro y hy hgy
    rw [← hxorder]
    rcases List.mem_append.mp hy with hy | hy
    · exact hearlier y hy hgy
    · rw [List.mem_singleton.mp hy]
      exact Nat.not_lt.mp horder

theorem gathers_grown (hg : Grown last s grown) (h : Gathers read (last :: rest))
    (hread : ∀ x ∈ read, x.start < x.stop) (hrest : ∀ m ∈ rest, m.stop ≤ last.start) (hs : s.start < s.stop) :
    Gathers (read ++ [s]) (grown :: rest) where
  covers := by
    intro p
    have hp := h.covers p
    simp only [List.mem_cons, List.mem_append, List.not_mem_nil, or_false, or_and_right, exists_or, exists_eq_left]
      at hp ⊢
    rw [← hp, hg.covers]
    exact or_right_comm
  absorbed := by
    intro y hy
    rcases List.mem_append.mp hy with hy | hy
    · obtain ⟨m, hm, hmy⟩ := h.absorbed y hy
      rcases List.mem_cons.mp hm with rfl | hm
      · exact ⟨grown, List.mem_cons_self, hg.absorbs (.inl hmy)⟩
      · exact ⟨m, List.mem_cons_of_mem grown hm, hmy⟩
    · exact ⟨grown, List.mem_cons_self, hg.absorbs (.inr (List.mem_singleton.mp hy))⟩
  label := by
    intro m hm
    rcases List.mem_cons.mp hm with rfl | hm
    · exact hg.least h hread hrest
    · obtain ⟨y, hy, hmy, hylabel, hyorder, hyleast⟩ := h.label m (List.mem_cons_of_mem last hm)
      refine ⟨y, List.mem_append_left [s] hy, hmy, hylabel, hyorder, ?_⟩
      intro z hz hmz
      rcases List.mem_append.mp hz with hz | hz
      · exact hyleast z hz hmz
      · rw [List.mem_singleton.mp hz] at hmz
        have hle := Nat.le_trans (hrest m hm) hg.overlaps.1
        exact absurd (Nat.lt_of_lt_of_le hs hmz.2) (Nat.not_lt.mpr hle)

end

theorem gathers_step {read out : List MaskSpan} {s : MaskSpan} (h : Gathers read out) (hout : Merged out s.start)
    (hread : ∀ x ∈ read, x.start < x.stop) (hs : s.start < s.stop) : Gathers (read ++ [s]) (mergeStep out s) := by
  cases out with
  | nil => exact gathers_apart h hs hread (by simp)
  | cons last rest =>
    obtain ⟨hl, -⟩ := List.pairwise_cons.mp hout.disjoint
    have hle := hout.le last List.mem_cons_self
    rw [mergeStep]
    by_cases hover : s.start < last.stop
    · rw [if_pos hover]
      simp only
      split
      · rename_i horder
        exact gathers_grown ⟨⟨hle, hover⟩, rfl, rfl, by rw [if_pos horder]; exact ⟨rfl, rfl⟩⟩ h hread hl hs
      · rename_i horder
        exact gathers_grown ⟨⟨hle, hover⟩, rfl, rfl, by rw [if_neg horder]; exact ⟨rfl, rfl⟩⟩ h hread hl hs
    · rw [if_neg hover]
      apply gathers_apart h hs hread
      intro m hm
      rcases List.mem_cons.mp hm with rfl | hm
      · omega
      · have h1 := hl m hm
        have h2 := hout.lt last List.mem_cons_self
        omega

theorem gathers_foldl {spans read out : List MaskSpan} {k : Nat} (h : Gathers read out) (hout : Merged out k)
    (hread : ∀ x ∈ read, x.start < x.stop) (hk : ∀ s ∈ spans, k ≤ s.start)
    (hp : spans.Pairwise fun a b => a.start ≤ b.start) (hlt : ∀ s ∈ spans, s.start < s.stop) :
    Gathers (read ++ spans) (spans.foldl mergeStep out) := by
  induction spans generalizing read out k with
  | nil => rwa [List.append_nil]
  | cons s spans ih =>
    obtain ⟨hp1, hp2⟩ := List.pairwise_cons.mp hp
    have hks := hk s List.mem_cons_self
    have hls := hlt s List.mem_cons_self
    have hs : Merged out s.start := ⟨hout.disjoint, hout.lt, fun e he => Nat.le_trans (hout.le e he) hks⟩
    have hread' : ∀ x ∈ read ++ [s], x.start < x.stop := by
      intro x hx
      rcases List.mem_append.mp hx with hx | hx
      · exact hread x hx
      · rwa [List.mem_singleton.mp hx]
    have hnext := ih (gathers_step h hs hread hls) (hs.step hls (Nat.le_refl _)) hread' hp1 hp2
      fun x hx => hlt x (List.mem_cons_of_mem s hx)
    rwa [List.append_assoc] at hnext

theorem merge_exact {spans : List MaskSpan} (h : ∀ s ∈ spans, s.start < s.stop) : MergeOf spans (merge spans) := by
  obtain ⟨hsorted, hlt⟩ := merge_disjoint h
  have hstart : Gathers [] [] := ⟨by simp, by simp, by simp⟩
  have hfold := gathers_foldl hstart (k := 0) ⟨.nil, by simp, by simp⟩ (by simp) (fun _ _ => Nat.zero_le _)
    (sorted_insertionSort spans) fun s hs => h s (mem_insertionSort.mp hs)
  rw [List.nil_append] at hfold
  refine ⟨⟨?_, ?_, ?_⟩, hsorted, hlt⟩
  · intro p
    have hp := hfold.covers p
    simp only [mem_insertionSort] at hp
    simpa only [merge, List.mem_reverse] using hp
  · intro s hs
    simpa only [merge, List.mem_reverse] using hfold.absorbed s (mem_insertionSort.mpr hs)
  · intro m hm
    have hlabel := hfold.label m (by simpa only [merge, List.mem_reverse] using hm)
    simpa only [mem_insertionSort] using hlabel

/-! ## Texts and their bytes -/

theorem utf8Bytes_append (a b : Text) : utf8Bytes (a ++ b) = utf8Bytes a ++ utf8Bytes b := List.flatMap_append

theorem length_utf8Bytes (t : Text) : (utf8Bytes t).length = utf8Len t := by
  induction t with
  | nil => rfl
  | cons c t ih =>
    rw [utf8Bytes, List.flatMap_cons, ← utf8Bytes, List.length_append, ih, String.length_utf8EncodeChar,
      String.utf8Len_cons, Nat.add_comm]

theorem utf8Bytes_cut {n : Nat} {t : Text} (h : Boundary n t) :
    utf8Bytes (takeBytes n t) = (utf8Bytes t).take n ∧ utf8Bytes (dropBytes n t) = (utf8Bytes t).drop n := by
  obtain ⟨a, b, rfl, rfl⟩ := boundary_iff.mp h
  rw [takeBytes_utf8Len_append, dropBytes_utf8Len_append, utf8Bytes_append, ← length_utf8Bytes]
  exact ⟨List.take_left.symm, List.drop_left.symm⟩

def patch (e : Edit) : Patch UInt8 := ⟨e.start, e.stop, utf8Bytes e.text⟩

theorem utf8Bytes_rewriteFrom {es : List Edit} {k : Nat} {t : Text} (h : Fits k t es) :
    utf8Bytes (rewriteFrom k t es) = splice k (utf8Bytes t) (es.map patch) := by
  induction es generalizing k t with
  | nil => rfl
  | cons e es ih =>
    obtain ⟨-, -, h3, h4, h5⟩ := h
    rw [rewriteFrom, utf8Bytes_append, utf8Bytes_append, ih h5, (utf8Bytes_cut h3).1, (utf8Bytes_cut h4).2]
    rfl

theorem fits_between {es : List Edit} {k : Nat} {t : Text} (h : Fits k t es) :
    Between k (es.map patch) (k + utf8Len t) := by
  induction es generalizing k t with
  | nil => trivial
  | cons e es ih =>
    obtain ⟨h1, h2, -, h4, h5⟩ := h
    have hle := h4.le
    have hrest := ih h5
    rw [h4.utf8Len_dropBytes, show e.stop + (utf8Len t - (e.stop - k)) = k + utf8Len t by omega] at hrest
    exact ⟨h1, h2, show e.stop ≤ k + utf8Len t by omega, hrest⟩

theorem fits_spliced {es : List Edit} {t : Text} (h : Fits 0 t es) :
    Spliced 0 (utf8Bytes t) (es.map patch) (utf8Bytes (replaceAll t es)) := by
  refine ⟨?_, ?_⟩
  · rw [length_utf8Bytes]
    exact fits_between h
  · rw [replaceAll_eq h, utf8Bytes_rewriteFrom h]

theorem boundary_inner {p : Nat} {a l b : Text} (h : Boundary p (a ++ (l ++ b))) (ha : utf8Len a ≤ p)
    (hl : p ≤ utf8Len a + utf8Len l) : Boundary (p - utf8Len a) l := by
  obtain ⟨c, d, hcd, rfl⟩ := boundary_iff.mp h
  obtain ⟨m, rfl, hm⟩ := append_eq_append_of_le hcd ha
  rw [utf8Len_append, Nat.add_sub_cancel_left]
  rw [utf8Len_append] at hl
  obtain ⟨x, rfl, -⟩ := append_eq_append_of_le hm.symm (by omega)
  exact boundary_append m x

/-! ## One leaf -/

/-- A span's share of a leaf at offset `own`, as an edit of the leaf. -/
def MaskSpan.share (own : Nat) (leaf : Text) (s : MaskSpan) : Option Edit :=
  let from' := max s.start own
  let upto := min s.stop (own + utf8Len leaf)
  if from' < upto then some ⟨from' - own, upto - own, redacted s.label⟩ else none

theorem applyLeaf_shares (spans : List MaskSpan) (own : Nat) (leaf : Text) :
    applyLeaf spans own leaf = replaceAll leaf (spans.filterMap (MaskSpan.share own leaf)) := by
  induction spans with
  | nil => rfl
  | cons s spans ih =>
    have hstep : applyLeaf (s :: spans) own leaf = _ := List.foldr_cons ..
    rw [hstep, ← applyLeaf, List.filterMap_cons, MaskSpan.share, ih]
    by_cases hshare : max s.start own < min s.stop (own + utf8Len leaf)
    · rw [if_pos hshare, if_pos hshare]
      rfl
    · rw [if_neg hshare, if_neg hshare]

/-- Non-empty spans on the boundaries of a text, one after the other. -/
structure Laid (t : Text) (spans : List MaskSpan) : Prop where
  lt : ∀ s ∈ spans, s.start < s.stop
  boundary : ∀ s ∈ spans, Boundary s.start t ∧ Boundary s.stop t
  sorted : spans.Pairwise fun a b => a.stop ≤ b.start

theorem laid_merge {t : Text} {spans : List MaskSpan}
    (h : ∀ s ∈ spans, s.start < s.stop ∧ Boundary s.start t ∧ Boundary s.stop t) : Laid t (merge spans) := by
  obtain ⟨hsorted, hlt⟩ := merge_disjoint fun s hs => (h s hs).1
  exact ⟨hlt, merge_endpoints (P := fun n => Boundary n t) (Q := fun n => Boundary n t) fun s hs => (h s hs).2,
    hsorted⟩

section
variable {spans : List MaskSpan} {before leaf after : Text}

theorem share_boundary {s : MaskSpan} {e : Edit} (hs : Boundary s.start (before ++ (leaf ++ after)))
    (hs' : Boundary s.stop (before ++ (leaf ++ after))) (h : s.share (utf8Len before) leaf = some e) :
    e.start ≤ e.stop ∧ Boundary e.start leaf ∧ Boundary e.stop leaf := by
  rw [MaskSpan.share] at h
  split at h
  · rename_i hlt
    obtain rfl := Option.some.inj h
    have hfull : Boundary (utf8Len leaf) leaf := by rw [Boundary, takeBytes_utf8Len]
    refine ⟨by simp only; omega, ?_, ?_⟩
    · rcases Nat.le_total s.start (utf8Len before) with hle | hle
      · rw [Nat.max_eq_right hle, Nat.sub_self]
        exact boundary_zero leaf
      · rw [Nat.max_eq_left hle]
        exact boundary_inner hs hle (by omega)
    · rcases Nat.le_total s.stop (utf8Len before + utf8Len leaf) with hle | hle
      · rw [Nat.min_eq_left hle]
        exact boundary_inner hs' (by omega) hle
      · rw [Nat.min_eq_right hle, Nat.add_sub_cancel_left]
        exact hfull
  · cases h

theorem shares_fit (h : Laid (before ++ (leaf ++ after)) spans) :
    Fits 0 leaf (spans.filterMap (MaskSpan.share (utf8Len before) leaf)) := by
  rw [← dropBytes_zero leaf]
  apply fits_of_pairwise (boundary_zero leaf)
  · intro e he
    obtain ⟨s, hs, hse⟩ := List.mem_filterMap.mp he
    obtain ⟨hb, hb'⟩ := h.boundary s hs
    rw [dropBytes_zero] at hse
    obtain ⟨hle, hstart, hstop⟩ := share_boundary hb hb' hse
    exact ⟨Nat.zero_le _, hle, hstart, hstop⟩
  · rw [List.pairwise_filterMap]
    apply h.sorted.imp
    intro a b hab e he e' he'
    rw [MaskSpan.share] at he he'
    split at he
    · split at he'
      · obtain rfl := Option.some.inj he
        obtain rfl := Option.some.inj he'
        simp only
        omega
      · cases he'
    · cases he

/-- A leaf changes in its share of each span and nowhere else. -/
theorem applyLeaf_spliced (h : Laid (before ++ (leaf ++ after)) spans) :
    Spliced 0 (utf8Bytes leaf) ((spans.filterMap (MaskSpan.share (utf8Len before) leaf)).map patch)
      (utf8Bytes (applyLeaf spans (utf8Len before) leaf)) := by
  rw [applyLeaf_shares]
  exact fits_spliced (shares_fit h)

end

/-! ## Every leaf -/

/-- Where leaf number `i` starts in the joined text. -/
def leafStart (leaves : Segment) (i : Nat) : Nat :=
  ((leaves.take i).map fun leaf => utf8Len leaf + utf8Len SEPARATOR).sum

theorem joined_cons (leaf next : Text) (leaves : Segment) :
    joined (leaf :: next :: leaves) = leaf ++ (SEPARATOR ++ joined (next :: leaves)) := by
  rw [joined, List.intercalate_cons_cons, ← joined, List.append_assoc]

theorem leaf_joined {leaves : Segment} {i : Nat} {leaf : Text} (h : leaves[i]? = some leaf) :
    ∃ before after, joined leaves = before ++ (leaf ++ after) ∧ utf8Len before = leafStart leaves i := by
  induction leaves generalizing i with
  | nil => simp at h
  | cons first leaves ih =>
    cases i with
    | zero =>
      obtain rfl : first = leaf := by simpa using h
      cases leaves with
      | nil => exact ⟨[], [], by simp, rfl⟩
      | cons next leaves => exact ⟨[], _, joined_cons first next leaves, rfl⟩
    | succ i =>
      rw [List.getElem?_cons_succ] at h
      obtain ⟨before, after, hjoined, hlen⟩ := ih h
      cases leaves with
      | nil => simp at h
      | cons next leaves =>
        refine ⟨first ++ (SEPARATOR ++ before), after, ?_, ?_⟩
        · rw [joined_cons, hjoined]
          simp only [List.append_assoc]
        · rw [utf8Len_append, utf8Len_append, hlen, leafStart, leafStart, List.take_succ_cons, List.map_cons,
            List.sum_cons, Nat.add_assoc]

theorem getElem?_applyFrom (spans : List MaskSpan) (start : Nat) (leaves : Segment) (i : Nat) :
    (applyFrom spans start leaves)[i]? = leaves[i]?.map (applyLeaf spans (start + leafStart leaves i)) := by
  induction leaves generalizing start i with
  | nil => rfl
  | cons leaf leaves ih =>
    cases i with
    | zero => rfl
    | succ i =>
      rw [applyFrom, List.getElem?_cons_succ, List.getElem?_cons_succ, ih, leafStart, leafStart, List.take_succ_cons,
        List.map_cons, List.sum_cons]
      simp only [Nat.add_assoc]

/-! ## One leaf, cut -/

def MaskSpan.patch (s : MaskSpan) : Patch UInt8 := SynapseGateway.patch s.edit

theorem share_whole {leaf : Text} {s : MaskSpan} (hlt : s.start < s.stop) (hstop : s.stop ≤ utf8Len leaf) :
    s.share 0 leaf = some s.edit := by
  have h1 : max s.start 0 = s.start := Nat.max_zero s.start
  have h2 : min s.stop (0 + utf8Len leaf) = s.stop := by omega
  rw [MaskSpan.share]
  simp only [h1, h2, if_pos hlt, Nat.sub_zero, MaskSpan.edit]

section
variable {leaf : Text} {spans : List MaskSpan}

theorem Laid.stop_le (h : Laid leaf spans) {s : MaskSpan} (hs : s ∈ spans) : s.stop ≤ utf8Len leaf :=
  (h.boundary s hs).2.le

theorem apply_spliced (h : Laid leaf spans) :
    ∃ out, apply [leaf] spans = [out] ∧ Spliced 0 (utf8Bytes leaf) (spans.map MaskSpan.patch) (utf8Bytes out) := by
  have hin : Laid ([] ++ (leaf ++ [])) spans := by rwa [List.append_nil, List.nil_append]
  have hshares : spans.filterMap (MaskSpan.share 0 leaf) = spans.map MaskSpan.edit := by
    rw [← List.filterMap_eq_map]
    apply List.filterMap_congr
    intro s hs
    exact share_whole (h.lt s hs) (h.stop_le hs)
  refine ⟨applyLeaf spans 0 leaf, rfl, ?_⟩
  have hspliced := applyLeaf_spliced hin
  rw [String.utf8Len_nil, hshares, List.map_map] at hspliced
  exact hspliced

theorem filter_split {α : Type} {p : α → Bool} {l : List α} (h : l.Pairwise fun a b => p b = true → p a = true) :
    l = l.filter p ++ l.filter fun a => !p a := by
  induction l with
  | nil => rfl
  | cons a l ih =>
    obtain ⟨ha, hl⟩ := List.pairwise_cons.mp h
    cases hp : p a with
    | true =>
      rw [List.filter_cons_of_pos hp, List.filter_cons_of_neg (by simp [hp]), List.cons_append, ← ih hl]
    | false =>
      -- nothing after an element that is not kept is kept
      have hnone : l.filter p = [] := by
        rw [List.filter_eq_nil_iff]
        intro b hb hpb
        rw [ha b hb hpb] at hp
        cases hp
      have hall : (l.filter fun a => !p a) = l := by
        have hsplit := ih hl
        rw [hnone, List.nil_append] at hsplit
        exact hsplit.symm
      rw [List.filter_cons_of_neg (by simp [hp]), List.filter_cons_of_pos (by simp [hp]), hnone, hall,
        List.nil_append]

theorem shiftedFrom_before {p : Nat} {past later : List MaskSpan} {delta : Int}
    (h : ∀ s ∈ past, s.start < s.stop ∧ s.stop ≤ p) (hlater : ∀ s ∈ later, p ≤ s.start) :
    shiftedFrom p delta (past ++ later) = shiftedFrom p delta past := by
  induction past generalizing delta with
  | nil =>
    cases later with
    | nil => rfl
    | cons s later =>
      show shiftedFrom p delta (s :: later) = (p + delta).toNat
      unfold shiftedFrom
      rw [if_pos (hlater s List.mem_cons_self)]
  | cons s past ih =>
    obtain ⟨h1, h2⟩ := h s List.mem_cons_self
    rw [List.cons_append, shiftedFrom, shiftedFrom, if_neg (by omega), if_neg (by omega)]
    simp only
    rw [if_neg (by omega), if_neg (by omega)]
    exact ih fun x hx => h x (List.mem_cons_of_mem s hx)

/-- The spans that end at or before `cut`. -/
def endingBy (cut : Nat) (spans : List MaskSpan) : List MaskSpan := spans.filter fun s => s.stop ≤ cut

def endingAfter (cut : Nat) (spans : List MaskSpan) : List MaskSpan := spans.filter fun s => !decide (s.stop ≤ cut)

theorem Laid.split (h : Laid leaf spans) (cut : Nat) : spans = endingBy cut spans ++ endingAfter cut spans := by
  apply filter_split
  apply h.sorted.imp_of_mem
  intro a b _ hb hab hstop
  have hlt := h.lt b hb
  rw [decide_eq_true_eq] at hstop ⊢
  omega

theorem endingBy_between (h : Laid leaf spans) (cut : Nat) :
    Between 0 ((endingBy cut spans).map MaskSpan.patch) (0 + ((utf8Bytes leaf).take cut).length) := by
  rw [List.length_take, length_utf8Bytes, Nat.zero_add]
  apply between_of_pairwise
  · intro e he
    obtain ⟨s, hs, rfl⟩ := List.mem_map.mp he
    obtain ⟨hs, hstop⟩ := List.mem_filter.mp hs
    have hle : s.stop ≤ min cut (utf8Len leaf) := Nat.le_min.mpr ⟨of_decide_eq_true hstop, h.stop_le hs⟩
    exact ⟨Nat.zero_le _, Nat.le_of_lt (h.lt s hs), hle⟩
  · exact List.pairwise_map.mpr (h.sorted.sublist List.filter_sublist)

theorem le_endingAfter {cut : Nat} (hcut : ∀ s ∈ spans, ¬(s.start < cut ∧ cut < s.stop)) :
    ∀ s ∈ endingAfter cut spans, cut ≤ s.start := by
  intro s hs
  obtain ⟨hs, hstop⟩ := List.mem_filter.mp hs
  have hnot := hcut s hs
  simp only [Bool.not_eq_true', decide_eq_false_iff_not] at hstop
  omega

theorem endingAfter_between (h : Laid leaf spans) {cut : Nat}
    (hcut : ∀ s ∈ spans, ¬(s.start < cut ∧ cut < s.stop)) :
    Between cut ((endingAfter cut spans).map MaskSpan.patch) (cut + ((utf8Bytes leaf).drop cut).length) := by
  rw [List.length_drop, length_utf8Bytes]
  apply between_of_pairwise
  · intro e he
    obtain ⟨s, hs, rfl⟩ := List.mem_map.mp he
    have hstart := le_endingAfter hcut s hs
    have hs := List.mem_of_mem_filter hs
    have hstop := h.stop_le hs
    have hle : s.stop ≤ cut + (utf8Len leaf - cut) := by omega
    exact ⟨hstart, Nat.le_of_lt (h.lt s hs), hle⟩
  · exact List.pairwise_map.mpr (h.sorted.sublist List.filter_sublist)

/-- The rewritten bytes before a cut are as many as `shifted` says, less what the cut is past the leaf. -/
theorem endingBy_length (h : Laid leaf spans) {cut : Nat} (hcut : ∀ s ∈ spans, ¬(s.start < cut ∧ cut < s.stop)) :
    (splice 0 ((utf8Bytes leaf).take cut) ((endingBy cut spans).map MaskSpan.patch)).length +
      (cut - utf8Len leaf) = shifted spans cut := by
  have hlen := splice_length (endingBy_between h cut)
  have hpast : ∀ s ∈ endingBy cut spans, s.start < s.stop ∧ s.stop ≤ cut := by
    intro s hs
    obtain ⟨hs, hstop⟩ := List.mem_filter.mp hs
    exact ⟨h.lt s hs, of_decide_eq_true hstop⟩
  have hshift : shifted spans cut = shiftedFrom cut 0 (endingBy cut spans) := by
    rw [shifted, h.split cut, shiftedFrom_before hpast (le_endingAfter hcut), ← h.split cut]
  rw [shiftedFrom_past hpast] at hshift
  simp only [List.map_map, Function.comp_def, MaskSpan.patch, patch, length_utf8Bytes] at hlen
  rw [List.length_take, length_utf8Bytes] at hlen
  omega

/-- A cut that no span straddles cuts the rewritten leaf where `shifted` says. -/
theorem splice_shifted (h : Laid leaf spans) {cut : Nat} (hcut : ∀ s ∈ spans, ¬(s.start < cut ∧ cut < s.stop)) :
    (splice 0 (utf8Bytes leaf) (spans.map MaskSpan.patch)).take (shifted spans cut) =
        splice 0 ((utf8Bytes leaf).take cut) ((endingBy cut spans).map MaskSpan.patch) ∧
      (splice 0 (utf8Bytes leaf) (spans.map MaskSpan.patch)).drop (shifted spans cut) =
        splice cut ((utf8Bytes leaf).drop cut) ((endingAfter cut spans).map MaskSpan.patch) := by
  have hby : Between 0 ((endingBy cut spans).map MaskSpan.patch) cut := by
    apply (endingBy_between h cut).mono
    rw [List.length_take]
    omega
  have hafter : ∀ e ∈ (endingAfter cut spans).map MaskSpan.patch, cut ≤ e.start ∧ e.start ≤ e.stop := by
    intro e he
    obtain ⟨s, hs, rfl⟩ := List.mem_map.mp he
    exact ⟨le_endingAfter hcut s hs, Nat.le_of_lt (h.lt s (List.mem_of_mem_filter hs))⟩
  have hlen := endingBy_length h hcut
  have hsplit : splice 0 (utf8Bytes leaf) (spans.map MaskSpan.patch) =
      splice 0 ((utf8Bytes leaf).take cut) ((endingBy cut spans).map MaskSpan.patch) ++
        splice cut ((utf8Bytes leaf).drop cut) ((endingAfter cut spans).map MaskSpan.patch) := by
    conv_lhs => rw [h.split cut, List.map_append]
    exact splice_cut (utf8Bytes leaf) (Nat.zero_le cut) hby hafter
  rw [hsplit]
  by_cases hin : cut ≤ utf8Len leaf
  · have hshift : shifted spans cut =
        (splice 0 ((utf8Bytes leaf).take cut) ((endingBy cut spans).map MaskSpan.patch)).length := by omega
    rw [hshift]
    exact ⟨List.take_left, List.drop_left⟩
  · -- nothing of the leaf is past the cut, and no span is
    have hnone : endingAfter cut spans = [] := by
      rw [List.eq_nil_iff_forall_not_mem]
      intro s hs
      have hstart := le_endingAfter hcut s hs
      have hs := List.mem_of_mem_filter hs
      have hlt := h.lt s hs
      have hstop := h.stop_le hs
      omega
    have hdrop : (utf8Bytes leaf).drop cut = [] := by
      rw [List.drop_eq_nil_iff, length_utf8Bytes]
      omega
    have hle : (splice 0 ((utf8Bytes leaf).take cut) ((endingBy cut spans).map MaskSpan.patch)).length ≤
        shifted spans cut := by omega
    rw [hnone, hdrop, List.map_nil, splice, List.append_nil]
    exact ⟨List.take_of_length_le hle, List.drop_of_length_le hle⟩

end

theorem mask_exact {leaves : Segment} {spans : List MaskSpan}
    (h : ∀ s ∈ spans, s.start < s.stop ∧ Boundary s.start (joined leaves) ∧ Boundary s.stop (joined leaves)) :
    MergeOf spans (merge spans) ∧
      (apply leaves (merge spans)).length = leaves.length ∧
      (∀ (i : Nat) leaf, leaves[i]? = some leaf → ∃ before after out,
        joined leaves = before ++ (leaf ++ after) ∧ utf8Len before = leafStart leaves i ∧
          (apply leaves (merge spans))[i]? = some out ∧
          Spliced 0 (utf8Bytes leaf)
            (((merge spans).filterMap (MaskSpan.share (leafStart leaves i) leaf)).map patch) (utf8Bytes out)) ∧
      ∀ leaf cut, leaves = [leaf] → (∀ s ∈ merge spans, ¬(s.start < cut ∧ cut < s.stop)) → ∃ out,
        apply leaves (merge spans) = [out] ∧
          Spliced 0 ((utf8Bytes leaf).take cut) ((endingBy cut (merge spans)).map MaskSpan.patch)
            ((utf8Bytes out).take (shifted (merge spans) cut)) ∧
          Spliced cut ((utf8Bytes leaf).drop cut) ((endingAfter cut (merge spans)).map MaskSpan.patch)
            ((utf8Bytes out).drop (shifted (merge spans) cut)) := by
  have hlaid := laid_merge h
  refine ⟨merge_exact fun s hs => (h s hs).1, applyFrom_length _ 0 leaves, ?_, ?_⟩
  · intro i leaf hleaf
    obtain ⟨before, after, hjoined, hlen⟩ := leaf_joined hleaf
    have hout : (apply leaves (merge spans))[i]? = some (applyLeaf (merge spans) (leafStart leaves i) leaf) := by
      rw [apply, getElem?_applyFrom, hleaf, Option.map_some, Nat.zero_add]
    rw [hjoined] at hlaid
    have hspliced := applyLeaf_spliced hlaid
    rw [hlen] at hspliced
    exact ⟨before, after, _, hjoined, hlen, hout, hspliced⟩
  · intro leaf cut hleaves hcut
    rw [hleaves, joined_singleton] at hlaid
    obtain ⟨out, hout, hspliced⟩ := apply_spliced hlaid
    obtain ⟨htake, hdrop⟩ := splice_shifted hlaid hcut
    rw [← hspliced.eq] at htake hdrop
    rw [hleaves]
    exact ⟨out, hout, ⟨endingBy_between hlaid cut, htake⟩, endingAfter_between hlaid hcut, hdrop⟩

def twoLeaves : Segment := ["id é42".toList, "sk-7 ok".toList]

/-- One span crosses the separator and overlaps another. -/
def crossingSpans : List MaskSpan := [⟨5, 12, "secrets", 0⟩, ⟨3, 7, "pii", 1⟩]

/-- One leaf, two spans, and a cut between them. -/
def oneLeaf : Text := "é42, sk-7".toList

def apartSpans : List MaskSpan := [⟨6, 10, "secrets", 0⟩, ⟨0, 4, "pii", 1⟩]

theorem mask_exact_crossing :
    (MergeOf crossingSpans [⟨3, 12, "secrets", 0⟩] ∧
      apply twoLeaves (merge crossingSpans) = ["id [REDACTED:secrets]".toList, "[REDACTED:secrets] ok".toList]) ∧
      ∃ out, apply [oneLeaf] (merge apartSpans) = [out] ∧
        Spliced 0 ((utf8Bytes oneLeaf).take 5) ((endingBy 5 (merge apartSpans)).map MaskSpan.patch)
          ((utf8Bytes out).take 15) := by
  refine ⟨⟨?_, by decide +kernel⟩, ?_⟩
  · have hmerge : merge crossingSpans = [⟨3, 12, "secrets", 0⟩] := by decide +kernel
    rw [← hmerge]
    exact (@mask_exact twoLeaves crossingSpans (by decide +kernel)).1
  · have hshift : shifted (merge apartSpans) 5 = 15 := by decide +kernel
    obtain ⟨-, -, -, hcut⟩ := @mask_exact [oneLeaf] apartSpans (by decide +kernel)
    obtain ⟨out, hout, htake, -⟩ := hcut oneLeaf 5 rfl (by decide +kernel)
    rw [hshift] at htake
    exact ⟨out, hout, htake⟩

end SynapseGateway
