import SynapseGateway.Lib.SortedFold
import SynapseGateway.Mask

/-!
# Merged spans

Merging does not depend on the order the spans are reported in, its spans are
disjoint and increasing, and at an offset that no span straddles it is two
merges. So is applying the spans, which makes masking a text the same as
masking its parts.
-/

namespace SynapseGateway

open String (utf8Len utf8Len_append)
open Utf8

def MaskSpan.shift (k : Nat) (s : MaskSpan) : MaskSpan := { s with start := s.start + k, stop := s.stop + k }

/-- What a scan reports: ranges that are not empty, and one label for each
position in the policy. -/
structure Spans (l : List MaskSpan) : Prop where
  lt : ∀ s ∈ l, s.start < s.stop
  label : ∀ x ∈ l, ∀ y ∈ l, x.order = y.order → x.label = y.label

theorem Spans.of_subset {l l' : List MaskSpan} (h : Spans l) (hs : l' ⊆ l) : Spans l' :=
  ⟨fun s hm => h.lt s (hs hm), fun x hx y hy => h.label x (hs hx) y (hs hy)⟩

/-! ## One step of the merge -/

theorem mergeStep_comm {x y : MaskSpan} (hs : x.start = y.start) (hx : x.start < x.stop) (hy : y.start < y.stop)
    (hl : x.order = y.order → x.label = y.label) (out : List MaskSpan) :
    mergeStep (mergeStep out x) y = mergeStep (mergeStep out y) x := by
  cases out with
  | nil =>
    simp only [mergeStep]
    grind
  | cons last rest =>
    simp only [mergeStep]
    grind

theorem mergeStep_shift (k : Nat) (out : List MaskSpan) (s : MaskSpan) :
    mergeStep (out.map (MaskSpan.shift k)) (s.shift k) = (mergeStep out s).map (MaskSpan.shift k) := by
  cases out with
  | nil => rfl
  | cons last rest =>
    have hmax : max (last.stop + k) (s.stop + k) = max last.stop s.stop + k := by omega
    simp only [mergeStep, List.map_cons, MaskSpan.shift, Nat.add_lt_add_iff_right, hmax]
    split
    · split <;> rfl
    · rfl

theorem mergeStep_append {acc out : List MaskSpan} {s : MaskSpan} (h : ∀ e ∈ out, e.stop ≤ s.start) :
    mergeStep (acc ++ out) s = mergeStep acc s ++ out := by
  cases acc with
  | nil =>
    cases out with
    | nil => rfl
    | cons last rest =>
      have hlast := h last (List.mem_cons_self ..)
      simp only [List.nil_append, mergeStep]
      rw [if_neg (by omega)]
      rfl
  | cons a acc =>
    simp only [List.cons_append, mergeStep]
    split <;> rfl

theorem mem_mergeStep {out : List MaskSpan} {s e : MaskSpan} (h : e ∈ mergeStep out s) :
    e = s ∨ e ∈ out ∨ ∃ last ∈ out, e.start = last.start ∧ (e.stop = last.stop ∨ e.stop = s.stop) ∧
      last.stop ≤ e.stop := by
  cases out with
  | nil => simp only [mergeStep, List.mem_singleton] at h; exact .inl h
  | cons last rest =>
    simp only [mergeStep] at h
    grind

/-! ## The whole merge -/

theorem foldl_mergeStep_append {l acc out : List MaskSpan} (h : ∀ s ∈ l, ∀ e ∈ out, e.stop ≤ s.start) :
    l.foldl mergeStep (acc ++ out) = l.foldl mergeStep acc ++ out := by
  induction l generalizing acc with
  | nil => rfl
  | cons s l ih =>
    rw [List.foldl_cons, mergeStep_append (h s (List.mem_cons_self ..)),
      ih fun x hx => h x (List.mem_cons_of_mem _ hx), List.foldl_cons]

theorem foldl_mergeStep_shift (k : Nat) (l out : List MaskSpan) :
    (l.map (MaskSpan.shift k)).foldl mergeStep (out.map (MaskSpan.shift k)) =
      (l.foldl mergeStep out).map (MaskSpan.shift k) := by
  induction l generalizing out with
  | nil => rfl
  | cons s l ih => rw [List.map_cons, List.foldl_cons, mergeStep_shift, ih, List.foldl_cons]

theorem foldl_mergeStep_endpoints {P Q : Nat → Prop} {l out : List MaskSpan}
    (hl : ∀ s ∈ l, P s.start ∧ Q s.stop) (ho : ∀ e ∈ out, P e.start ∧ Q e.stop) :
    ∀ e ∈ l.foldl mergeStep out, P e.start ∧ Q e.stop := by
  induction l generalizing out with
  | nil => exact ho
  | cons s l ih =>
    rw [List.foldl_cons]
    apply ih fun x hx => hl x (List.mem_cons_of_mem _ hx)
    intro e he
    have hs := hl s (List.mem_cons_self ..)
    rcases mem_mergeStep he with rfl | he | ⟨last, hlast, h1, h2, -⟩
    · exact hs
    · exact ho e he
    · have hlo := ho last hlast
      rw [h1]
      rcases h2 with h2 | h2 <;> rw [h2]
      · exact hlo
      · exact ⟨hlo.1, hs.2⟩

/-- The invariant of the merge: the spans so far, last to first, are disjoint
and not empty, and none starts after the next reported one. -/
structure Merged (out : List MaskSpan) (next : Nat) : Prop where
  disjoint : out.Pairwise fun a b => b.stop ≤ a.start
  lt : ∀ e ∈ out, e.start < e.stop
  le : ∀ e ∈ out, e.start ≤ next

theorem Merged.step {out : List MaskSpan} {s : MaskSpan} {next : Nat} (h : Merged out s.start)
    (hs : s.start < s.stop) (hn : s.start ≤ next) : Merged (mergeStep out s) next := by
  cases out with
  | nil => exact ⟨List.pairwise_singleton _ _, by simpa [mergeStep] using hs, by simpa [mergeStep] using hn⟩
  | cons last rest =>
    obtain ⟨hd, hlt, hle⟩ := h
    obtain ⟨hl, hr⟩ := List.pairwise_cons.mp hd
    have hlast := hlt last (List.mem_cons_self ..)
    have hlast' := hle last (List.mem_cons_self ..)
    simp only [mergeStep]
    by_cases hov : s.start < last.stop
    · rw [if_pos hov]
      -- the span grows at its end, so what comes before it stays before it
      refine ⟨List.pairwise_cons.mpr ⟨fun e he => ?_, hr⟩, ?_, ?_⟩
      · have := hl e he
        split <;> exact this
      all_goals
        intro e he
        rcases List.mem_cons.mp he with rfl | he
      · split <;> (show last.start < max last.stop s.stop) <;> omega
      · exact hlt e (List.mem_cons_of_mem _ he)
      · split <;> (show last.start ≤ next) <;> omega
      · have := hle e (List.mem_cons_of_mem _ he); omega
    · rw [if_neg hov]
      refine ⟨List.pairwise_cons.mpr ⟨fun e he => ?_, hd⟩, ?_, ?_⟩
      · rcases List.mem_cons.mp he with rfl | he
        · omega
        · have := hl e he; omega
      all_goals
        intro e he
        rcases List.mem_cons.mp he with rfl | he
      · exact hs
      · exact hlt e he
      · exact hn
      · have := hle e he; omega

theorem Merged.foldl {l out : List MaskSpan} {k : Nat} (h : Merged out k) (hk : ∀ s ∈ l, k ≤ s.start)
    (hp : l.Pairwise (fun a b => a.start ≤ b.start)) (hlt : ∀ s ∈ l, s.start < s.stop) :
    (l.foldl mergeStep out).Pairwise (fun a b => b.stop ≤ a.start) ∧
      ∀ e ∈ l.foldl mergeStep out, e.start < e.stop := by
  induction l generalizing out k with
  | nil => exact ⟨h.disjoint, h.lt⟩
  | cons s l ih =>
    obtain ⟨hp1, hp2⟩ := List.pairwise_cons.mp hp
    have hks := hk s (List.mem_cons_self ..)
    have hs : Merged out s.start := ⟨h.disjoint, h.lt, fun e he => Nat.le_trans (h.le e he) hks⟩
    rw [List.foldl_cons]
    exact ih (hs.step (hlt s (List.mem_cons_self ..)) (Nat.le_refl _)) hp1 hp2
      fun x hx => hlt x (List.mem_cons_of_mem _ hx)

section
variable {l l₁ l₂ : List MaskSpan}

theorem sorted_insertionSort (l : List MaskSpan) :
    (l.insertionSort (·.start ≤ ·.start)).Pairwise fun a b => a.start ≤ b.start :=
  List.pairwise_insertionSort (fun a b : MaskSpan => a.start ≤ b.start) l

theorem mem_insertionSort {s : MaskSpan} : s ∈ l.insertionSort (·.start ≤ ·.start) ↔ s ∈ l :=
  (List.perm_insertionSort _ l).mem_iff

/-- Any sorting of the spans has the same merge. -/
theorem merge_eq_of_sorted (h : Spans l₁) (hp : l₁.Perm l₂) (hs : l₂.Pairwise fun a b => a.start ≤ b.start) :
    merge l₁ = (l₂.foldl mergeStep []).reverse := by
  rw [merge]
  congr 1
  refine SortedFold.foldl_perm_sorted ((List.perm_insertionSort _ l₁).trans hp) (sorted_insertionSort l₁) hs ?_ []
  intro x hx y hy hxy hyx
  rw [mem_insertionSort] at hx hy
  exact mergeStep_comm (Nat.le_antisymm hxy hyx) (h.lt x hx) (h.lt y hy) (h.label x hx y hy)

theorem merge_perm (h : Spans l₁) (hp : l₁.Perm l₂) : merge l₁ = merge l₂ :=
  merge_eq_of_sorted h (hp.trans (List.perm_insertionSort _ l₂).symm) (sorted_insertionSort l₂)

theorem merge_shift (k : Nat) (l : List MaskSpan) : merge (l.map (MaskSpan.shift k)) = (merge l).map (MaskSpan.shift k) := by
  have hsort : (l.map (MaskSpan.shift k)).insertionSort (·.start ≤ ·.start) =
      (l.insertionSort (·.start ≤ ·.start)).map (MaskSpan.shift k) :=
    (List.map_insertionSort _ _ _ _ fun a _ b _ => by simp [MaskSpan.shift]).symm
  rw [merge, hsort, show ([] : List MaskSpan) = [].map (MaskSpan.shift k) from rfl, foldl_mergeStep_shift,
    ← List.map_reverse, merge]

theorem merge_endpoints {P Q : Nat → Prop} (h : ∀ s ∈ l, P s.start ∧ Q s.stop) :
    ∀ e ∈ merge l, P e.start ∧ Q e.stop := by
  intro e he
  rw [merge, List.mem_reverse] at he
  exact foldl_mergeStep_endpoints (fun s hs => h s (mem_insertionSort.mp hs)) (fun _ h => by cases h) e he

theorem merge_disjoint (h : ∀ s ∈ l, s.start < s.stop) :
    (merge l).Pairwise (fun a b => a.stop ≤ b.start) ∧ ∀ e ∈ merge l, e.start < e.stop := by
  have h0 : Merged [] 0 := ⟨List.Pairwise.nil, (fun _ h => by cases h), fun _ h => by cases h⟩
  have hm := h0.foldl (fun _ _ => Nat.zero_le _) (sorted_insertionSort l) fun s hs => h s (mem_insertionSort.mp hs)
  exact ⟨List.pairwise_reverse.mpr hm.1, fun e he => hm.2 e (List.mem_reverse.mp he)⟩

theorem merge_append {c : Nat} (h : Spans (l₁ ++ l₂)) (h₁ : ∀ s ∈ l₁, s.stop ≤ c) (h₂ : ∀ s ∈ l₂, c ≤ s.start) :
    merge (l₁ ++ l₂) = merge l₁ ++ merge l₂ := by
  have hsort : (l₁.insertionSort (·.start ≤ ·.start) ++ l₂.insertionSort (·.start ≤ ·.start)).Pairwise
      fun a b => a.start ≤ b.start := by
    refine List.pairwise_append.mpr ⟨sorted_insertionSort l₁, sorted_insertionSort l₂, fun a ha b hb => ?_⟩
    have ha' := mem_insertionSort.mp ha
    have := h.lt a (List.mem_append_left _ ha')
    have := h₁ a ha'
    have := h₂ b (mem_insertionSort.mp hb)
    omega
  have hstop : ∀ e ∈ (l₁.insertionSort (·.start ≤ ·.start)).foldl mergeStep [], e.stop ≤ c := fun e he =>
    (foldl_mergeStep_endpoints (P := fun _ => True) (Q := (· ≤ c))
      (fun s hs => ⟨trivial, h₁ s (mem_insertionSort.mp hs)⟩) (fun _ h => by cases h) e he).2
  rw [merge_eq_of_sorted h ((List.perm_insertionSort _ l₁).symm.append (List.perm_insertionSort _ l₂).symm) hsort,
    List.foldl_append]
  rw [← List.nil_append ((l₁.insertionSort _).foldl mergeStep []), foldl_mergeStep_append, List.reverse_append]
  · rfl
  · intro s hs e he
    exact Nat.le_trans (hstop e he) (h₂ s (mem_insertionSort.mp hs))

end

/-! ## Masking a text -/

theorem applyFrom_length (spans : List MaskSpan) (start : Nat) (seg : Segment) :
    (applyFrom spans start seg).length = seg.length := by
  induction seg generalizing start with
  | nil => rfl
  | cons leaf leaves ih => rw [applyFrom, List.length_cons, List.length_cons, ih]

def MaskSpan.edit (s : MaskSpan) : Edit := ⟨s.start, s.stop, redacted s.label⟩

theorem utf8Len_around (a l b : String) :
    utf8Len (a.toList ++ (l.toList ++ b.toList)) = (a ++ b).utf8ByteSize + l.utf8ByteSize := by
  rw [String.utf8ByteSize_append, utf8Len_append, utf8Len_append]
  simp only [String.utf8Len_toList]
  omega

theorem utf8Len_redacted (label : String) :
    utf8Len (redacted label) = "[REDACTED:]".utf8ByteSize + label.utf8ByteSize := by
  have h : "[REDACTED:" ++ "]" = "[REDACTED:]" := by decide +kernel
  rw [← h]
  exact utf8Len_around "[REDACTED:" label "]"

def maskText (t : Text) (spans : List MaskSpan) : Text := rewriteFrom 0 t ((merge spans).map MaskSpan.edit)

structure SpansIn (t : Text) (l : List MaskSpan) : Prop extends Spans l where
  boundary : ∀ s ∈ l, Boundary s.start t ∧ Boundary s.stop t

section
variable {t a b : Text} {l l₁ l₂ : List MaskSpan}

@[simp] theorem maskText_nil (t : Text) : maskText t [] = t := rfl

theorem maskText_perm (h : Spans l₁) (hp : l₁.Perm l₂) : maskText t l₁ = maskText t l₂ := by
  rw [maskText, merge_perm h hp, maskText]

theorem SpansIn.fits (h : SpansIn t l) : Fits 0 t ((merge l).map MaskSpan.edit) := by
  obtain ⟨hd, hlt⟩ := merge_disjoint h.lt
  have hb := merge_endpoints (P := fun n => Boundary n t) (Q := fun n => Boundary n t) h.boundary
  rw [← dropBytes_zero t]
  apply fits_of_pairwise (boundary_zero t) ?_ (List.pairwise_map.mpr hd)
  intro e he
  obtain ⟨s, hs, rfl⟩ := List.mem_map.mp he
  exact ⟨Nat.zero_le _, Nat.le_of_lt (hlt s hs), hb s hs⟩

theorem apply_singleton (h : SpansIn t l) : apply [t] (merge l) = [maskText t l] := by
  obtain ⟨-, hlt⟩ := merge_disjoint h.lt
  have hb := merge_endpoints (P := fun n => Boundary n t) (Q := fun n => Boundary n t) h.boundary
  have hleaf : applyLeaf (merge l) 0 t = replaceAll t ((merge l).map MaskSpan.edit) := by
    rw [applyLeaf, replaceAll, List.foldr_map]
    apply List.foldr_ext
    intro s hs u
    have hstop := (hb s hs).2.le
    have h1 : max s.start 0 = s.start := by omega
    have h2 : min s.stop (0 + utf8Len t) = s.stop := by omega
    simp only [h1, h2, if_pos (hlt s hs), Nat.sub_zero, MaskSpan.edit]
  rw [apply, applyFrom, applyFrom, hleaf, replaceAll_eq h.fits, maskText]

theorem maskText_append (h₁ : SpansIn a l₁) (h : Spans (l₁ ++ l₂.map (MaskSpan.shift (utf8Len a)))) :
    maskText (a ++ b) (l₁ ++ l₂.map (MaskSpan.shift (utf8Len a))) = maskText a l₁ ++ maskText b l₂ := by
  have hcut : merge (l₁ ++ l₂.map (MaskSpan.shift (utf8Len a))) =
      merge l₁ ++ (merge l₂).map (MaskSpan.shift (utf8Len a)) := by
    rw [merge_append (c := utf8Len a) h (fun s hs => (h₁.boundary s hs).2.le), merge_shift]
    intro s hs
    obtain ⟨s, -, rfl⟩ := List.mem_map.mp hs
    exact Nat.le_add_left _ _
  have hedit : ((merge l₂).map (MaskSpan.shift (utf8Len a))).map MaskSpan.edit =
      ((merge l₂).map MaskSpan.edit).map (Edit.shift (utf8Len a)) := by
    rw [List.map_map, List.map_map]; rfl
  rw [maskText, hcut, List.map_append, hedit, rewriteFrom_append b h₁.fits, Nat.zero_add,
    show rewriteFrom (utf8Len a) b _ = _ from rewriteFrom_shift (utf8Len a) _ 0 b]
  · rfl
  · intro e he
    obtain ⟨e, -, rfl⟩ := List.mem_map.mp he
    simp only [Edit.shift]
    omega

theorem shiftedFrom_past {p : Nat} {l : List MaskSpan} {delta : Int} (h : ∀ s ∈ l, s.start < s.stop ∧ s.stop ≤ p) :
    shiftedFrom p delta l = (p + delta + ((l.map fun s => utf8Len s.edit.text).sum : Nat) -
      ((l.map fun s => s.edit.stop - s.edit.start).sum : Nat)).toNat := by
  induction l generalizing delta with
  | nil => simp [shiftedFrom]
  | cons s l ih =>
    obtain ⟨h1, h2⟩ := h s (List.mem_cons_self ..)
    rw [shiftedFrom, if_neg (by omega)]
    show (if p < s.stop then _ else _) = _
    rw [if_neg (by omega), ih fun x hx => h x (List.mem_cons_of_mem _ hx), ← utf8Len_redacted]
    congr 1
    simp only [List.map_cons, List.sum_cons, MaskSpan.edit]
    push_cast
    omega

theorem shifted_end (h : SpansIn a l) : shifted (merge l) (utf8Len a) = utf8Len (maskText a l) := by
  obtain ⟨-, hlt⟩ := merge_disjoint h.lt
  have hb := merge_endpoints (P := fun n => Boundary n a) (Q := fun n => Boundary n a) h.boundary
  have hlen := utf8Len_rewriteFrom h.fits
  rw [shifted, shiftedFrom_past fun s hs => ⟨hlt s hs, (hb s hs).2.le⟩, maskText]
  simp only [List.map_map, Function.comp_def] at hlen
  omega

end

end SynapseGateway
