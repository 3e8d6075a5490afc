import Mathlib.Order.Bounds.Basic
import SynapseGateway.Lib.Assoc
import SynapseGateway.MaskExact
import SynapseGateway.OutputSound

/-!
# Where a release cuts

The settled cut is the last offset up to the window's that no match straddles.
A release splits the held text there, after masking what comes before it, and
either split or mask may miss a character boundary, where the program panics.
-/

namespace SynapseGateway

open String (utf8Len utf8Len_append)
open Utf8

/-- The offsets up to `w` strictly inside no match. -/
def settledOffsets (ms : List Match) (w : Nat) : Set Nat := {c | c ≤ w ∧ ∀ m ∈ ms, ¬ (m.start < c ∧ c < m.stop)}

section
variable (llm : LlmGuard) (eng : GuardEngine)

/-- The matches of a text that count up to `cut`, judged. -/
def CompiledScanners.judged (scanners : CompiledScanners) (mode : PolicyMode) (text : Text) (cut : Nat) : List Judged :=
  ((llm.pipelineScan scanners.pipeline text).map (scanners.judge mode)).filter (Judged.kept cut)

def CompiledScanners.maskSpans (scanners : CompiledScanners) (mode : PolicyMode) (text : Text) (cut : Nat) :
    List MaskSpan :=
  merge (((scanners.judged llm mode text cut).filter (·.wanted == .mask)).map scanners.span)

def tryApplyLeaf (spans : List MaskSpan) (own : Nat) (leaf : Text) : Option Text :=
  spans.foldr (fun s t => t.bind fun t =>
    let from' := max s.start own
    let upto := min s.stop (own + utf8Len leaf)
    if from' < upto then tryReplaceRange t (from' - own) (upto - own) (redacted s.label) else some t) (some leaf)

/-- `releaseOutput` with `none` where the program panics. -/
def GuardEngine.tryReleaseOutput (eng : GuardEngine) (policyName : String) (held : Text) (windowCut : Option Nat) :
    Option OutputRelease :=
  match (eng.policy policyName).bind fun p => p.output.map fun o => (p, o) with
  | none =>
    (splitOff held (clampCut windowCut (utf8Len held))).map fun (released, rest) =>
      ⟨{ outcome := "pass" }, released, rest, []⟩
  | some (policy, scanners) =>
    let cut := settledCut (llm.pipelineScan scanners.pipeline held) (clampCut windowCut (utf8Len held))
    let (v, _, records) := scanSegment llm policyName .chat "output" scanners policy.mode [held] windowCut
    let blockers := sortedDedup v.blockers
    let scan := ⟨blockers, sortedDedup v.matched, outcomeLabel v.wanted v.effects⟩
    if blockers.isEmpty then
      (if v.masked then tryApplyLeaf (scanners.maskSpans llm policy.mode held cut) 0 held else some held).bind fun leaf =>
        (splitOff leaf v.cut).map fun (released, rest) => ⟨scan, released, rest, records⟩
    else some ⟨scan, [], held, records⟩

def OutputGuard.tryRelease (g : OutputGuard) (windowCut : Nat) : Option OutputStep :=
  (eng.tryReleaseOutput llm g.policy g.held (some windowCut)).map fun _ => g.release llm eng windowCut

def OutputGuard.tryPush (g : OutputGuard) (delta : Text) : Option OutputStep :=
  let g := { g with held := g.held ++ delta }
  g.tryRelease llm eng g.windowCut

def OutputGuard.tryFlush (g : OutputGuard) : Option OutputStep := g.tryRelease llm eng (utf8Len g.held)

end

/-! ## The settled cut -/

theorem settleFrom_ge {ms : List Match} {c : Nat} (hc : ∀ m ∈ ms, ¬ (m.start < c ∧ c < m.stop)) {fuel cut : Nat}
    (h : c ≤ cut) : c ≤ settleFrom ms fuel cut := by
  induction fuel generalizing cut with
  | zero => exact h
  | succ fuel ih =>
    rw [settleFrom]
    cases hmin : ((ms.filter fun m => m.start < cut && cut < m.stop).map (·.start)).min? with
    | none => exact h
    | some start =>
      obtain ⟨m, hm, rfl⟩ := List.mem_map.mp (List.min?_mem hmin)
      obtain ⟨hmem, hcross⟩ := List.mem_filter.mp hm
      have hcross : m.start < cut ∧ cut < m.stop := by simpa using hcross
      refine ih ?_
      -- `c` is not inside the match that crosses `cut`, so it is not past its start
      have := hc m hmem
      show c ≤ m.start
      omega

theorem settledCut_greatest (ms : List Match) (w : Nat) : IsGreatest (settledOffsets ms w) (settledCut ms w) := by
  refine ⟨⟨settleFrom_le ms w w, settleFrom_settled ms (Nat.le_refl w)⟩, ?_⟩
  rintro c ⟨hle, hc⟩
  exact settleFrom_ge hc hle

theorem settleFrom_fuel (ms : List Match) {fuel w : Nat} (h : w ≤ fuel) : settleFrom ms fuel w = settledCut ms w := by
  apply Nat.le_antisymm
  · exact (settledCut_greatest ms w).2 ⟨settleFrom_le ms fuel w, settleFrom_settled ms h⟩
  · exact settleFrom_ge (settledCut_greatest ms w).1.2 (settleFrom_le ms w w)

/-! ## Merging any spans -/

/-- Spans merged so far, last to first: none starts before an earlier one ends. -/
structure MergedAny (out : List MaskSpan) (next : Nat) : Prop where
  sorted : out.Pairwise fun a b => b.stop ≤ a.start ∧ b.start ≤ a.start
  le : ∀ e ∈ out, e.start ≤ next

theorem MergedAny.step {out : List MaskSpan} {s : MaskSpan} (h : MergedAny out s.start) :
    MergedAny (mergeStep out s) s.start := by
  cases out with
  | nil => exact ⟨List.pairwise_singleton _ _, by simp [mergeStep]⟩
  | cons last rest =>
    obtain ⟨hl, hr⟩ := List.pairwise_cons.mp h.sorted
    have hlast := h.le last List.mem_cons_self
    simp only [mergeStep]
    by_cases hover : s.start < last.stop
    · rw [if_pos hover]
      refine ⟨List.pairwise_cons.mpr ⟨fun e he => ?_, hr⟩, fun e he => ?_⟩
      · split <;> exact hl e he
      · rcases List.mem_cons.mp he with rfl | he
        · split <;> exact hlast
        · exact h.le e (List.mem_cons_of_mem last he)
    · rw [if_neg hover]
      refine ⟨List.pairwise_cons.mpr ⟨fun e he => ?_, h.sorted⟩, fun e he => ?_⟩
      · refine ⟨?_, h.le e he⟩
        rcases List.mem_cons.mp he with rfl | he
        · omega
        · exact Nat.le_trans (hl e he).1 hlast
      · rcases List.mem_cons.mp he with rfl | he
        · exact Nat.le_refl _
        · exact h.le e he

theorem MergedAny.foldl {l out : List MaskSpan} {k : Nat} (h : MergedAny out k) (hk : ∀ s ∈ l, k ≤ s.start)
    (hp : l.Pairwise fun a b => a.start ≤ b.start) :
    (l.foldl mergeStep out).Pairwise fun a b => b.stop ≤ a.start ∧ b.start ≤ a.start := by
  induction l generalizing out k with
  | nil => exact h.sorted
  | cons s l ih =>
    obtain ⟨hp1, hp2⟩ := List.pairwise_cons.mp hp
    have hks := hk s List.mem_cons_self
    have hs : MergedAny out s.start := ⟨h.sorted, fun e he => Nat.le_trans (h.le e he) hks⟩
    rw [List.foldl_cons]
    exact ih hs.step hp1 hp2

theorem merge_sorted (l : List MaskSpan) : (merge l).Pairwise fun a b => a.stop ≤ b.start ∧ a.start ≤ b.start := by
  have h0 : MergedAny [] 0 := ⟨.nil, fun _ h => by cases h⟩
  exact List.pairwise_reverse.mpr (h0.foldl (fun _ _ => Nat.zero_le _) (sorted_insertionSort l))

/-! ## Masking and cutting -/

/-- What masking replaces: a span that is empty is passed over. -/
def editsOf (spans : List MaskSpan) : List Utf8.Edit := (spans.filter fun s => s.start < s.stop).map MaskSpan.edit

/-- How far `shifted` moves a cut for the spans that masking passes over. -/
def stray (cut : Nat) (spans : List MaskSpan) : Nat :=
  ((spans.filter fun s => s.start < cut && s.stop ≤ s.start).map fun s => utf8Len (redacted s.label)).sum

theorem tryApplyLeaf_shares (spans : List MaskSpan) (own : Nat) (leaf : Text) :
    tryApplyLeaf spans own leaf = tryReplaceAll leaf (spans.filterMap (MaskSpan.share own leaf)) := by
  induction spans with
  | nil => rfl
  | cons s spans ih =>
    have hstep : tryApplyLeaf (s :: spans) own leaf = _ := List.foldr_cons ..
    rw [hstep, ← tryApplyLeaf, List.filterMap_cons, MaskSpan.share, ih]
    by_cases hshare : max s.start own < min s.stop (own + utf8Len leaf)
    · simp only [if_pos hshare]
      rfl
    · simp only [if_neg hshare]
      exact Option.bind_fun_some _

theorem shares_eq {leaf : Text} {spans : List MaskSpan} (h : ∀ s ∈ spans, s.stop ≤ utf8Len leaf) :
    spans.filterMap (MaskSpan.share 0 leaf) = editsOf spans := by
  unfold editsOf
  induction spans with
  | nil => rfl
  | cons s spans ih =>
    have ih := ih fun x hx => h x (List.mem_cons_of_mem s hx)
    have hstop := h s List.mem_cons_self
    by_cases hlt : s.start < s.stop
    · rw [List.filterMap_cons_some (share_whole hlt hstop), List.filter_cons_of_pos (by simpa using hlt), List.map_cons,
        ih]
    · have hnone : s.share 0 leaf = none := if_neg (by omega)
      rw [List.filterMap_cons_none hnone, List.filter_cons_of_neg (by simpa using hlt), ih]

section
variable {spans : List MaskSpan} {t : Text} {cut : Nat}

theorem editsOf_ordered (h : spans.Pairwise fun a b => a.stop ≤ b.start ∧ a.start ≤ b.start) : Ordered (editsOf spans) := by
  refine ⟨?_, ?_⟩
  · intro e he
    obtain ⟨s, hs, rfl⟩ := List.mem_map.mp he
    have hlt : s.start < s.stop := by simpa using (List.mem_filter.mp hs).2
    exact Nat.le_of_lt hlt
  · unfold editsOf
    rw [List.pairwise_map]
    exact (h.filter _).imp fun hab => hab.1

/-- Spans from the cut on are empty, and none of them is before the cut. -/
theorem spans_late (hstop : ∀ s ∈ spans, s.stop ≤ cut) (hlate : ∀ s ∈ spans, cut ≤ s.start) :
    editsOf spans = [] ∧ stray cut spans = 0 := by
  have hedits : spans.filter (fun s => s.start < s.stop) = [] := by
    rw [List.filter_eq_nil_iff]
    intro s hs
    have := hlate s hs
    have := hstop s hs
    simp only [decide_eq_true_eq]
    omega
  have hstray : spans.filter (fun s => s.start < cut && s.stop ≤ s.start) = [] := by
    rw [List.filter_eq_nil_iff]
    intro s hs
    have := hlate s hs
    simp only [Bool.and_eq_true, decide_eq_true_eq]
    omega
  rw [editsOf, stray, hedits, hstray]
  exact ⟨rfl, rfl⟩

theorem shiftedFrom_any {delta : Int} (hstop : ∀ s ∈ spans, s.stop ≤ cut)
    (hsorted : spans.Pairwise fun a b => a.start ≤ b.start) :
    shiftedFrom cut delta spans = (cut + delta + (((editsOf spans).map fun e => utf8Len e.text).sum : Nat) +
      (stray cut spans : Nat) - (((editsOf spans).map fun e => e.stop - e.start).sum : Nat)).toNat := by
  induction spans generalizing delta with
  | nil => simp [shiftedFrom, editsOf, stray]
  | cons s spans ih =>
    obtain ⟨hfirst, hrest⟩ := List.pairwise_cons.mp hsorted
    have hs := hstop s List.mem_cons_self
    have hstop' : ∀ x ∈ spans, x.stop ≤ cut := fun x hx => hstop x (List.mem_cons_of_mem s hx)
    rw [shiftedFrom]
    by_cases hpast : cut ≤ s.start
    · obtain ⟨hedits, hstray⟩ := spans_late hstop fun x hx => by
        rcases List.mem_cons.mp hx with rfl | hx
        · exact hpast
        · exact Nat.le_trans hpast (hfirst x hx)
      rw [if_pos hpast, hedits, hstray]
      simp
    · rw [if_neg hpast]
      show (if cut < s.stop then _ else _) = _
      rw [if_neg (by omega), ih hstop' hrest, ← utf8Len_redacted]
      congr 1
      unfold editsOf stray
      by_cases hlt : s.start < s.stop
      · rw [List.filter_cons_of_pos (by simpa using hlt), List.filter_cons_of_neg (by simp; omega)]
        simp only [List.map_cons, List.sum_cons, MaskSpan.edit]
        push_cast
        omega
      · rw [List.filter_cons_of_neg (by simpa using hlt), List.filter_cons_of_pos (by simp; omega)]
        simp only [List.map_cons, List.sum_cons]
        rw [show s.stop - s.start = 0 by omega]
        push_cast
        omega

/-- The masked text cut where `shifted` says is the raw text cut at the cut, moved by the stray labels. -/
theorem masked_cut (hstop : ∀ s ∈ spans, s.stop ≤ cut)
    (hsorted : spans.Pairwise fun a b => a.stop ≤ b.start ∧ a.start ≤ b.start) (hcut : cut ≤ utf8Len t)
    (hb : OnBoundaries t (editsOf spans)) :
    (Boundary (shifted spans cut) (applyLeaf spans 0 t) ↔ Boundary (cut + stray cut spans) t) ∧
      dropBytes (shifted spans cut) (applyLeaf spans 0 t) = dropBytes (cut + stray cut spans) t := by
  have hends : ∀ e ∈ editsOf spans, e.stop ≤ cut := by
    intro e he
    obtain ⟨s, hs, rfl⟩ := List.mem_map.mp he
    exact hstop s (List.mem_of_mem_filter hs)
  obtain ⟨hfits, hmasked⟩ := replaceAll_before (editsOf_ordered hsorted) hb hends
  have hlen := utf8Len_rewriteFrom hfits
  have hfront := utf8Len_takeBytes_le cut t
  have hshift := @shiftedFrom_any spans cut 0 hstop (hsorted.imp fun hab => hab.2)
  rw [← shifted] at hshift
  have hmove : shifted spans cut = utf8Len (rewriteFrom 0 (takeBytes cut t) (editsOf spans)) +
      (cut - utf8Len (takeBytes cut t) + stray cut spans) := by
    omega
  have hsplit : cut + stray cut spans = utf8Len (takeBytes cut t) +
      (cut - utf8Len (takeBytes cut t) + stray cut spans) := by
    omega
  rw [applyLeaf_shares, shares_eq fun s hs => Nat.le_trans (hstop s hs) hcut, hmasked, hmove]
  refine ⟨?_, ?_⟩
  · rw [boundary_append_ge _ (Nat.le_add_right _ _), Nat.add_sub_cancel_left]
    conv_rhs => rw [← takeBytes_append_dropBytes cut t]
    rw [hsplit, boundary_append_ge _ (Nat.le_add_right _ _), Nat.add_sub_cancel_left]
  · rw [dropBytes_append_ge _ _ (Nat.le_add_right _ _), Nat.add_sub_cancel_left]
    conv_rhs => rw [← takeBytes_append_dropBytes cut t]
    rw [hsplit, dropBytes_append_ge _ _ (Nat.le_add_right _ _), Nat.add_sub_cancel_left]

end

/-! ## One release -/

section
variable (llm : LlmGuard) (eng : GuardEngine)

def GuardEngine.output (name : String) : Option (CompiledPolicy × CompiledScanners) :=
  (eng.policy name).bind fun p => p.output.map fun o => (p, o)

def GuardEngine.outputMatches (name : String) (held : Text) : List Match :=
  match eng.output name with
  | none => []
  | some (_, o) => llm.pipelineScan o.pipeline held

def CompiledScanners.Blocks (o : CompiledScanners) (mode : PolicyMode) (held : Text) : Prop :=
  ∃ m ∈ llm.pipelineScan o.pipeline held, (o.judge mode m).eff = .block

def CompiledScanners.Masks (o : CompiledScanners) (mode : PolicyMode) (held : Text) (cut : Nat) : Prop :=
  ∃ m ∈ llm.pipelineScan o.pipeline held, (o.judge mode m).eff = .mask ∧ m.stop ≤ cut

instance (o : CompiledScanners) (mode : PolicyMode) (held : Text) (cut : Nat) : Decidable (o.Masks llm mode held cut) :=
  inferInstanceAs (Decidable (∃ m ∈ llm.pipelineScan o.pipeline held, (o.judge mode m).eff = .mask ∧ m.stop ≤ cut))

/-- A match of the held text blocks. -/
def GuardEngine.BlocksOutput (name : String) (held : Text) : Prop :=
  ∃ p o, eng.output name = some (p, o) ∧ o.Blocks llm p.mode held

/-- A match that ends by the cut is masked. -/
def GuardEngine.MasksOutput (name : String) (held : Text) (cut : Nat) : Prop :=
  ∃ p o, eng.output name = some (p, o) ∧ o.Masks llm p.mode held cut

/-- The merged spans that are masked before the cut. -/
def CompiledScanners.applied (o : CompiledScanners) (mode : PolicyMode) (held : Text) (cut : Nat) : List MaskSpan :=
  if o.Masks llm mode held cut then o.maskSpans llm mode held cut else []

def GuardEngine.appliedSpans (name : String) (held : Text) (cut : Nat) : List MaskSpan :=
  match eng.output name with
  | none => []
  | some (p, o) => o.applied llm p.mode held cut

end

section
variable {llm : LlmGuard} {o : CompiledScanners} {mode : PolicyMode} {held : Text} {cut : Nat}

theorem mem_judged {j : Judged} : j ∈ o.judged llm mode held cut ↔
    ∃ m ∈ llm.pipelineScan o.pipeline held, o.judge mode m = j ∧ (j.eff = .block ∨ m.stop ≤ cut) := by
  unfold CompiledScanners.judged
  rw [List.mem_filter, List.mem_map]
  constructor
  · rintro ⟨⟨m, hm, rfl⟩, hkept⟩
    have hsame : (o.judge mode m).m = m := rfl
    exact ⟨m, hm, rfl, by simpa [Judged.kept, hsame] using hkept⟩
  · rintro ⟨m, hm, rfl, hkept⟩
    have hsame : (o.judge mode m).m = m := rfl
    exact ⟨⟨m, hm, rfl⟩, by simpa [Judged.kept, hsame] using hkept⟩

theorem blockers_isEmpty (llm : LlmGuard) (o : CompiledScanners) (mode : PolicyMode) (held : Text) (cut : Nat) :
    (((o.judged llm mode held cut).filter (·.eff == .block)).map (·.m.scanner)).isEmpty = true ↔
      ¬ o.Blocks llm mode held := by
  rw [List.isEmpty_iff, List.map_eq_nil_iff, List.filter_eq_nil_iff]
  constructor
  · rintro hnone ⟨m, hm, heff⟩
    exact hnone (o.judge mode m) (mem_judged.mpr ⟨m, hm, rfl, .inl heff⟩) (by simp [heff])
  · intro hno j hj heff
    obtain ⟨m, hm, rfl, -⟩ := mem_judged.mp hj
    exact hno ⟨m, hm, eq_of_beq heff⟩

theorem effects_mask (llm : LlmGuard) (o : CompiledScanners) (mode : PolicyMode) (held : Text) (cut : Nat) :
    ((o.judged llm mode held cut).map (·.eff)).contains .mask = true ↔ o.Masks llm mode held cut := by
  rw [List.contains_iff_mem, List.mem_map]
  constructor
  · rintro ⟨j, hj, heff⟩
    obtain ⟨m, hm, rfl, hkept⟩ := mem_judged.mp hj
    refine ⟨m, hm, heff, hkept.resolve_left ?_⟩
    rw [heff]
    exact nofun
  · rintro ⟨m, hm, heff, hstop⟩
    exact ⟨_, mem_judged.mpr ⟨m, hm, rfl, .inr hstop⟩, heff⟩

theorem maskSpans_stop (h : ¬ o.Blocks llm mode held) : ∀ s ∈ o.maskSpans llm mode held cut, s.stop ≤ cut := by
  intro s hs
  refine (merge_endpoints (P := fun _ => True) (Q := (· ≤ cut)) ?_ s hs).2
  intro x hx
  obtain ⟨j, hj, rfl⟩ := List.mem_map.mp hx
  obtain ⟨m, hm, rfl, hkept⟩ := mem_judged.mp (List.mem_of_mem_filter hj)
  exact ⟨trivial, hkept.resolve_left fun heff => h ⟨m, hm, heff⟩⟩

theorem applied_stop (h : ¬ o.Blocks llm mode held) : ∀ s ∈ o.applied llm mode held cut, s.stop ≤ cut := by
  unfold CompiledScanners.applied
  split
  · exact maskSpans_stop h
  · exact fun s hs => by cases hs

theorem applied_sorted : (o.applied llm mode held cut).Pairwise fun a b => a.stop ≤ b.start ∧ a.start ≤ b.start := by
  unfold CompiledScanners.applied
  split
  · exact merge_sorted _
  · exact .nil

theorem shifted_nil (cut : Nat) : shifted [] cut = cut := by simp [shifted, shiftedFrom]

theorem scan_passes (name : String) (w : Option Nat) {v : SegmentVerdict} {leaves : Segment} {records : List MatchRecord}
    (hcut : settledCut (llm.pipelineScan o.pipeline held) (clampCut w (utf8Len held)) = cut)
    (h : scanSegment llm name .chat "output" o mode [held] w = (v, leaves, records)) (hb : ¬ o.Blocks llm mode held) :
    v.blockers = [] ∧
      (if v.masked then tryApplyLeaf (o.maskSpans llm mode held cut) 0 held else some held) =
        tryApplyLeaf (o.applied llm mode held cut) 0 held ∧
      v.cut = shifted (o.applied llm mode held cut) cut ∧ leaves = [applyLeaf (o.applied llm mode held cut) 0 held] := by
  unfold scanSegment at h
  simp only [joined_singleton, hcut] at h
  have hempty := (blockers_isEmpty llm o mode held cut).mpr hb
  have hmask := effects_mask llm o mode held cut
  unfold CompiledScanners.judged at hempty hmask
  unfold CompiledScanners.applied
  by_cases hm : o.Masks llm mode held cut
  · rw [if_pos (by rw [hempty, hmask.mpr hm]; rfl)] at h
    cases h
    rw [if_pos hm]
    exact ⟨List.isEmpty_iff.mp hempty, rfl, rfl, rfl⟩
  · rw [if_neg (by rw [hempty, Bool.true_and, hmask]; exact hm)] at h
    cases h
    rw [if_neg hm, shifted_nil]
    exact ⟨List.isEmpty_iff.mp hempty, rfl, rfl, rfl⟩

theorem scan_blocked (name : String) (w : Option Nat) (hb : o.Blocks llm mode held) :
    (scanSegment llm name .chat "output" o mode [held] w).1.blockers ≠ [] ∧
      (scanSegment llm name .chat "output" o mode [held] w).2.1 = [held] := by
  unfold scanSegment
  simp only [joined_singleton]
  have hempty := blockers_isEmpty llm o mode held
    (settledCut (llm.pipelineScan o.pipeline held) (clampCut w (utf8Len held)))
  unfold CompiledScanners.judged at hempty
  have hfull := fun he => hempty.mp he hb
  rw [if_neg (by rw [Bool.and_eq_true]; exact fun he => hfull he.1)]
  exact ⟨fun hnil => hfull (List.isEmpty_iff.mpr hnil), rfl⟩

end

theorem tryApplyLeaf_eq {spans : List MaskSpan} {t : Text} (hstop : ∀ s ∈ spans, s.stop ≤ utf8Len t)
    (hsorted : spans.Pairwise fun a b => a.stop ≤ b.start ∧ a.start ≤ b.start) :
    (OnBoundaries t (editsOf spans) → tryApplyLeaf spans 0 t = some (applyLeaf spans 0 t)) ∧
      (¬ OnBoundaries t (editsOf spans) → tryApplyLeaf spans 0 t = none) := by
  rw [tryApplyLeaf_shares, applyLeaf_shares, shares_eq hstop]
  exact tryReplaceAll_eq (editsOf_ordered hsorted)

/-- Masking a text and splitting it where `shifted` says. -/
theorem split_masked {α : Type} {spans : List MaskSpan} {t : Text} {cut : Nat} (hstop : ∀ s ∈ spans, s.stop ≤ cut)
    (hsorted : spans.Pairwise fun a b => a.stop ≤ b.start ∧ a.start ≤ b.start) (hcut : cut ≤ utf8Len t)
    (f : Text × Text → α) :
    ((tryApplyLeaf spans 0 t).bind fun leaf => (splitOff leaf (shifted spans cut)).map f) =
      if OnBoundaries t (editsOf spans) ∧ Boundary (cut + stray cut spans) t then
        some (f (takeBytes (shifted spans cut) (applyLeaf spans 0 t), dropBytes (shifted spans cut) (applyLeaf spans 0 t)))
      else none := by
  obtain ⟨happly, happly'⟩ := tryApplyLeaf_eq (fun s hs => Nat.le_trans (hstop s hs) hcut) hsorted
  by_cases hedits : OnBoundaries t (editsOf spans)
  · obtain ⟨hsplit, -⟩ := masked_cut hstop hsorted hcut hedits
    rw [happly hedits, Option.bind_some, splitOff]
    by_cases hboundary : Boundary (cut + stray cut spans) t
    · rw [if_pos (hsplit.mpr hboundary), if_pos ⟨hedits, hboundary⟩]
      rfl
    · rw [if_neg (mt hsplit.mp hboundary), if_neg fun h => hboundary h.2]
      rfl
  · rw [happly' hedits, if_neg fun h => hedits h.1]
    rfl

theorem splitOff_of_boundary {n : Nat} {t : Text} (h : Boundary n t) : splitOff t n = some (takeBytes n t, dropBytes n t) :=
  if_pos h

theorem splitOff_of_not {n : Nat} {t : Text} (h : ¬ Boundary n t) : splitOff t n = none := if_neg h

section
variable {llm : LlmGuard} {eng : GuardEngine} {name : String} {held : Text} {w : Option Nat} {cut : Nat}

/-- Every cut that the call makes is on a character boundary. -/
def CutsFit (llm : LlmGuard) (eng : GuardEngine) (name : String) (held : Text) (cut : Nat) : Prop :=
  OnBoundaries held (editsOf (eng.appliedSpans llm name held cut)) ∧
    Boundary (cut + stray cut (eng.appliedSpans llm name held cut)) held

/-- What a release that returns has done. -/
structure Split (llm : LlmGuard) (eng : GuardEngine) (name : String) (held : Text) (cut : Nat) (r : OutputRelease) :
    Prop where
  passes : r.scan.blockers = []
  rest : r.held = dropBytes (cut + stray cut (eng.appliedSpans llm name held cut)) held
  released : ¬ eng.MasksOutput llm name held cut → r.released = takeBytes cut held

theorem clampCut_le (w : Option Nat) (len : Nat) : clampCut w len ≤ len := by
  cases w with
  | none => exact Nat.le_refl len
  | some w => exact Nat.min_le_right w len

theorem tryRelease_blocked (hb : eng.BlocksOutput llm name held) (w : Option Nat) :
    eng.tryReleaseOutput llm name held w = some (eng.releaseOutput llm name held w) ∧
      (eng.releaseOutput llm name held w).scan.blockers ≠ [] := by
  obtain ⟨p, o, hout, hb⟩ := hb
  obtain ⟨hne, hleaves⟩ := scan_blocked name w hb
  unfold GuardEngine.output at hout
  unfold GuardEngine.tryReleaseOutput GuardEngine.releaseOutput
  rw [hout]
  have hfull : ¬ (sortedDedup (scanSegment llm name .chat "output" o p.mode [held] w).1.blockers).isEmpty = true := by
    rw [sortedDedup_isEmpty, List.isEmpty_iff]
    exact hne
  simp only [if_neg hfull, hleaves, List.headD_cons, true_and]
  intro hnil
  exact hfull (List.isEmpty_iff.mpr hnil)

theorem tryRelease_unscreened (hout : eng.output name = none)
    (hcut : settledCut (eng.outputMatches llm name held) (clampCut w (utf8Len held)) = cut) :
    (CutsFit llm eng name held cut → eng.tryReleaseOutput llm name held w = some (eng.releaseOutput llm name held w) ∧
        Split llm eng name held cut (eng.releaseOutput llm name held w)) ∧
      (¬ CutsFit llm eng name held cut → eng.tryReleaseOutput llm name held w = none) := by
  unfold CutsFit
  have hspans : eng.appliedSpans llm name held cut = [] := by
    unfold GuardEngine.appliedSpans
    rw [hout]
  have hnone : eng.outputMatches llm name held = [] := by
    unfold GuardEngine.outputMatches
    rw [hout]
  rw [hnone, settledCut, settleFrom_of_settled (by simp)] at hcut
  have hstray : stray cut [] = 0 := rfl
  have hedits : OnBoundaries held (editsOf []) := fun e he => by cases he
  unfold GuardEngine.output at hout
  unfold GuardEngine.tryReleaseOutput GuardEngine.releaseOutput
  rw [hspans, hstray, Nat.add_zero, hout]
  simp only [hcut]
  constructor
  · rintro ⟨-, hcut⟩
    rw [splitOff_of_boundary hcut]
    refine ⟨rfl, rfl, ?_, fun _ => rfl⟩
    rw [hspans, hstray, Nat.add_zero]
  · intro hno
    rw [splitOff_of_not fun hcut => hno ⟨hedits, hcut⟩]
    rfl

theorem tryRelease_screened {p : CompiledPolicy} {o : CompiledScanners} (hout : eng.output name = some (p, o))
    (hno : ¬ o.Blocks llm p.mode held)
    (hcut : settledCut (eng.outputMatches llm name held) (clampCut w (utf8Len held)) = cut) :
    (CutsFit llm eng name held cut → eng.tryReleaseOutput llm name held w = some (eng.releaseOutput llm name held w) ∧
        Split llm eng name held cut (eng.releaseOutput llm name held w)) ∧
      (¬ CutsFit llm eng name held cut → eng.tryReleaseOutput llm name held w = none) := by
  have hle : cut ≤ utf8Len held := by
    rw [← hcut]
    exact Nat.le_trans (settleFrom_le _ _ _) (clampCut_le w _)
  unfold CutsFit
  have hms : eng.outputMatches llm name held = llm.pipelineScan o.pipeline held := by
    unfold GuardEngine.outputMatches
    rw [hout]
  have hspans : eng.appliedSpans llm name held cut = o.applied llm p.mode held cut := by
    unfold GuardEngine.appliedSpans
    rw [hout]
  rw [hms] at hcut
  generalize hscan : scanSegment llm name .chat "output" o p.mode [held] w = scan
  obtain ⟨v, leaves, records⟩ := scan
  obtain ⟨hblockers, hleaf, hvcut, rfl⟩ := scan_passes name w hcut hscan hno
  have hempty : (sortedDedup v.blockers).isEmpty = true := by
    rw [sortedDedup_isEmpty, hblockers]
    rfl
  unfold GuardEngine.output at hout
  unfold GuardEngine.tryReleaseOutput GuardEngine.releaseOutput
  rw [hspans, hout]
  simp only [hscan, hcut, if_pos hempty, hleaf, hvcut, List.headD_cons,
    split_masked (applied_stop hno) applied_sorted hle]
  constructor
  · intro hfits
    rw [if_pos hfits]
    refine ⟨rfl, List.isEmpty_iff.mp hempty, ?_, fun hn => ?_⟩
    · rw [hspans]
      exact (masked_cut (applied_stop hno) applied_sorted hle hfits.1).2
    · have hnil : o.applied llm p.mode held cut = [] := if_neg fun hm => hn ⟨p, o, hout, hm⟩
      rw [hnil, shifted_nil]
      rfl
  · intro hmiss
    rw [if_neg hmiss]

theorem tryRelease_passes (hb : ¬ eng.BlocksOutput llm name held)
    (hcut : settledCut (eng.outputMatches llm name held) (clampCut w (utf8Len held)) = cut) :
    (CutsFit llm eng name held cut → eng.tryReleaseOutput llm name held w = some (eng.releaseOutput llm name held w) ∧
        Split llm eng name held cut (eng.releaseOutput llm name held w)) ∧
      (¬ CutsFit llm eng name held cut → eng.tryReleaseOutput llm name held w = none) := by
  cases hout : eng.output name with
  | none => exact tryRelease_unscreened hout hcut
  | some po =>
    obtain ⟨p, o⟩ := po
    exact tryRelease_screened hout (fun hblocks => hb ⟨p, o, hout, hblocks⟩) hcut

end

/-! ## The prefix a release removes -/

/-- The call returns and, unless it blocks, leaves the held text after a prefix. -/
def KeepsRemainder (llm : LlmGuard) (eng : GuardEngine) (name : String) (held : Text) (w : Option Nat) : Prop :=
  ∃ r, eng.tryReleaseOutput llm name held w = some r ∧ (r.scan.blockers = [] → ∃ a, held = a ++ r.held)

/-- The prefix is the one before the offset `cut`. -/
def RemovesUpTo (llm : LlmGuard) (eng : GuardEngine) (name : String) (held : Text) (w : Option Nat) (cut : Nat) : Prop :=
  ∃ r, eng.tryReleaseOutput llm name held w = some r ∧
    (r.scan.blockers = [] → ∃ a, held = a ++ r.held ∧ utf8Len a = cut)

section
variable {llm : LlmGuard} {eng : GuardEngine} {name : String} {held : Text} {w : Option Nat} {cut : Nat}

theorem Split.suffix {r : OutputRelease} (h : Split llm eng name held cut r) :
    held = takeBytes (cut + stray cut (eng.appliedSpans llm name held cut)) held ++ r.held := by
  rw [h.rest]
  exact (takeBytes_append_dropBytes _ held).symm

theorem tryRelease_isSome
    (hcut : settledCut (eng.outputMatches llm name held) (clampCut w (utf8Len held)) = cut) :
    (eng.tryReleaseOutput llm name held w).isSome = true ↔
      eng.BlocksOutput llm name held ∨ CutsFit llm eng name held cut := by
  by_cases hb : eng.BlocksOutput llm name held
  · rw [(tryRelease_blocked hb w).1]
    exact iff_of_true rfl (.inl hb)
  · obtain ⟨hok, hnone⟩ := tryRelease_passes hb hcut
    by_cases hfits : CutsFit llm eng name held cut
    · rw [(hok hfits).1]
      exact iff_of_true rfl (.inr hfits)
    · rw [hnone hfits]
      exact iff_of_false nofun fun h => h.elim hb hfits

theorem tryRelease_agrees {r : OutputRelease} (hr : eng.tryReleaseOutput llm name held w = some r) :
    eng.releaseOutput llm name held w = r := by
  by_cases hb : eng.BlocksOutput llm name held
  · exact Option.some.inj ((tryRelease_blocked hb w).1.symm.trans hr)
  · obtain ⟨hok, hnone⟩ := tryRelease_passes (w := w) hb rfl
    by_cases hfits : CutsFit llm eng name held (settledCut (eng.outputMatches llm name held) (clampCut w (utf8Len held)))
    · exact Option.some.inj ((hok hfits).1.symm.trans hr)
    · cases hr.symm.trans (hnone hfits)

theorem tryRelease_split {r : OutputRelease} (hr : eng.tryReleaseOutput llm name held w = some r)
    (hpass : r.scan.blockers = [])
    (hcut : settledCut (eng.outputMatches llm name held) (clampCut w (utf8Len held)) = cut) :
    CutsFit llm eng name held cut ∧ Split llm eng name held cut r := by
  have hb : ¬ eng.BlocksOutput llm name held := by
    intro hb
    obtain ⟨hsome, hne⟩ := tryRelease_blocked hb w
    obtain rfl := Option.some.inj (hr.symm.trans hsome)
    exact hne hpass
  obtain ⟨hok, hnone⟩ := tryRelease_passes hb hcut
  by_cases hfits : CutsFit llm eng name held cut
  · obtain ⟨hsome, hsplit⟩ := hok hfits
    obtain rfl := Option.some.inj (hr.symm.trans hsome)
    exact ⟨hfits, hsplit⟩
  · cases hr.symm.trans (hnone hfits)

theorem keepsRemainder_iff
    (hcut : settledCut (eng.outputMatches llm name held) (clampCut w (utf8Len held)) = cut) :
    KeepsRemainder llm eng name held w ↔ eng.BlocksOutput llm name held ∨ CutsFit llm eng name held cut := by
  rw [← tryRelease_isSome hcut, Option.isSome_iff_exists]
  constructor
  · rintro ⟨r, hr, -⟩
    exact ⟨r, hr⟩
  · rintro ⟨r, hr⟩
    exact ⟨r, hr, fun hpass => ⟨_, (tryRelease_split hr hpass hcut).2.suffix⟩⟩

theorem removesUpTo_iff
    (hcut : settledCut (eng.outputMatches llm name held) (clampCut w (utf8Len held)) = cut) :
    RemovesUpTo llm eng name held w cut ↔ eng.BlocksOutput llm name held ∨
      CutsFit llm eng name held cut ∧ stray cut (eng.appliedSpans llm name held cut) = 0 := by
  constructor
  · rintro ⟨r, hr, hprefix⟩
    by_cases hpass : r.scan.blockers = []
    · obtain ⟨hfits, hsplit⟩ := tryRelease_split hr hpass hcut
      obtain ⟨a, ha, hlen⟩ := hprefix hpass
      have hsame := List.append_cancel_right (ha.symm.trans hsplit.suffix)
      have hstray : utf8Len a = cut + stray cut (eng.appliedSpans llm name held cut) := by
        rw [hsame]
        exact hfits.2
      exact .inr ⟨hfits, by omega⟩
    · refine .inl (by_contra fun hb => hpass ?_)
      have hfits := ((tryRelease_isSome hcut).mp (by rw [hr]; rfl)).resolve_left hb
      obtain ⟨hsome, hsplit⟩ := (tryRelease_passes hb hcut).1 hfits
      rw [Option.some.inj (hr.symm.trans hsome)]
      exact hsplit.passes
  · intro hfits
    obtain ⟨r, hr⟩ := Option.isSome_iff_exists.mp ((tryRelease_isSome hcut).mpr (hfits.imp_right And.left))
    refine ⟨r, hr, fun hpass => ⟨_, (tryRelease_split hr hpass hcut).2.suffix, ?_⟩⟩
    have hb : ¬ eng.BlocksOutput llm name held := by
      intro hb
      obtain ⟨hsome, hne⟩ := tryRelease_blocked hb w
      exact hne (Option.some.inj (hr.symm.trans hsome) ▸ hpass)
    obtain ⟨hfits, hstray⟩ := hfits.resolve_left hb
    have hboundary := hfits.2
    rw [hstray, Nat.add_zero] at hboundary ⊢
    exact hboundary

end

/-! ## Runs of an output guard -/

inductive GuardCall where
  | push (delta : Text)
  | flush

def GuardCall.delta : GuardCall → Text
  | .push delta => delta
  | .flush => []

section
variable (llm : LlmGuard) (eng : GuardEngine)

def OutputGuard.tryCall (g : OutputGuard) : GuardCall → Option OutputStep
  | .push delta => g.tryPush llm eng delta
  | .flush => g.tryFlush llm eng

/-- The guard with the call's delta held. -/
def OutputGuard.receive (g : OutputGuard) : GuardCall → OutputGuard
  | .push delta => { g with held := g.held ++ delta }
  | .flush => g

def OutputGuard.windowOf (g : OutputGuard) : GuardCall → Nat
  | .push _ => g.windowCut
  | .flush => utf8Len g.held

/-- What the guard holds blocks, or the cuts that a release makes are on character boundaries. -/
def OutputGuard.Fits (g : OutputGuard) (w : Nat) : Prop :=
  ∀ c, IsGreatest (settledOffsets (eng.outputMatches llm g.policy g.held) w) c →
    eng.BlocksOutput llm g.policy g.held ∨ CutsFit llm eng g.policy g.held c

/-- Calls up to a block, with what each released; `none` where one of them panics. -/
def OutputGuard.run : OutputGuard → List GuardCall → Option (List Release × OutputGuard)
  | g, [] => some ([], g)
  | g, call :: calls =>
    (g.tryCall llm eng call).bind fun s =>
      if s.release.isBlocked then some ([s.release], s.next)
      else (s.next.run calls).map fun (releases, g) => (s.release :: releases, g)

/-- Every call up to a block fits. -/
def OutputGuard.RunFits : OutputGuard → List GuardCall → Prop
  | _, [] => True
  | g, call :: calls => (g.receive call).Fits llm eng ((g.receive call).windowOf call) ∧
      ∀ s, g.tryCall llm eng call = some s → s.release.isBlocked = false → s.next.RunFits calls

/-- No output scanner of the policy has the mask action. -/
def NoMask (name : String) : Prop := ∀ p o, eng.output name = some (p, o) → ∀ x ∈ o.actions, x.2 ≠ .mask

end

section
variable {llm : LlmGuard} {eng : GuardEngine} {name : String}

theorem effect_mask {action : Option Action} {severity : Severity} {mode : PolicyMode}
    (h : (effect action severity mode).2 = .mask) : action = some .mask := by
  cases action with
  | none => cases severity <;> cases mode <;> cases h
  | some action =>
    cases action with
    | mask => rfl
    | _ => cases mode <;> cases h

theorem NoMask.not_masksOutput (h : NoMask eng name) (held : Text) (cut : Nat) : ¬ eng.MasksOutput llm name held cut := by
  rintro ⟨p, o, hout, m, -, heff, -⟩
  exact h p o hout _ (Assoc.mem_of_lookup (effect_mask heff)) rfl

theorem appliedSpans_nil {held : Text} {cut : Nat} (h : ¬ eng.MasksOutput llm name held cut) :
    eng.appliedSpans llm name held cut = [] := by
  unfold GuardEngine.appliedSpans
  cases hout : eng.output name with
  | none => rfl
  | some po =>
    obtain ⟨p, o⟩ := po
    exact if_neg fun hm => h ⟨p, o, hout, hm⟩

/-- What a release does to the text it holds, when it returns and does not block. -/
theorem tryRelease_splits {g : OutputGuard} {w : Nat} {s : OutputStep} (hs : g.tryRelease llm eng w = some s)
    (hb : s.release.isBlocked = false) :
    s.next.policy = g.policy ∧ ∃ a, g.held = a ++ s.next.held ∧ (NoMask eng g.policy → s.release.released = a) := by
  unfold OutputGuard.tryRelease at hs
  obtain ⟨r, hr, rfl⟩ := Option.map_eq_some_iff.mp hs
  have hpass : r.scan.blockers = [] := by
    by_contra hne
    replace hne := List.isEmpty_eq_false_iff.mpr hne
    unfold OutputGuard.release at hb
    simp only [tryRelease_agrees hr, hne, Bool.false_eq_true, if_false] at hb
    cases hb
  obtain ⟨-, hsplit⟩ := tryRelease_split hr hpass rfl
  unfold OutputGuard.release
  simp only [tryRelease_agrees hr, hsplit.passes, List.isEmpty_nil, if_true]
  refine ⟨trivial, _, hsplit.suffix, fun hno => ?_⟩
  have hmask := @NoMask.not_masksOutput llm eng g.policy hno g.held
    (settledCut (eng.outputMatches llm g.policy g.held) (clampCut (some w) (utf8Len g.held)))
  rw [appliedSpans_nil hmask]
  exact hsplit.released hmask

theorem tryCall_eq (g : OutputGuard) (call : GuardCall) :
    g.tryCall llm eng call = (g.receive call).tryRelease llm eng ((g.receive call).windowOf call) := by
  cases call <;> rfl

theorem receive_held (g : OutputGuard) (call : GuardCall) : (g.receive call).held = g.held ++ call.delta := by
  cases call with
  | push delta => rfl
  | flush => exact (List.append_nil _).symm

theorem receive_policy (g : OutputGuard) (call : GuardCall) : (g.receive call).policy = g.policy := by
  cases call <;> rfl

theorem windowOf_boundary (g : OutputGuard) (call : GuardCall) : Boundary (g.windowOf call) g.held := by
  cases call with
  | push delta =>
    show Boundary g.windowCut g.held
    rw [windowCut_take, Boundary, takeBytes_take]
  | flush =>
    show Boundary (utf8Len g.held) g.held
    rw [Boundary, takeBytes_utf8Len]

theorem tryRelease_isSome_iff {g : OutputGuard} {w : Nat} (hw : w ≤ utf8Len g.held) :
    (g.tryRelease llm eng w).isSome = true ↔ g.Fits llm eng w := by
  have hgreatest := settledCut_greatest (eng.outputMatches llm g.policy g.held) w
  have hclamp : clampCut (some w) (utf8Len g.held) = w := Nat.min_eq_left hw
  unfold OutputGuard.tryRelease OutputGuard.Fits
  rw [Option.isSome_map, tryRelease_isSome (by rw [hclamp])]
  constructor
  · intro hfits c hc
    rwa [hc.unique hgreatest]
  · exact fun hfits => hfits _ hgreatest

theorem run_isSome_iff (calls : List GuardCall) (g : OutputGuard) :
    (g.run llm eng calls).isSome = true ↔ g.RunFits llm eng calls := by
  induction calls generalizing g with
  | nil => exact iff_of_true rfl trivial
  | cons call calls ih =>
    unfold OutputGuard.run OutputGuard.RunFits
    rw [← tryRelease_isSome_iff (windowOf_boundary _ call).le, ← tryCall_eq]
    cases hs : g.tryCall llm eng call with
    | none => simp
    | some s =>
      rw [Option.bind_some]
      cases hblocked : s.release.isBlocked with
      | true => simp [hblocked]
      | false => simp [hblocked, ih]

/-- The releases of a run remove the front of what the guard held and received, and the rest is held. -/
theorem run_splits {calls : List GuardCall} {g g' : OutputGuard} {releases : List Release}
    (hrun : g.run llm eng calls = some (releases, g')) (hpass : ∀ r ∈ releases, r.isBlocked = false) :
    ∃ removed : List Text, removed.length = releases.length ∧
      g.held ++ (calls.map GuardCall.delta).flatten = removed.flatten ++ g'.held ∧
      (NoMask eng g.policy → removed = releases.map Release.released) := by
  induction calls generalizing g releases with
  | nil =>
    cases hrun
    exact ⟨[], rfl, List.append_nil _, fun _ => rfl⟩
  | cons call calls ih =>
    unfold OutputGuard.run at hrun
    obtain ⟨s, hs, hrun⟩ := Option.bind_eq_some_iff.mp hrun
    cases hblocked : s.release.isBlocked with
    | true =>
      rw [hblocked, if_pos rfl] at hrun
      cases hrun
      cases hblocked.symm.trans (hpass s.release List.mem_cons_self)
    | false =>
      rw [hblocked, if_neg (by simp)] at hrun
      obtain ⟨⟨later, g''⟩, hlater, heq⟩ := Option.map_eq_some_iff.mp hrun
      cases heq
      rw [tryCall_eq] at hs
      obtain ⟨hpolicy, a, ha, hreleased⟩ := tryRelease_splits hs hblocked
      rw [receive_held] at ha
      rw [receive_policy] at hpolicy hreleased
      obtain ⟨removed, hlen, hflat, hall⟩ := ih hlater fun r hr => hpass r (List.mem_cons_of_mem _ hr)
      refine ⟨a :: removed, congrArg (· + 1) hlen, ?_, fun hno => ?_⟩
      · rw [List.map_cons, List.flatten_cons, ← List.append_assoc, ha, List.append_assoc, hflat, List.flatten_cons,
          List.append_assoc]
      · rw [List.map_cons, hreleased hno, hall (hpolicy ▸ hno)]

/-- Without masks, spans that start on character boundaries are all a release needs. -/
theorem fits_of_noMask {g : OutputGuard} {w : Nat} (hno : NoMask eng g.policy)
    (hstart : ∀ m ∈ eng.outputMatches llm g.policy g.held, Boundary m.start g.held) (hw : Boundary w g.held) :
    g.Fits llm eng w := by
  intro c hc
  obtain rfl := hc.unique (settledCut_greatest _ w)
  refine .inr ?_
  unfold CutsFit
  rw [appliedSpans_nil (hno.not_masksOutput g.held _)]
  have hedits : OnBoundaries g.held (editsOf []) := fun e he => by cases he
  exact ⟨hedits, settleFrom_induct (P := fun n => Boundary n g.held) hstart hw⟩

theorem runFits_of_noMask (hstart : ∀ t, ∀ m ∈ eng.outputMatches llm name t, Boundary m.start t) (hno : NoMask eng name)
    (calls : List GuardCall) {g : OutputGuard} (hg : g.policy = name) : g.RunFits llm eng calls := by
  induction calls generalizing g with
  | nil => trivial
  | cons call calls ih =>
    have hpolicy := (receive_policy g call).trans hg
    refine ⟨?_, fun s hs hblocked => ?_⟩
    · exact fits_of_noMask (hpolicy ▸ hno) (hpolicy ▸ hstart _) (windowOf_boundary _ call)
    · rw [tryCall_eq] at hs
      exact ih ((tryRelease_splits hs hblocked).1.trans hpolicy)

end

/-! ## Cut settling -/

theorem settled_releases (llm : LlmGuard) (eng : GuardEngine) :
    (∀ ms w, (∀ fuel, w ≤ fuel → settleFrom ms fuel w = settledCut ms w) ∧
        IsGreatest (settledOffsets ms w) (settledCut ms w)) ∧
      (∀ name held w c, IsGreatest (settledOffsets (eng.outputMatches llm name held) (clampCut w (utf8Len held))) c →
        (KeepsRemainder llm eng name held w ↔ eng.BlocksOutput llm name held ∨ CutsFit llm eng name held c) ∧
          (RemovesUpTo llm eng name held w c ↔ eng.BlocksOutput llm name held ∨
            CutsFit llm eng name held c ∧ stray c (eng.appliedSpans llm name held c) = 0)) ∧
      (∀ (g : OutputGuard) calls, (g.run llm eng calls).isSome = true ↔ g.RunFits llm eng calls) ∧
      (∀ (g : OutputGuard) calls releases g', g.run llm eng calls = some (releases, g') →
        (∀ r ∈ releases, r.isBlocked = false) → ∃ removed : List Text, removed.length = releases.length ∧
          g.held ++ (calls.map GuardCall.delta).flatten = removed.flatten ++ g'.held ∧
          (NoMask eng g.policy → removed = releases.map Release.released)) ∧
      ∀ name, (∀ t, ∀ m ∈ eng.outputMatches llm name t, Boundary m.start t) → NoMask eng name →
        ∀ calls, ((OutputGuard.new eng name).run llm eng calls).isSome = true := by
  refine ⟨fun ms w => ⟨fun fuel h => settleFrom_fuel ms h, settledCut_greatest ms w⟩, ?_, ?_, ?_, ?_⟩
  · intro name held w c hc
    obtain rfl := hc.unique (settledCut_greatest _ _)
    exact ⟨keepsRemainder_iff rfl, removesUpTo_iff rfl⟩
  · exact fun g calls => run_isSome_iff calls g
  · exact fun g calls releases g' hrun hpass => run_splits hrun hpass
  · exact fun name hstart hno calls => (run_isSome_iff calls _).mpr (runFits_of_noMask hstart hno calls rfl)

/-! ## A match of nothing -/

/-- The offsets of a text, the end among them. -/
def offsets (t : Text) : List Nat := (List.range (t.length + 1)).map fun i => utf8Len (t.take i)

/-- A crate that finds an empty substring at every offset of a text. -/
def emptyMatchGuard : LlmGuard where
  pipelineScan scanners t := scanners.flatMap (·.scan t)
  regexScan _ _ _ := []
  piiPatterns := ⟨"pii", fun _ => []⟩
  invisibleText := ⟨"invisible_text", fun _ => []⟩
  roleOverride := ⟨"role_override", fun _ => []⟩
  scriptMix _ := ⟨"script_mix", fun _ => []⟩
  tokenLimit _ := ⟨"token_limit", fun _ => []⟩
  banSubstrings name subs severity :=
    ⟨name, fun t => (subs.filter (· == "")).flatMap fun sub => (offsets t).map fun i => ⟨name, sub, severity, i, i⟩⟩
  commonInjectionPatterns := []

def emptyMatchConfig : GuardrailsConfig := ⟨[("p", {
  scanners := []
  outputScanners := [.detailed { kind := "ban_substrings", substrings := [""], action := some .mask }] })]⟩

def emptyMatchEngine : GuardEngine := ⟨[("p", {
  mode := .block
  input := ⟨[], [], []⟩
  wantsClassifier := false
  classifier := none
  output := some ⟨[emptyMatchGuard.banSubstrings "ban_substrings" [""] .block], [("ban_substrings", .mask)],
    [("ban_substrings", 0)]⟩
  holdback := 256 })]⟩

/-- Nothing is masked in "hi", and the flush cuts behind its end. -/
theorem empty_match_panics :
    GuardEngine.fromConfig emptyMatchGuard emptyMatchConfig = .ok emptyMatchEngine ∧
      (OutputGuard.new emptyMatchEngine "p").run emptyMatchGuard emptyMatchEngine [.push "hi".toList, .flush] = none ∧
      ¬ KeepsRemainder emptyMatchGuard emptyMatchEngine "p" "hi".toList (some 2) := by
  refine ⟨rfl, by decide +kernel, ?_⟩
  rintro ⟨r, hr, -⟩
  have hnone : emptyMatchEngine.tryReleaseOutput emptyMatchGuard "p" "hi".toList (some 2) = none := by decide +kernel
  cases hr.symm.trans hnone

end SynapseGateway
