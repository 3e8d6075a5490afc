import SynapseGateway.Lib.Occurrence
import SynapseGateway.Engine
import SynapseGateway.MaskSound
import SynapseGateway.ScannersSound

/-!
# Screening text for the occurrences of patterns

For a pipeline that reports the occurrences of a fixed list of patterns,
`releaseOutput` is given by three functions of a text alone: whether it
`Blocks`, the text `masked` makes of it and the records `recordsOf` lists. Each
of them is that of the two parts at a cut no occurrence straddles, which is
what screening a reply in pieces rests on.
-/

namespace SynapseGateway

open String (utf8Len utf8Len_append)
open Utf8

/-! ## The settled cut -/

theorem settleFrom_le (ms : List Match) (fuel cut : Nat) : settleFrom ms fuel cut ≤ cut := by
  induction fuel generalizing cut with
  | zero => exact Nat.le_refl cut
  | succ fuel ih =>
    rw [settleFrom]
    cases hmin : ((ms.filter fun m => m.start < cut && cut < m.stop).map (·.start)).min? with
    | none => exact Nat.le_refl cut
    | some start =>
      obtain ⟨m, hm, rfl⟩ := List.mem_map.mp (List.min?_mem hmin)
      have hc : m.start < cut ∧ cut < m.stop := by simpa using (List.mem_filter.mp hm).2
      have := ih m.start
      show settleFrom ms fuel m.start ≤ cut
      omega

theorem settleFrom_settled (ms : List Match) {fuel cut : Nat} (hle : cut ≤ fuel) :
    ∀ m ∈ ms, ¬ (m.start < settleFrom ms fuel cut ∧ settleFrom ms fuel cut < m.stop) := by
  intro m hm
  induction fuel generalizing cut with
  | zero => rw [settleFrom]; omega
  | succ fuel ih =>
    rw [settleFrom]
    cases hmin : ((ms.filter fun m => m.start < cut && cut < m.stop).map (·.start)).min? with
    | none =>
      intro h
      obtain ⟨h1, h2⟩ := h
      rw [List.min?_eq_none_iff, List.map_eq_nil_iff, List.filter_eq_nil_iff] at hmin
      exact hmin m hm (by simp [h1, h2])
    | some start =>
      obtain ⟨m', hm', rfl⟩ := List.mem_map.mp (List.min?_mem hmin)
      have hc : m'.start < cut ∧ cut < m'.stop := by simpa using (List.mem_filter.mp hm').2
      exact ih (show m'.start ≤ fuel by omega)

theorem settleFrom_of_settled {ms : List Match} {cut : Nat} (h : ∀ m ∈ ms, ¬ (m.start < cut ∧ cut < m.stop))
    (fuel : Nat) : settleFrom ms fuel cut = cut := by
  cases fuel with
  | zero => rfl
  | succ fuel =>
    have hnil : (ms.filter fun m => m.start < cut && cut < m.stop) = [] := by
      rw [List.filter_eq_nil_iff]
      intro m hm
      simpa using h m hm
    rw [settleFrom, hnil]
    rfl

theorem settleFrom_induct {P : Nat → Prop} {ms : List Match} (hs : ∀ m ∈ ms, P m.start) {fuel cut : Nat}
    (hc : P cut) : P (settleFrom ms fuel cut) := by
  induction fuel generalizing cut with
  | zero => exact hc
  | succ fuel ih =>
    rw [settleFrom]
    cases hmin : ((ms.filter fun m => m.start < cut && cut < m.stop).map (·.start)).min? with
    | none => exact hc
    | some start =>
      obtain ⟨m, hm, rfl⟩ := List.mem_map.mp (List.min?_mem hmin)
      exact ih (hs m (List.mem_filter.mp hm).1)

/-! ## Reported occurrences -/

structure MatchTag where
  scanner : String
  pattern : String
  severity : Severity
deriving DecidableEq

def toMatch (h : Hit MatchTag) : Match := ⟨h.tag.scanner, h.tag.pattern, h.tag.severity, h.start, h.stop⟩

/-- The output scanners of policy `name` report exactly the occurrences of
`pats`, none of which is longer than the policy holds back. -/
structure Screens (llm : LlmGuard) (eng : GuardEngine) (name : String) (p : CompiledPolicy) (o : CompiledScanners)
    (pats : List (Pattern MatchTag)) : Prop where
  policy : eng.policy name = some p
  output : p.output = some o
  reports : ∀ t, (llm.pipelineScan o.pipeline t).Perm ((hits pats t).map toMatch)
  short : ∀ q ∈ pats, q.text.length ≤ p.holdback
  mask : ∀ n n', o.actions.lookup n = some .mask → o.actions.lookup n' = some .mask →
    o.position n = o.position n' → n = n'

section
variable (p : CompiledPolicy) (o : CompiledScanners) (pats : List (Pattern MatchTag))

def judgeHit (h : Hit MatchTag) : Judged := o.judge p.mode (toMatch h)

def Blocks (t : Text) : Prop := ∃ h ∈ hits pats t, (judgeHit p o h).eff = .block

def spansOf (t : Text) : List MaskSpan :=
  (((hits pats t).map (judgeHit p o)).filter (·.wanted == .mask)).map o.span

def masked (t : Text) : Text :=
  match p.mode with
  | .block => maskText t (spansOf p o pats t)
  | .observe => t

def recordsOf (name : String) (t : Text) : List MatchRecord :=
  ((hits pats t).map (judgeHit p o)).map (Judged.record name .chat "output")

def MatchRecord.shift (k : Nat) (r : MatchRecord) : MatchRecord := { r with start := r.start + k, stop := r.stop + k }

end

section
variable {llm : LlmGuard} {eng : GuardEngine} {name : String} {p : CompiledPolicy} {o : CompiledScanners}
  {pats : List (Pattern MatchTag)}

theorem judge_wanted (mode : PolicyMode) (m : Match) : (o.judge mode m).wanted =
    (effect (o.actions.lookup m.scanner) m.severity mode).1 := rfl

theorem judge_mask {mode : PolicyMode} {m : Match} (h : (o.judge mode m).wanted = .mask) :
    o.actions.lookup m.scanner = some .mask := by
  rw [judge_wanted] at h
  cases ha : o.actions.lookup m.scanner with
  | some a => rw [ha] at h; exact congrArg some h
  | none => rw [ha] at h; cases hs : m.severity <;> rw [hs] at h <;> cases h

theorem judge_eff_mask {mode : PolicyMode} {m : Match} :
    (o.judge mode m).eff = .mask ↔ mode = .block ∧ (o.judge mode m).wanted = .mask := by
  show (effect (o.actions.lookup m.scanner) m.severity mode).2 = .mask ↔
    mode = .block ∧ (effect (o.actions.lookup m.scanner) m.severity mode).1 = .mask
  unfold effect
  generalize (o.actions.lookup m.scanner).getD _ = wanted
  cases wanted <;> cases mode <;> simp

theorem hit_boundary {t : Text} {h : Hit MatchTag} (hm : h ∈ hits pats t) :
    h.start < h.stop ∧ Boundary h.start t ∧ Boundary h.stop t := by
  obtain ⟨q, -, a, b, rfl, rfl⟩ := mem_hitsFrom.mp hm
  have hq := q.utf8Len_pos
  simp only [Nat.zero_add]
  refine ⟨by omega, boundary_append a _, ?_⟩
  rw [← utf8Len_append, ← List.append_assoc]
  exact boundary_append (a ++ q.text) b

theorem mem_spansOf {t : Text} {s : MaskSpan} : s ∈ spansOf p o pats t ↔
    ∃ h ∈ hits pats t, (judgeHit p o h).wanted = .mask ∧ o.span (judgeHit p o h) = s := by
  simp only [spansOf, List.mem_map, List.mem_filter, beq_iff_eq]
  constructor
  · intro h
    obtain ⟨_, ⟨⟨h, hh, rfl⟩, hw⟩, rfl⟩ := h
    exact ⟨h, hh, hw, rfl⟩
  · intro h
    obtain ⟨h, hh, hw, rfl⟩ := h
    exact ⟨_, ⟨⟨h, hh, rfl⟩, hw⟩, rfl⟩

theorem spansOf_in (hs : Screens llm eng name p o pats) (t : Text) : SpansIn t (spansOf p o pats t) where
  lt s hm := by
    obtain ⟨h, hh, -, rfl⟩ := mem_spansOf.mp hm
    exact (hit_boundary hh).1
  label x hx y hy hxy := by
    obtain ⟨h, -, hw, rfl⟩ := mem_spansOf.mp hx
    obtain ⟨h', -, hw', rfl⟩ := mem_spansOf.mp hy
    exact hs.mask _ _ (judge_mask hw) (judge_mask hw') hxy
  boundary s hm := by
    obtain ⟨h, hh, -, rfl⟩ := mem_spansOf.mp hm
    exact (hit_boundary hh).2

/-! ## A text cut where no occurrence straddles -/

variable {a b : Text}

theorem Blocks.append_right (h : Blocks p o pats a) (b : Text) : Blocks p o pats (a ++ b) := by
  obtain ⟨x, hx, he⟩ := h
  exact ⟨x, (mem_hits_append_left.mp hx).1, he⟩

theorem blocks_append (hc : ∀ h ∈ hits pats (a ++ b), ¬ h.Crosses (utf8Len a)) :
    Blocks p o pats (a ++ b) ↔ Blocks p o pats a ∨ Blocks p o pats b := by
  have hp := hits_append hc
  constructor
  · intro h
    obtain ⟨h, hh, he⟩ := h
    rcases List.mem_append.mp (hp.mem_iff.mp hh) with hh | hh
    · exact .inl ⟨h, hh, he⟩
    · obtain ⟨h', hh', rfl⟩ := List.mem_map.mp hh
      exact .inr ⟨h', hh', he⟩
  · intro h
    obtain h | ⟨h, hh, he⟩ := h
    · exact h.append_right b
    · exact ⟨h.shift (utf8Len a), hp.mem_iff.mpr (List.mem_append_right _ (List.mem_map_of_mem hh)), he⟩

theorem spansOf_append (hc : ∀ h ∈ hits pats (a ++ b), ¬ h.Crosses (utf8Len a)) :
    (spansOf p o pats (a ++ b)).Perm
      (spansOf p o pats a ++ (spansOf p o pats b).map (MaskSpan.shift (utf8Len a))) := by
  refine ((((hits_append hc).map (judgeHit p o)).filter _).map o.span).trans (List.Perm.of_eq ?_)
  simp only [spansOf, List.map_append, List.filter_append, List.map_map, List.filter_map]
  rfl

theorem masked_append (hs : Screens llm eng name p o pats) (hc : ∀ h ∈ hits pats (a ++ b), ¬ h.Crosses (utf8Len a)) :
    masked p o pats (a ++ b) = masked p o pats a ++ masked p o pats b := by
  unfold masked
  cases p.mode with
  | observe => rfl
  | block =>
    have hp := spansOf_append (p := p) (o := o) hc
    have hin := (spansOf_in hs (a ++ b)).toSpans
    show maskText (a ++ b) _ = maskText a _ ++ maskText b _
    rw [maskText_perm hin hp, maskText_append (spansOf_in hs a) (hin.of_subset hp.symm.subset)]

theorem recordsOf_append (hc : ∀ h ∈ hits pats (a ++ b), ¬ h.Crosses (utf8Len a)) :
    (recordsOf p o pats name (a ++ b)).Perm
      (recordsOf p o pats name a ++ (recordsOf p o pats name b).map (MatchRecord.shift (utf8Len a))) := by
  refine (((hits_append hc).map (judgeHit p o)).map _).trans (List.Perm.of_eq ?_)
  simp only [recordsOf, List.map_append, List.map_map]
  rfl

/-! ## Releasing a screened prefix -/

theorem dedup_eq_nil : ∀ {l : List String}, dedup l = [] ↔ l = []
  | [] => Iff.rfl
  | [a] => by simp [dedup]
  | a :: b :: l => by
    rw [dedup]
    split
    · rw [dedup_eq_nil (l := b :: l)]; simp
    · simp

theorem sortedDedup_isEmpty (l : List String) : (sortedDedup l).isEmpty = l.isEmpty := by
  rw [Bool.eq_iff_iff, List.isEmpty_iff, List.isEmpty_iff, sortedDedup, dedup_eq_nil]
  have := List.length_insertionSort (· ≤ · : String → String → Prop) l
  rw [← List.length_eq_zero_iff, this, List.length_eq_zero_iff]

/-- With no blocking occurrence the judged matches are those that end by the cut. -/
theorem judged_perm (hs : Screens llm eng name p o pats) (hb : ¬ Blocks p o pats (a ++ b)) :
    (((llm.pipelineScan o.pipeline (a ++ b)).map (o.judge p.mode)).filter (Judged.kept (utf8Len a))).Perm
      ((hits pats a).map (judgeHit p o)) := by
  refine (((hs.reports (a ++ b)).map (o.judge p.mode)).filter _).trans (List.Perm.of_eq ?_)
  have hl := hitsFrom_append_left pats b a 0
  rw [Nat.zero_add] at hl
  rw [List.map_map, List.filter_map]
  conv_rhs => rw [hits, ← hl]
  congr 1
  apply List.filter_congr
  intro h hh
  have hne : (judgeHit p o h).eff ≠ .block := fun he => hb ⟨h, hh, he⟩
  show (((judgeHit p o h).eff == .block) || decide (h.stop ≤ utf8Len a)) = decide (h.stop ≤ utf8Len a)
  rw [beq_false_of_ne hne, Bool.false_or]

theorem masked_eq_self (h : ∀ j ∈ (hits pats a).map (judgeHit p o), j.eff ≠ .mask) : masked p o pats a = a := by
  unfold masked
  cases hm : p.mode with
  | observe => rfl
  | block =>
    have hnil : spansOf p o pats a = [] := by
      rw [List.eq_nil_iff_forall_not_mem]
      intro s hs
      obtain ⟨x, hx, hw, -⟩ := mem_spansOf.mp hs
      exact h _ (List.mem_map_of_mem hx) (judge_eff_mask.mpr ⟨hm, hw⟩)
    show maskText a _ = a
    rw [hnil, maskText_nil]

theorem masked_eq_maskText (h : ∃ j ∈ (hits pats a).map (judgeHit p o), j.eff = .mask) :
    masked p o pats a = maskText a (spansOf p o pats a) := by
  obtain ⟨_, hj, he⟩ := h
  obtain ⟨x, -, rfl⟩ := List.mem_map.mp hj
  rw [masked, (judge_eff_mask.mp he).1]

structure Releases (p : CompiledPolicy) (o : CompiledScanners) (pats : List (Pattern MatchTag)) (name : String)
    (held a b : Text) (r : OutputRelease) : Prop where
  split : held = a ++ b
  pass : r.scan.blockers = []
  released : r.released = masked p o pats a
  rest : r.held = b
  records : r.records.Perm (recordsOf p o pats name a)
  uncrossed : ∀ h ∈ hits pats held, ¬ h.Crosses (utf8Len a)

theorem releaseOutput_eq (hs : Screens llm eng name p o pats) (held : Text) (w : Option Nat) :
    eng.releaseOutput llm name held w =
      let (v, leaves, records) := scanSegment llm name .chat "output" o p.mode [held] w
      let held := leaves.headD held
      let scan := ⟨sortedDedup v.blockers, sortedDedup v.matched, outcomeLabel v.wanted v.effects⟩
      if v.blockers.isEmpty then ⟨scan, takeBytes v.cut held, dropBytes v.cut held, records⟩
      else ⟨scan, [], held, records⟩ := by
  simp only [GuardEngine.releaseOutput, hs.policy, hs.output, Option.bind_some, Option.map_some,
    sortedDedup_isEmpty]

theorem releaseOutput_blocks (hs : Screens llm eng name p o pats) {held : Text} (hb : Blocks p o pats held)
    (w : Option Nat) :
    (eng.releaseOutput llm name held w).scan.blockers ≠ [] ∧ (eng.releaseOutput llm name held w).held = held := by
  obtain ⟨h, hh, he⟩ := hb
  rw [releaseOutput_eq hs]
  simp only [scanSegment, joined_singleton]
  generalize settledCut _ _ = cut
  have hm : o.judge p.mode (toMatch h) ∈
      (((llm.pipelineScan o.pipeline held).map (o.judge p.mode)).filter (Judged.kept cut)).filter (·.eff == .block) := by
    have hmem := (hs.reports held).mem_iff.mpr (List.mem_map_of_mem hh)
    have he' : (o.judge p.mode (toMatch h)).eff = .block := he
    simp only [List.mem_filter]
    exact ⟨⟨List.mem_map_of_mem hmem, by simp [Judged.kept, he']⟩, by simp [he']⟩
  generalize hJ : ((llm.pipelineScan o.pipeline held).map (o.judge p.mode)).filter (Judged.kept cut) = J at hm ⊢
  have hne : ((J.filter (·.eff == .block)).map (·.m.scanner)).isEmpty = false := by
    rw [List.isEmpty_eq_false_iff]
    exact fun hnil => List.ne_nil_of_mem hm (List.map_eq_nil_iff.mp hnil)
  simp only [hne, Bool.false_and, Bool.false_eq_true, if_false, List.headD_cons]
  refine ⟨fun hnil => ?_, trivial⟩
  have := sortedDedup_isEmpty ((J.filter (·.eff == .block)).map (·.m.scanner))
  rw [hne, hnil] at this
  cases this

/-- Where a call cuts the held text when nothing blocks. -/
theorem settledCut_spec (hs : Screens llm eng name p o pats) {held : Text} {c : Nat} (hc : Boundary c held) :
    ∃ a b, held = a ++ b ∧ settledCut (llm.pipelineScan o.pipeline held) c = utf8Len a ∧ utf8Len a ≤ c ∧
      (c = utf8Len held → b = []) ∧ ∀ h ∈ hits pats held, ¬ h.Crosses (utf8Len a) := by
  have hmem : ∀ m ∈ llm.pipelineScan o.pipeline held, ∃ h ∈ hits pats held, toMatch h = m := fun m hm =>
    List.mem_map.mp ((hs.reports held).mem_iff.mp hm)
  have hb : Boundary (settledCut (llm.pipelineScan o.pipeline held) c) held := by
    apply settleFrom_induct (P := fun n => Boundary n held) ?_ hc
    intro m hm
    obtain ⟨h, hh, rfl⟩ := hmem m hm
    exact (hit_boundary hh).2.1
  obtain ⟨a, b, hab, hcut⟩ := boundary_iff.mp hb
  refine ⟨a, b, hab, hcut, ?_, ?_, ?_⟩
  · rw [← hcut]
    exact settleFrom_le _ _ _
  · intro hlen
    have hstay : settledCut (llm.pipelineScan o.pipeline held) c = c := by
      apply settleFrom_of_settled
      intro m hm
      obtain ⟨h, hh, rfl⟩ := hmem m hm
      have := (hit_boundary hh).2.2.le
      show ¬ (h.start < c ∧ c < h.stop)
      omega
    have hl : utf8Len held = utf8Len a + utf8Len b := by rw [hab, utf8Len_append]
    have hb0 : utf8Len b = 0 := by omega
    simpa using hb0
  · intro h hh hx
    rw [← hcut] at hx
    exact settleFrom_settled _ (Nat.le_refl c) _
      ((hs.reports held).mem_iff.mpr (List.mem_map_of_mem hh)) hx

theorem releaseOutput_passes (hs : Screens llm eng name p o pats) {held : Text} {w : Option Nat} {c : Nat}
    (hw : clampCut w (utf8Len held) = c) (hc : Boundary c held) (hb : ¬ Blocks p o pats held) :
    ∃ a b, utf8Len a ≤ c ∧ (c = utf8Len held → b = []) ∧
      Releases p o pats name held a b (eng.releaseOutput llm name held w) := by
  obtain ⟨a, b, rfl, hcut, hle, hall, hx⟩ := settledCut_spec hs hc
  refine ⟨a, b, hle, hall, ?_⟩
  have hJ := judged_perm hs hb
  rw [releaseOutput_eq hs]
  simp only [scanSegment, joined_singleton, hw, hcut]
  generalize ((llm.pipelineScan o.pipeline (a ++ b)).map (o.judge p.mode)).filter (Judged.kept (utf8Len a)) = J at hJ ⊢
  have hnb : ∀ j ∈ J, j.eff ≠ .block := by
    intro j hj he
    obtain ⟨h, hh, rfl⟩ := List.mem_map.mp (hJ.mem_iff.mp hj)
    exact hb ⟨h, (mem_hits_append_left.mp hh).1, he⟩
  have hblock : J.filter (·.eff == .block) = [] := by
    rw [List.filter_eq_nil_iff]
    exact fun j hj => by simpa using hnb j hj
  have hrec : (J.map (Judged.record name .chat "output")).Perm (recordsOf p o pats name a) := hJ.map _
  have hspans : ((J.filter (·.wanted == .mask)).map o.span).Perm (spansOf p o pats a) := (hJ.filter _).map _
  have hin := spansOf_in hs a
  have hmerge : merge ((J.filter (·.wanted == .mask)).map o.span) = merge (spansOf p o pats a) :=
    (merge_perm hin.toSpans hspans.symm).symm
  have hinab : SpansIn (a ++ b) (spansOf p o pats a) :=
    ⟨hin.toSpans, fun s hm => ⟨(hin.boundary s hm).1.append b, (hin.boundary s hm).2.append b⟩⟩
  have happ : maskText (a ++ b) (spansOf p o pats a) = maskText a (spansOf p o pats a) ++ b := by
    have h := maskText_append (b := b) hin (show Spans (spansOf p o pats a ++ [].map _) by simpa using hin.toSpans)
    simpa using h
  simp only [hblock, List.map_nil, List.filter_nil, List.isEmpty_nil, Bool.true_and, hmerge]
  by_cases hmask : ∃ j ∈ J, j.eff = .mask
  · have hc : (J.map (·.eff)).contains .mask = true := by
      obtain ⟨j, hj, he⟩ := hmask
      rw [List.contains_iff_mem, ← he]
      exact List.mem_map_of_mem hj
    have hma : masked p o pats a = maskText a (spansOf p o pats a) := masked_eq_maskText (by
      obtain ⟨j, hj, he⟩ := hmask
      exact ⟨j, hJ.mem_iff.mp hj, he⟩)
    simp only [hc, if_true, List.isEmpty_nil, apply_singleton hinab, List.headD_cons, shifted_end hin, happ]
    exact ⟨rfl, rfl, by simp [hma], by simp, hrec, hx⟩
  · have hc : (J.map (·.eff)).contains .mask = false := by
      rw [← Bool.not_eq_true, List.contains_iff_mem]
      intro hm
      obtain ⟨j, hj, he⟩ := List.mem_map.mp hm
      exact hmask ⟨j, hj, he⟩
    have hma : masked p o pats a = a := masked_eq_self fun j hj he =>
      hmask ⟨j, hJ.symm.mem_iff.mp hj, he⟩
    simp only [hc, Bool.false_eq_true, if_false, if_true, List.isEmpty_nil, List.headD_cons]
    exact ⟨rfl, rfl, by simp [hma], by simp, hrec, hx⟩

end

end SynapseGateway
