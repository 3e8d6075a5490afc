import SynapseGateway.Lib.Rewritten
import SynapseGateway.MaskExact
import SynapseGateway.Screening

/-!
# Matches of a masked text

A policy that reports the occurrences of patterns sees, in a text that others
have masked, the matches that no mask has touched, moved, and those that a
redaction is part of.
-/

namespace SynapseGateway

open String (utf8Len utf8Len_append)
open Utf8

/-! ## The edits of a segment -/

/-- What the spans change of the joined leaves, the first of which is at `start`. -/
def editsFrom (spans : List MaskSpan) : Nat → Segment → List Utf8.Edit
  | _, [] => []
  | start, leaf :: leaves => (spans.filterMap (MaskSpan.share start leaf)).map (Utf8.Edit.shift start) ++
      editsFrom spans (start + utf8Len leaf + utf8Len SEPARATOR) leaves

theorem joined_cons_ne {leaf : Text} {leaves : Segment} (h : leaves ≠ []) :
    joined (leaf :: leaves) = leaf ++ (SEPARATOR ++ joined leaves) := by
  cases leaves with
  | nil => exact absurd rfl h
  | cons next leaves => exact joined_cons leaf next leaves

theorem applyFrom_ne_nil {spans : List MaskSpan} {start : Nat} {leaves : Segment} (h : leaves ≠ []) :
    applyFrom spans start leaves ≠ [] := by
  cases leaves with
  | nil => exact absurd rfl h
  | cons leaf leaves => exact List.cons_ne_nil _ _

/-- Masking the leaves rewrites the joined text. -/
theorem joined_applyFrom {spans : List MaskSpan} {leaves : Segment} {before : Text}
    (h : Laid (before ++ joined leaves) spans) :
    Fits (utf8Len before) (joined leaves) (editsFrom spans (utf8Len before) leaves) ∧
      joined (applyFrom spans (utf8Len before) leaves) =
        rewriteFrom (utf8Len before) (joined leaves) (editsFrom spans (utf8Len before) leaves) := by
  induction leaves generalizing before with
  | nil => exact ⟨trivial, rfl⟩
  | cons leaf leaves ih =>
    obtain ⟨after, hafter⟩ : ∃ after, joined (leaf :: leaves) = leaf ++ after := by
      cases leaves with
      | nil => exact ⟨[], by rw [joined_singleton, List.append_nil]⟩
      | cons next leaves => exact ⟨_, joined_cons leaf next leaves⟩
    have hshares := (shares_fit (hafter ▸ h)).shift (utf8Len before)
    rw [Nat.add_zero] at hshares
    have hleaf : applyLeaf spans (utf8Len before) leaf = rewriteFrom (utf8Len before) leaf
        ((spans.filterMap (MaskSpan.share (utf8Len before) leaf)).map (Utf8.Edit.shift (utf8Len before))) := by
      rw [applyLeaf_shares, replaceAll_eq (shares_fit (hafter ▸ h))]
      exact (rewriteFrom_shift (utf8Len before) _ 0 leaf).symm
    by_cases hlast : leaves = []
    · subst hlast
      rw [joined_singleton, editsFrom, editsFrom, List.append_nil, applyFrom, applyFrom, joined_singleton]
      exact ⟨hshares, hleaf⟩
    · have hjoined := @joined_cons_ne leaf _ hlast
      have hlen : utf8Len (before ++ (leaf ++ SEPARATOR)) = utf8Len before + utf8Len leaf + utf8Len SEPARATOR := by
        rw [utf8Len_append, utf8Len_append, Nat.add_assoc]
      have hrest : Laid ((before ++ (leaf ++ SEPARATOR)) ++ joined leaves) spans := by
        rw [hjoined] at h
        simpa only [List.append_assoc] using h
      obtain ⟨hfits, heq⟩ := ih hrest
      rw [hlen] at hfits heq
      have hskip : Fits (utf8Len before + utf8Len leaf) (SEPARATOR ++ joined leaves)
          (editsFrom spans (utf8Len before + utf8Len leaf + utf8Len SEPARATOR) leaves) :=
        @Fits.append [] _ _ SEPARATOR _ trivial hfits
      have hskip' := @rewriteFrom_append [] (utf8Len before + utf8Len leaf) SEPARATOR (joined leaves) _
        trivial hfits.le_start
      rw [List.nil_append] at hskip'
      rw [hjoined, editsFrom, applyFrom, joined_cons_ne (applyFrom_ne_nil hlast)]
      refine ⟨hshares.append hskip, ?_⟩
      rw [rewriteFrom_append _ hshares hskip.le_start, hskip', ← hleaf, ← heq]
      rfl

/-! ## One policy -/

/-- The scanners report the occurrences of fixed patterns. -/
def ReportsPatterns (llm : LlmGuard) (scanners : CompiledScanners) : Prop :=
  ∃ pats : List (Pattern MatchTag), ∀ t, (llm.pipelineScan scanners.pipeline t).Perm ((hits pats t).map toMatch)

/-- The match with its start at offset `n`. -/
def Match.movedTo (n : Nat) (m : Match) : Match := { m with start := n, stop := n + (m.stop - m.start) }

namespace CompiledPolicy

section
variable (llm : LlmGuard) (p : CompiledPolicy)

/-- The matches of a segment that block it. -/
def blocking (seg : Segment) : List Match :=
  ((llm.pipelineScan p.input.pipeline (joined seg)).map (p.input.judge p.mode)).filter (·.eff == .block) |>.map (·.m)

/-- The spans that are masked: none where a match blocks. -/
def masks (seg : Segment) : List MaskSpan :=
  if p.mode = .block ∧ p.blocking llm seg = [] then
    merge (((p.judged llm seg).filter (·.wanted == .mask)).map p.input.span)
  else []

def edits (seg : Segment) : List Utf8.Edit := editsFrom (p.masks llm seg) 0 seg

end

variable {llm : LlmGuard} {p q : CompiledPolicy} {seg : Segment} {m : Match}

theorem mem_blocking : m ∈ p.blocking llm seg ↔
    m ∈ llm.pipelineScan p.input.pipeline (joined seg) ∧ (p.input.judge p.mode m).eff = .block := by
  unfold blocking
  simp only [List.mem_map, List.mem_filter, beq_iff_eq]
  constructor
  · rintro ⟨j, ⟨⟨m', hm, rfl⟩, heff⟩, rfl⟩
    exact ⟨hm, heff⟩
  · rintro ⟨hm, heff⟩
    exact ⟨_, ⟨⟨m, hm, rfl⟩, heff⟩, rfl⟩

theorem blocks_iff_blocking : p.BlocksSegment llm seg ↔ p.blocking llm seg ≠ [] := by
  unfold BlocksSegment judged
  simp only [List.mem_filter, List.mem_map]
  constructor
  · rintro ⟨j, ⟨⟨m, hm, rfl⟩, -⟩, heff⟩
    exact List.ne_nil_of_mem (mem_blocking.mpr ⟨hm, heff⟩)
  · intro hne
    obtain ⟨m, hm⟩ := List.exists_mem_of_ne_nil _ hne
    obtain ⟨hm, heff⟩ := mem_blocking.mp hm
    refine ⟨_, ⟨⟨m, hm, rfl⟩, ?_⟩, heff⟩
    unfold Judged.kept
    rw [heff]
    rfl

/-- The leaves a policy leaves are those with its masks applied. -/
theorem apply_masks : apply seg (p.masks llm seg) =
    if ¬ p.BlocksSegment llm seg ∧ p.MasksSegment llm seg then p.maskedLeaves llm seg else seg := by
  have hnil : apply seg [] = seg := applyFrom_nil 0 seg
  unfold masks
  cases hm : p.mode with
  | observe => rw [if_neg (by simp), if_neg fun h => not_masks_observe hm h.2, hnil]
  | block =>
    simp only [true_and]
    by_cases hb : p.blocking llm seg = []
    · have hnot : ¬ p.BlocksSegment llm seg := fun h => blocks_iff_blocking.mp h hb
      rw [if_pos hb]
      by_cases hk : p.MasksSegment llm seg
      · rw [if_pos ⟨hnot, hk⟩]
        rfl
      · rw [if_neg fun h => hk h.2]
        by_contra hchanges
        exact hk ((rewrites_iff hm).mpr ⟨fun h => hnot ((blocks_iff_wantsBlock hm).mpr h), hchanges⟩).2.1
    · rw [if_neg hb, if_neg fun h => h.1 (blocks_iff_blocking.mpr hb), hnil]

section
variable (hp : ReportsPatterns llm p.input)
include hp

theorem masks_laid : Laid (joined seg) (p.masks llm seg) := by
  obtain ⟨pats, hrep⟩ := hp
  unfold masks
  split
  · apply laid_merge
    intro s hs
    obtain ⟨j, hj, rfl⟩ := List.mem_map.mp hs
    obtain ⟨m, hm, rfl⟩ := List.mem_map.mp (List.mem_filter.mp (List.mem_filter.mp hj).1).1
    obtain ⟨h, hh, rfl⟩ := List.mem_map.mp ((hrep _).mem_iff.mp hm)
    exact hit_boundary hh
  · exact ⟨(fun s hs => by cases hs), (fun s hs => by cases hs), .nil⟩

theorem joined_masked : Fits 0 (joined seg) (p.edits llm seg) ∧
    joined (apply seg (p.masks llm seg)) = rewriteFrom 0 (joined seg) (p.edits llm seg) :=
  @joined_applyFrom _ seg [] (masks_laid hp)

/-- A policy `q` is blocked, in what the masks of `p` leave, by its matches that
they spare, moved, and by those that a redaction is part of. -/
theorem mem_blocking_masked (hq : ReportsPatterns llm q.input) :
    m ∈ q.blocking llm (apply seg (p.masks llm seg)) ↔
      (∃ o ∈ q.blocking llm seg, Spared (p.edits llm seg) o.start o.stop ∧
          m = o.movedTo (landing 0 0 (p.edits llm seg) o.start)) ∨
        m ∈ q.blocking llm (apply seg (p.masks llm seg)) ∧ Touches (places 0 0 (p.edits llm seg)) m.start m.stop := by
  obtain ⟨hfits, heq⟩ := @joined_masked llm p seg hp
  obtain ⟨pats, hrep⟩ := hq
  have hhit : ∀ seg m, m ∈ q.blocking llm seg ↔
      ∃ h ∈ hits pats (joined seg), m = toMatch h ∧ (q.input.judge q.mode m).eff = .block := by
    intro seg m
    rw [mem_blocking, (hrep _).mem_iff, List.mem_map]
    constructor
    · rintro ⟨⟨h, hh, rfl⟩, heff⟩
      exact ⟨h, hh, rfl, heff⟩
    · rintro ⟨h, hh, rfl, heff⟩
      exact ⟨⟨h, hh, rfl⟩, heff⟩
  constructor
  · intro hm
    obtain ⟨h, hh, rfl, heff⟩ := (hhit _ _).mp hm
    have hh' := hh
    rw [heq, hits, mem_hitsFrom_rewriteFrom hfits] at hh'
    rcases hh' with ⟨o, ho, hspared, rfl⟩ | ⟨-, htouch⟩
    · exact .inl ⟨toMatch o, (hhit _ _).mpr ⟨o, ho, rfl, heff⟩, hspared, rfl⟩
    · exact .inr ⟨hm, htouch⟩
  · rintro (⟨o, ho, hspared, rfl⟩ | ⟨hm, -⟩)
    · obtain ⟨h, hh, rfl, heff⟩ := (hhit _ _).mp ho
      refine (hhit _ _).mpr ⟨h.movedTo _, ?_, rfl, heff⟩
      rw [heq, hits, mem_hitsFrom_rewriteFrom hfits]
      exact .inl ⟨h, hh, hspared, rfl⟩
    · exact hm

end

end CompiledPolicy

/-! ## Policies in turn -/

section
variable (llm : LlmGuard) (eng : GuardEngine)

namespace GuardEngine

def blocking (name : String) (seg : Segment) : List Match :=
  match eng.policy name with
  | none => []
  | some p => p.blocking llm seg

def masks (name : String) (seg : Segment) : List MaskSpan :=
  match eng.policy name with
  | none => []
  | some p => p.masks llm seg

def edits (name : String) (seg : Segment) : List Utf8.Edit := editsFrom (eng.masks llm name seg) 0 seg

/-- The leaves with the masks of one policy after the other applied. -/
def masked (names : List String) (seg : Segment) : Segment :=
  names.foldl (fun seg name => apply seg (eng.masks llm name seg)) seg

/-- No mask of the policies, one after the other, touches the match. -/
def Survives : List String → Segment → Match → Prop
  | [], _, _ => True
  | name :: names, seg, m => Spared (eng.edits llm name seg) m.start m.stop ∧
      Survives names (apply seg (eng.masks llm name seg)) (m.movedTo (landing 0 0 (eng.edits llm name seg) m.start))

/-- A match of `name` that blocks survives the masks of the policies before it. -/
def KeepsBlock (before : List String) (name : String) (seg : Segment) : Prop :=
  ∃ m ∈ eng.blocking llm name seg, eng.Survives llm before seg m

/-- After the policies `before`, a redaction of `mask` is part of a match of `name` that
blocks and survives the masks of the policies between them. -/
def MakesBlock (before : List String) (mask : String) (between : List String) (name : String) (seg : Segment) : Prop :=
  let shown := eng.masked llm before seg
  let next := apply shown (eng.masks llm mask shown)
  ∃ m ∈ eng.blocking llm name next,
    Touches (places 0 0 (eng.edits llm mask shown)) m.start m.stop ∧ eng.Survives llm between next m

def ReportsPatterns (name : String) : Prop :=
  ∀ p, eng.policy name = some p → SynapseGateway.ReportsPatterns llm p.input

end GuardEngine

end

section
variable {llm : LlmGuard} {eng : GuardEngine} {name mask : String} {seg : Segment} {m : Match}

theorem blocking_masked (hmask : eng.ReportsPatterns llm mask) (hname : eng.ReportsPatterns llm name) :
    m ∈ eng.blocking llm name (apply seg (eng.masks llm mask seg)) ↔
      (∃ o ∈ eng.blocking llm name seg, Spared (eng.edits llm mask seg) o.start o.stop ∧
          m = o.movedTo (landing 0 0 (eng.edits llm mask seg) o.start)) ∨
        m ∈ eng.blocking llm name (apply seg (eng.masks llm mask seg)) ∧
          Touches (places 0 0 (eng.edits llm mask seg)) m.start m.stop := by
  unfold GuardEngine.blocking GuardEngine.edits GuardEngine.masks
  cases hq : eng.policy name with
  | none => simp
  | some q =>
    cases hp : eng.policy mask with
    | some p => exact CompiledPolicy.mem_blocking_masked (hmask p hp) (hname q hq)
    | none =>
      have hedits : ∀ start, editsFrom [] start seg = [] := by
        induction seg with
        | nil => exact fun _ => rfl
        | cons leaf leaves ih =>
          intro start
          rw [editsFrom, ih]
          rfl
      simp only [hedits, show apply seg [] = seg from applyFrom_nil 0 seg]
      constructor
      · intro hm
        refine .inl ⟨m, hm, (fun e he => by cases he), ?_⟩
        obtain ⟨pats, hrep⟩ := hname q hq
        obtain ⟨h, hh, rfl⟩ := List.mem_map.mp ((hrep _).mem_iff.mp (CompiledPolicy.mem_blocking.mp hm).1)
        have hlt := (hitsFrom_start hh).2
        simp only [Match.movedTo, landing, toMatch, Match.mk.injEq, true_and]
        omega
      · rintro (⟨o, ho, -, rfl⟩ | ⟨hm, -⟩)
        · obtain ⟨pats, hrep⟩ := hname q hq
          obtain ⟨h, hh, rfl⟩ := List.mem_map.mp ((hrep _).mem_iff.mp (CompiledPolicy.mem_blocking.mp ho).1)
          have hlt := (hitsFrom_start hh).2
          have hback : (toMatch h).movedTo (landing 0 0 [] (toMatch h).start) = toMatch h := by
            simp only [Match.movedTo, landing, toMatch, Match.mk.injEq, true_and]
            omega
          rwa [hback]
        · exact hm

/-- What blocks after the policies `before`, match by match. -/
theorem blocking_after {before : List String} (hbefore : ∀ n ∈ before, eng.ReportsPatterns llm n)
    (hname : eng.ReportsPatterns llm name) :
    eng.blocking llm name (eng.masked llm before seg) ≠ [] ↔ eng.KeepsBlock llm before name seg ∨
      ∃ first mask between, before = first ++ mask :: between ∧ eng.MakesBlock llm first mask between name seg := by
  induction before generalizing seg with
  | nil =>
    constructor
    · intro hne
      obtain ⟨m, hm⟩ := List.exists_mem_of_ne_nil _ hne
      exact .inl ⟨m, hm, trivial⟩
    · rintro (⟨m, hm, -⟩ | ⟨first, mask, between, heq, -⟩)
      · exact List.ne_nil_of_mem hm
      · simp at heq
  | cons mask before ih =>
    obtain ⟨hmask, hbefore⟩ := List.forall_mem_cons.mp hbefore
    have hstep : eng.masked llm (mask :: before) seg = eng.masked llm before (apply seg (eng.masks llm mask seg)) := rfl
    rw [hstep, ih hbefore]
    constructor
    · rintro (⟨m, hm, hsurvives⟩ | ⟨first, mask', between, rfl, hmakes⟩)
      · rcases (blocking_masked hmask hname).mp hm with ⟨o, ho, hspared, rfl⟩ | ⟨hm, htouch⟩
        · exact .inl ⟨o, ho, hspared, hsurvives⟩
        · exact .inr ⟨[], mask, before, rfl, m, hm, htouch, hsurvives⟩
      · exact .inr ⟨mask :: first, mask', between, rfl, hmakes⟩
    · rintro (⟨o, ho, hspared, hsurvives⟩ | ⟨first, mask', between, heq, hmakes⟩)
      · exact .inl ⟨_, (blocking_masked hmask hname).mpr (.inl ⟨o, ho, hspared, rfl⟩), hsurvives⟩
      · cases first with
        | nil =>
          obtain ⟨rfl, rfl⟩ := List.cons.inj heq
          obtain ⟨m, hm, -, hsurvives⟩ := hmakes
          exact .inl ⟨m, hm, hsurvives⟩
        | cons first₀ first =>
          obtain ⟨rfl, rfl⟩ := List.cons.inj heq
          exact .inr ⟨first, mask', between, rfl, hmakes⟩

end

end SynapseGateway
