import SynapseGateway.EngineSound
import SynapseGateway.Output

/-!
# The output guard against whole-text screening

A push either finds a blocking match in what is held, or cuts what is held
where no occurrence can straddle, now or with any text to come. Feeding a reply
is therefore screening it whole.
-/

namespace SynapseGateway

open String (utf8Len utf8Len_append)
open Utf8

section
variable (llm : LlmGuard) (eng : GuardEngine)

def OutputGuard.feed : OutputGuard → List Text → List OutputStep
  | g, [] => [g.finish llm eng]
  | g, d :: ds => g.push llm eng d :: (g.push llm eng d).next.feed ds

/-- What feeding records, with offsets into the reply; the held text starts at
offset `base`. -/
def OutputGuard.feedRecords (g : OutputGuard) (base : Nat) : List Text → List MatchRecord
  | [] => (g.finish llm eng).records.map (MatchRecord.shift base)
  | d :: ds =>
    let s := g.push llm eng d
    s.records.map (MatchRecord.shift base) ++
      s.next.feedRecords (base + (utf8Len g.held + utf8Len d - utf8Len s.next.held)) ds

end

section
variable {llm : LlmGuard} {eng : GuardEngine} {name : String} {p : CompiledPolicy} {o : CompiledScanners}
  {pats : List (Pattern MatchTag)}

structure OutputGuard.Under (g : OutputGuard) (name : String) (p : CompiledPolicy) : Prop where
  policy : g.policy = name
  holdback : g.holdback = p.holdback

theorem new_under (hs : Screens llm eng name p o pats) : (OutputGuard.new eng name).Under name p :=
  ⟨rfl, by simp [OutputGuard.new, GuardEngine.holdback, hs.policy]⟩

/-- Where no occurrence straddles `a` and what follows it, whatever is to come. -/
def Sealed (pats : List (Pattern MatchTag)) (a b : Text) : Prop :=
  ∀ f, ∀ h ∈ hits pats (a ++ (b ++ f)), ¬ h.Crosses (utf8Len a)

/-! ## One call -/

theorem windowCut_take (g : OutputGuard) :
    g.windowCut = utf8Len (g.held.take (g.held.length - g.holdback)) := by
  unfold OutputGuard.windowCut charOffset
  simp only
  split
  · split
    · rfl
    · rw [List.take_of_length_le (by omega)]
      rfl
  · rw [Nat.sub_eq_zero_of_le (by omega)]
    rfl

theorem sealed_of_le (hs : Screens llm eng name p o pats) {a b : Text}
    (hx : ∀ h ∈ hits pats (a ++ b), ¬ h.Crosses (utf8Len a))
    (hle : utf8Len a ≤ utf8Len ((a ++ b).take ((a ++ b).length - p.holdback))) : Sealed pats a b := by
  intro f h hh hc
  rw [← List.append_assoc] at hh
  by_cases hstop : h.stop ≤ utf8Len (a ++ b)
  · exact hx h (mem_hits_append_left.mpr ⟨hh, hstop⟩) hc
  · have hcross : h.Crosses (utf8Len (a ++ b)) := by
      refine ⟨?_, by omega⟩
      have := hc.1
      rw [utf8Len_append]; omega
    obtain ⟨q, hq, x, m, hab, hxs, hml⟩ := hits_straddle hh hcross
    have hshort := hs.short q hq
    -- the occurrence starts before the window, so all of the window is in it
    have hstart := hc.1
    rw [hab] at hle
    have hxlt : x.length < (x ++ m).length - p.holdback := by
      by_contra hge
      rw [List.take_append_of_le_length (by omega)] at hle
      have := utf8Len_take_le ((x ++ m).length - p.holdback) x
      omega
    rw [List.length_append] at hxlt
    omega

/-- What a call that does not block leaves: `a` is released, `b` is held. -/
structure Passes (p : CompiledPolicy) (o : CompiledScanners) (pats : List (Pattern MatchTag)) (name : String)
    (a b : Text) (s : OutputStep) : Prop where
  release : s.release = .text (masked p o pats a)
  next : s.next.Under name p
  held : s.next.held = b
  records : s.records.Perm (recordsOf p o pats name a)

theorem release_blocks (hs : Screens llm eng name p o pats) {g : OutputGuard} (hg : g.Under name p)
    (hb : Blocks p o pats g.held) (w : Nat) : (g.release llm eng w).release.isBlocked = true := by
  have hne := (releaseOutput_blocks hs hb (some w)).1
  rw [← List.isEmpty_eq_false_iff] at hne
  simp only [OutputGuard.release, hg.policy, hne, Bool.false_eq_true, if_false]
  rfl

theorem release_passes (hs : Screens llm eng name p o pats) {g : OutputGuard} (hg : g.Under name p) {w : Nat}
    (hw : Boundary w g.held) (hb : ¬ Blocks p o pats g.held) :
    ∃ a b, g.held = a ++ b ∧ utf8Len a ≤ w ∧ (w = utf8Len g.held → b = []) ∧
      (∀ h ∈ hits pats (a ++ b), ¬ h.Crosses (utf8Len a)) ∧ Passes p o pats name a b (g.release llm eng w) := by
  have hmin : clampCut (some w) (utf8Len g.held) = w := Nat.min_eq_left hw.le
  obtain ⟨a, b, hle, hall, hr⟩ := releaseOutput_passes hs hmin hw hb
  refine ⟨a, b, hr.split, hle, hall, hr.split ▸ hr.uncrossed, ?_⟩
  simp only [OutputGuard.release, hg.policy, hr.pass, List.isEmpty_nil, if_true]
  exact ⟨by rw [hr.released], ⟨rfl, hg.holdback⟩, hr.rest, hr.records⟩

theorem push_blocks (hs : Screens llm eng name p o pats) {g : OutputGuard} (hg : g.Under name p) {d : Text}
    (hb : Blocks p o pats (g.held ++ d)) : (g.push llm eng d).release.isBlocked = true :=
  release_blocks hs (g := { g with held := g.held ++ d }) ⟨hg.policy, hg.holdback⟩ hb _

theorem push_passes (hs : Screens llm eng name p o pats) {g : OutputGuard} (hg : g.Under name p) {d : Text}
    (hb : ¬ Blocks p o pats (g.held ++ d)) :
    ∃ a b, g.held ++ d = a ++ b ∧ Sealed pats a b ∧ Passes p o pats name a b (g.push llm eng d) := by
  have hg' : OutputGuard.Under { g with held := g.held ++ d } name p := ⟨hg.policy, hg.holdback⟩
  have hwin := windowCut_take { g with held := g.held ++ d }
  have hw : Boundary (OutputGuard.windowCut { g with held := g.held ++ d }) (g.held ++ d) := by
    rw [hwin, Boundary, takeBytes_take]
  obtain ⟨a, b, hab, hle, -, hx, hpass⟩ := release_passes hs hg' hw hb
  refine ⟨a, b, hab, sealed_of_le hs hx ?_, hpass⟩
  rw [hwin] at hle
  change g.held ++ d = a ++ b at hab
  rw [← hab, ← hg.holdback]
  exact hle

theorem flush_blocks (hs : Screens llm eng name p o pats) {g : OutputGuard} (hg : g.Under name p)
    (hb : Blocks p o pats g.held) : (g.flush llm eng).release.isBlocked = true :=
  release_blocks hs hg hb _

theorem flush_passes (hs : Screens llm eng name p o pats) {g : OutputGuard} (hg : g.Under name p)
    (hb : ¬ Blocks p o pats g.held) : Passes p o pats name g.held [] (g.flush llm eng) := by
  have hw : Boundary (utf8Len g.held) g.held := by rw [Boundary, takeBytes_utf8Len]
  obtain ⟨a, b, hab, -, hall, -, hpass⟩ := release_passes hs hg hw hb
  rw [hall rfl, List.append_nil] at hab
  rwa [← hab, hall rfl] at hpass

/-! ## A whole reply -/

theorem screenOutput_blocks (hs : Screens llm eng name p o pats) (t : Text) :
    (eng.screenOutput llm name t).1.blockers ≠ [] ↔ Blocks p o pats t := by
  by_cases hb : Blocks p o pats t
  · exact iff_of_true (releaseOutput_blocks hs hb none).1 hb
  · have hw : Boundary (utf8Len t) t := by rw [Boundary, takeBytes_utf8Len]
    obtain ⟨a, b, -, -, hr⟩ := releaseOutput_passes hs (w := none) rfl hw hb
    exact iff_of_false (fun hne => hne hr.pass) hb

theorem screenOutput_passes (hs : Screens llm eng name p o pats) {t : Text} (hb : ¬ Blocks p o pats t) :
    (eng.screenOutput llm name t).2.1 = masked p o pats t ∧
      (eng.screenOutput llm name t).2.2.Perm (recordsOf p o pats name t) := by
  have hw : Boundary (utf8Len t) t := by rw [Boundary, takeBytes_utf8Len]
  obtain ⟨a, b, -, hall, hr⟩ := releaseOutput_passes hs (w := none) rfl hw hb
  have hta : t = a := by rw [hr.split, hall rfl, List.append_nil]
  subst hta
  simp only [GuardEngine.screenOutput, hr.pass, List.isEmpty_nil, if_true]
  exact ⟨hr.released, hr.records⟩

theorem feed_blocks (hs : Screens llm eng name p o pats) (ds : List Text) {g : OutputGuard} (hg : g.Under name p) :
    (∃ s ∈ g.feed llm eng ds, s.release.isBlocked = true) ↔ Blocks p o pats (g.held ++ ds.flatten) := by
  induction ds generalizing g with
  | nil =>
    rw [OutputGuard.feed, List.flatten_nil, List.append_nil]
    simp only [List.mem_singleton, exists_eq_left]
    by_cases hb : Blocks p o pats g.held
    · exact iff_of_true (flush_blocks hs hg hb) hb
    · have hpass := flush_passes hs hg hb
      refine iff_of_false ?_ hb
      show ¬ (g.flush llm eng).release.isBlocked = true
      rw [hpass.release]
      exact Bool.false_ne_true
  | cons d ds ih =>
    rw [OutputGuard.feed, List.flatten_cons, ← List.append_assoc]
    simp only [List.mem_cons, exists_eq_or_imp]
    by_cases hb : Blocks p o pats (g.held ++ d)
    · exact iff_of_true (.inl (push_blocks hs hg hb)) (hb.append_right _)
    · obtain ⟨a, b, hab, hseal, hpass⟩ := push_passes hs hg hb
      have ih := ih hpass.next
      rw [hpass.held] at ih
      rw [hab] at hb ⊢
      rw [ih, hpass.release, List.append_assoc, blocks_append (hseal _)]
      have ha : ¬ Blocks p o pats a := fun h => hb (h.append_right b)
      simp [ha, Release.isBlocked]

theorem feed_passes (hs : Screens llm eng name p o pats) {ds : List Text} {g : OutputGuard} (base : Nat)
    (hg : g.Under name p) (hb : ¬ Blocks p o pats (g.held ++ ds.flatten)) :
    ((g.feed llm eng ds).map (·.release.released)).flatten = masked p o pats (g.held ++ ds.flatten) ∧
      (g.feedRecords llm eng base ds).Perm
        ((recordsOf p o pats name (g.held ++ ds.flatten)).map (MatchRecord.shift base)) := by
  induction ds generalizing g base with
  | nil =>
    rw [List.flatten_nil, List.append_nil] at hb ⊢
    have hpass := flush_passes hs hg hb
    refine ⟨?_, hpass.records.map _⟩
    show ((g.flush llm eng).release.released :: []).flatten = _
    rw [hpass.release, Release.released, List.flatten_cons, List.flatten_nil, List.append_nil]
  | cons d ds ih =>
    rw [List.flatten_cons, ← List.append_assoc] at hb ⊢
    have hbd : ¬ Blocks p o pats (g.held ++ d) := fun h => hb (h.append_right _)
    obtain ⟨a, b, hab, hseal, hpass⟩ := push_passes hs hg hbd
    have hlen : utf8Len g.held + utf8Len d - utf8Len (g.push llm eng d).next.held = utf8Len a := by
      rw [hpass.held, ← utf8Len_append, hab, utf8Len_append, Nat.add_sub_cancel]
    rw [hab, List.append_assoc] at hb ⊢
    have hcut := hseal ds.flatten
    have hrest : ¬ Blocks p o pats ((g.push llm eng d).next.held ++ ds.flatten) := by
      rw [hpass.held]
      exact fun h => hb ((blocks_append hcut).mpr (.inr h))
    obtain ⟨ih₁, ih₂⟩ := ih (base + utf8Len a) hpass.next hrest
    rw [hpass.held] at ih₁ ih₂
    constructor
    · rw [OutputGuard.feed, List.map_cons, List.flatten_cons, ih₁, hpass.release, masked_append hs hcut]
      rfl
    · rw [OutputGuard.feedRecords, hlen]
      refine ((hpass.records.map _).append ih₂).trans ?_
      refine List.Perm.trans (List.Perm.of_eq ?_) ((recordsOf_append hcut).map _).symm
      rw [List.map_append, List.map_map]
      congr 2
      funext r
      simp only [Function.comp, MatchRecord.shift]
      congr 1 <;> omega

end

end SynapseGateway
