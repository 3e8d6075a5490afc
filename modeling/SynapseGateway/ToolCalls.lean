import SynapseGateway.GuardedStreamSound
import SynapseGateway.StreamAgree

/-!
# Output screening around tool calls

A tool-call delta flushes the held text, so a streamed reply is screened one
run of text at a time, while a buffered reply is screened as the runs joined.
-/

namespace SynapseGateway

open String (utf8Len utf8Len_append)
open Utf8

/-- The maximal runs of delta text between items that are not text; `t` is the
text of the run so far. -/
def textRuns : Text → List StreamItem → List Text
  | t, [] => [t]
  | t, .delta u :: l => textRuns (t ++ u) l
  | t, _ :: l => t :: textRuns [] l

theorem textRuns_append : ∀ (l : List StreamItem) (a t : Text), ∃ f rest,
    textRuns t l = (t ++ f) :: rest ∧ textRuns (a ++ t) l = (a ++ (t ++ f)) :: rest
  | [], a, t => ⟨[], [], by simp [textRuns], by simp [textRuns]⟩
  | .delta u :: l, a, t => by
    obtain ⟨f, rest, h₁, h₂⟩ := textRuns_append l a (t ++ u)
    exact ⟨u ++ f, rest, by rw [textRuns, h₁, List.append_assoc],
      by rw [textRuns, List.append_assoc, h₂, List.append_assoc t u f]⟩
  | .toolCallDelta _ _ _ _ :: l, a, t => ⟨[], textRuns [] l, by simp [textRuns], by simp [textRuns]⟩
  | .done _ _ _ :: l, a, t => ⟨[], textRuns [] l, by simp [textRuns], by simp [textRuns]⟩
  | .blocked _ _ :: l, a, t => ⟨[], textRuns [] l, by simp [textRuns], by simp [textRuns]⟩

def itemEvents (items : List StreamItem) : List Event := items.map fun i => some (.ok i)

section
variable {llm : LlmGuard} {eng : GuardEngine} {name : String} {p : CompiledPolicy} {o : CompiledScanners}
  {pats : List (Pattern MatchTag)}

theorem Passing.cons {output : Option OutputGuard} {ev : Event} {c : List Event}
    (h : Passing llm eng output (ev :: c)) :
    (guardCall llm eng output ev).1.isBlocked = false ∧ Passing llm eng (guardCall llm eng output ev).2 c :=
  ⟨h _ (List.mem_cons_self ..), fun x hx => h x (List.mem_cons_of_mem _ hx)⟩

variable (llm eng) in
theorem guardCall_flush (g : OutputGuard) {ev : Event} (hev : ∀ t, ev ≠ some (.ok (.delta t))) :
    (guardCall llm eng (some g) ev).1 = (g.flush llm eng).release ∧
      (ev.isSome → (guardCall llm eng (some g) ev).2 = some (g.flush llm eng).next) := by
  match ev with
  | none => exact ⟨rfl, fun h => by cases h⟩
  | some (.error e) => exact ⟨rfl, fun _ => rfl⟩
  | some (.ok (.delta t)) => exact absurd rfl (hev t)
  | some (.ok (.toolCallDelta _ _ _ _)) => exact ⟨rfl, fun _ => rfl⟩
  | some (.ok (.done _ _ _)) => exact ⟨rfl, fun _ => rfl⟩
  | some (.ok (.blocked _ _)) => exact ⟨rfl, fun _ => rfl⟩

theorem push_isBlocked (hs : Screens llm eng name p o pats) {g : OutputGuard} (hg : g.Under name p) (d : Text) :
    (g.push llm eng d).release.isBlocked = true ↔ Blocks p o pats (g.held ++ d) := by
  by_cases hb : Blocks p o pats (g.held ++ d)
  · exact iff_of_true (push_blocks hs hg hb) hb
  · obtain ⟨a, b, -, -, hpass⟩ := push_passes hs hg hb
    rw [hpass.release]
    exact iff_of_false Bool.false_ne_true hb

theorem flush_isBlocked (hs : Screens llm eng name p o pats) {g : OutputGuard} (hg : g.Under name p) :
    (g.flush llm eng).release.isBlocked = true ↔ Blocks p o pats g.held := by
  by_cases hb : Blocks p o pats g.held
  · exact iff_of_true (flush_blocks hs hg hb) hb
  · rw [(flush_passes hs hg hb).release]
    exact iff_of_false Bool.false_ne_true hb

theorem textRuns_other {item : StreamItem} (h : ¬ ∃ u, item = .delta u) (t : Text) (items : List StreamItem) :
    textRuns t (item :: items) = t :: textRuns [] items := by
  cases item with
  | delta u => exact absurd ⟨u, rfl⟩ h
  | _ => rfl

theorem other_passes (hs : Screens llm eng name p o pats) {g : OutputGuard} (hg : g.Under name p) {item : StreamItem}
    (hitem : ¬ ∃ u, item = .delta u)
    (hcall : (guardCall llm eng (some g) (some (.ok item))).1.isBlocked = false) :
    (guardCall llm eng (some g) (some (.ok item))).2 = some (g.flush llm eng).next ∧ ¬ Blocks p o pats g.held ∧
      Passes p o pats name g.held [] (g.flush llm eng) := by
  have hev : ∀ t, (some (.ok item) : Event) ≠ some (.ok (.delta t)) := fun t ht => hitem ⟨t, by cases ht; rfl⟩
  obtain ⟨hrel, hnext⟩ := guardCall_flush llm eng g hev
  have hb : ¬ Blocks p o pats g.held := by
    rw [← flush_isBlocked hs hg, ← hrel, hcall]
    exact Bool.false_ne_true
  exact ⟨hnext rfl, hb, flush_passes hs hg hb⟩

theorem passing_runs (hs : Screens llm eng name p o pats) : ∀ {items : List StreamItem} {g : OutputGuard},
    g.Under name p → Passing llm eng (some g) (itemEvents items ++ [none]) →
    ∀ r ∈ textRuns g.held items, ¬ Blocks p o pats r
  | [], g, hg, h => by
    intro r hr
    rw [textRuns, List.mem_singleton] at hr
    rw [hr, ← flush_isBlocked hs hg, Bool.not_eq_true]
    exact h.cons.1
  | item :: items, g, hg, h => by
    obtain ⟨hcall, hrest⟩ := h.cons
    by_cases hitem : ∃ u, item = .delta u
    · obtain ⟨u, rfl⟩ := hitem
      have hb : ¬ Blocks p o pats (g.held ++ u) := by
        rw [← push_isBlocked hs hg, Bool.not_eq_true]
        exact hcall
      obtain ⟨a, b, hab, hseal, hpass⟩ := push_passes hs hg hb
      have ih := passing_runs hs hpass.next hrest
      rw [hpass.held] at ih
      obtain ⟨f, rest, h₁, h₂⟩ := textRuns_append items a b
      rw [h₁] at ih
      intro r hr
      rw [textRuns, hab, h₂] at hr
      rcases List.mem_cons.mp hr with rfl | hr
      · rw [blocks_append (hseal f)]
        intro h
        obtain ha | hbf := h
        · exact hb (hab ▸ ha.append_right b)
        · exact ih _ (List.mem_cons_self ..) hbf
      · exact ih r (List.mem_cons_of_mem _ hr)
    · obtain ⟨hnext, hb, hpass⟩ := other_passes hs hg hitem hcall
      rw [hnext] at hrest
      have ih := passing_runs hs hpass.next hrest
      rw [hpass.held] at ih
      intro r hr
      rw [textRuns_other hitem] at hr
      rcases List.mem_cons.mp hr with rfl | hr
      · exact hb
      · exact ih r hr

/-- The run in which a stream stops: `a` is what was released of it, and every
blocking match of the run is after `a`. -/
structure StopsIn (p : CompiledPolicy) (o : CompiledScanners) (pats : List (Pattern MatchTag)) (released run : Text) :
    Prop where
  blocks : Blocks p o pats run
  after : ∃ a b, run = a ++ b ∧ released = masked p o pats a ∧
    ∀ h ∈ hits pats run, (judgeHit p o h).eff = .block → utf8Len a ≤ h.start

theorem stopsIn {a b f : Text} (hseal : Sealed pats a b) (ha : ¬ Blocks p o pats a) (hb : Blocks p o pats b) :
    StopsIn p o pats (masked p o pats a) (a ++ (b ++ f)) := by
  refine ⟨(blocks_append (hseal f)).mpr (.inr (hb.append_right f)), a, b ++ f, rfl, rfl, ?_⟩
  intro h hh he
  by_contra hlt
  have hx := hseal f h hh
  refine ha ⟨h, mem_hits_append_left.mpr ⟨hh, ?_⟩, he⟩
  rw [Hit.Crosses] at hx
  omega

theorem Sealed.append {a x y : Text} (h : Sealed pats a (x ++ y)) (hxy : Sealed pats x y) :
    Sealed pats (a ++ x) y := by
  intro f k hk hc
  rw [utf8Len_append] at hc
  rw [List.append_assoc] at hk
  have hx := h f k (by rwa [List.append_assoc])
  by_cases hstart : utf8Len a ≤ k.start
  · obtain ⟨k', hk', rfl⟩ := List.mem_map.mp (mem_hits_append_right.mpr ⟨hk, hstart⟩)
    refine hxy f k' hk' ?_
    simp only [Hit.Crosses, Hit.shift] at hc ⊢
    omega
  · rw [Hit.Crosses] at hx hc
    omega

theorem Sealed.cut {a x y : Text} (h : Sealed pats a (x ++ y)) : ∀ k ∈ hits pats (a ++ x), ¬ k.Crosses (utf8Len a) := by
  intro k hk hc
  refine h [] k ?_ hc
  rw [List.append_nil, ← List.append_assoc]
  exact (mem_hits_append_left.mp hk).1

theorem masked_nil : masked p o pats [] = [] := by
  unfold masked
  cases p.mode <;> rfl

theorem sealed_nil (b : Text) : Sealed pats [] b := by
  intro f h _ hc
  exact absurd hc.1 (Nat.not_lt_zero _)

theorem not_blocks_nil : ¬ Blocks p o pats [] := by
  intro h
  obtain ⟨h, hh, -⟩ := h
  cases hh

/-- Text that passes: what is released extends the released part of the run. -/
theorem push_advances (hs : Screens llm eng name p o pats) {g : OutputGuard} (hg : g.Under name p) {a u : Text}
    (hseal : Sealed pats a g.held) (ha : ¬ Blocks p o pats a) (hnb : ¬ Blocks p o pats (g.held ++ u)) :
    ∃ x y, g.held ++ u = x ++ y ∧ Passes p o pats name x y (g.push llm eng u) ∧ Sealed pats (a ++ x) y ∧
      ¬ Blocks p o pats (a ++ x) ∧ masked p o pats (a ++ x) = masked p o pats a ++ masked p o pats x := by
  obtain ⟨x, y, hxy, hsealxy, hpass⟩ := push_passes hs hg hnb
  have hsealx : Sealed pats a (x ++ y) := fun f => by
    have := hseal (u ++ f)
    rwa [← List.append_assoc g.held, hxy] at this
  refine ⟨x, y, hxy, hpass, hsealx.append hsealxy, ?_, masked_append hs hsealx.cut⟩
  rw [blocks_append hsealx.cut]
  intro h
  obtain h | h := h
  · exact ha h
  · exact hnb (hxy ▸ h.append_right y)

theorem flush_stopsIn (hs : Screens llm eng name p o pats) {g : OutputGuard} {a : Text} (hg : g.Under name p)
    (hseal : Sealed pats a g.held) (ha : ¬ Blocks p o pats a) (hb : (g.flush llm eng).release.isBlocked = true) :
    StopsIn p o pats (masked p o pats a) (a ++ g.held) := by
  have hstops := stopsIn (f := []) hseal ha ((flush_isBlocked hs hg).mp hb)
  rwa [List.append_nil] at hstops

/-- A stream stops in a run that blocks. `a` is the part of the current run
that was released, and its text is `masked a`. -/
theorem stops_in_run (hs : Screens llm eng name p o pats) : ∀ {items : List StreamItem} {g : OutputGuard} {a : Text},
    g.Under name p → Sealed pats a g.held → ¬ Blocks p o pats a →
    ∀ {before after : List Event} {ev : Event}, itemEvents items ++ [none] = before ++ ev :: after →
    Passing llm eng (some g) before →
    (guardCall llm eng (guardAfter llm eng (some g) before) ev).1.isBlocked = true →
    ∃ run ∈ textRuns (a ++ g.held) items,
      StopsIn p o pats (releasedFrom (masked p o pats a) (guardCalls llm eng (some g) before)).2 run
  | [], g, a, hg, hseal, ha, [], after, ev, hevs, _, hb => by
    obtain ⟨rfl, -⟩ := List.cons.inj hevs
    exact ⟨_, List.mem_singleton.mpr rfl, flush_stopsIn hs hg hseal ha hb⟩
  | [], g, a, hg, hseal, ha, x :: before, after, ev, hevs, _, hb => by
    have := (List.cons.inj hevs).2
    simp at this
  | item :: items, g, a, hg, hseal, ha, [], after, ev, hevs, _, hb => by
    obtain ⟨rfl, -⟩ := List.cons.inj hevs
    by_cases hitem : ∃ u, item = .delta u
    · obtain ⟨u, rfl⟩ := hitem
      have hblocks : Blocks p o pats (g.held ++ u) := (push_isBlocked hs hg u).mp hb
      obtain ⟨f, rest, -, h₂⟩ := textRuns_append items a (g.held ++ u)
      have hseal' : Sealed pats a (g.held ++ u) := fun f => by
        have := hseal (u ++ f)
        rwa [List.append_assoc]
      refine ⟨a ++ (g.held ++ u ++ f), ?_, stopsIn hseal' ha hblocks⟩
      rw [textRuns, List.append_assoc, h₂]
      exact List.mem_cons_self ..
    · have hev : ∀ t, (some (.ok item) : Event) ≠ some (.ok (.delta t)) := fun t ht => hitem ⟨t, by cases ht; rfl⟩
      rw [guardAfter, (guardCall_flush llm eng _ hev).1] at hb
      refine ⟨_, ?_, flush_stopsIn hs hg hseal ha hb⟩
      rw [textRuns_other hitem]
      exact List.mem_cons_self ..
  | item :: items, g, a, hg, hseal, ha, x :: before, after, ev, hevs, hpassing, hb => by
    obtain rfl := (List.cons.inj hevs).1
    have hevs' : itemEvents items ++ [none] = before ++ ev :: after := (List.cons.inj hevs).2
    obtain ⟨hcall, hrest⟩ := hpassing.cons
    by_cases hitem : ∃ u, item = .delta u
    · obtain ⟨u, rfl⟩ := hitem
      have hnb : ¬ Blocks p o pats (g.held ++ u) := by
        rw [← push_isBlocked hs hg, Bool.not_eq_true]
        exact hcall
      obtain ⟨x, y, hxy, hpass, hsealx, hax, hm⟩ := push_advances hs hg hseal ha hnb
      obtain ⟨run, hrun, hstop⟩ := stops_in_run hs hpass.next (hpass.held ▸ hsealx) hax hevs' hrest hb
      refine ⟨run, ?_, ?_⟩
      · rw [textRuns, List.append_assoc, hxy, ← List.append_assoc]
        rwa [hpass.held] at hrun
      · rw [hm] at hstop
        have hrel : (guardCall llm eng (some g) (some (.ok (.delta u)))).1 = .text (masked p o pats x) := hpass.release
        rw [guardCalls, releasedFrom, hrel]
        exact hstop
    · obtain ⟨hnext, hnb, hpass⟩ := other_passes hs hg hitem hcall
      rw [hnext] at hrest
      rw [guardAfter, hnext] at hb
      obtain ⟨run, hrun, hstop⟩ := stops_in_run hs (a := []) hpass.next (sealed_nil _) not_blocks_nil hevs' hrest hb
      refine ⟨run, ?_, ?_⟩
      · rw [hpass.held] at hrun
        rw [textRuns_other hitem]
        exact List.mem_cons_of_mem _ hrun
      · rw [guardCalls, hnext]
        rw [masked_nil] at hstop
        cases item with
        | delta u => exact absurd ⟨u, rfl⟩ hitem
        | _ => exact hstop

/-! ## From the yielded items -/

theorem mem_segmentsFrom {policy : String} {scanners : List String} {l : List (Except LegError StreamItem)} {t : Text}
    (h : Except.ok (StreamItem.blocked policy scanners) ∈ l) :
    ∃ u, (u, Except.ok (StreamItem.blocked policy scanners)) ∈ (segmentsFrom t l).1 := by
  induction l generalizing t with
  | nil => cases h
  | cons x l ih =>
    rcases List.mem_cons.mp h with rfl | hl
    · exact ⟨t, List.mem_cons_self ..⟩
    · have hrest : ∃ u, (u, Except.ok (StreamItem.blocked policy scanners)) ∈ (t, x) :: (segmentsFrom [] l).1 := by
        obtain ⟨u, hu⟩ := ih (t := []) hl
        exact ⟨u, List.mem_cons_of_mem _ hu⟩
      cases x with
      | error e => exact hrest
      | ok item =>
        cases item with
        | delta u => exact ih (t := t ++ u) hl
        | _ => exact hrest

theorem mem_releasedFrom {x : Except LegError StreamItem} {u : Text} {output : Option OutputGuard} {c : List Event}
    {t : Text} (h : (u, x) ∈ (releasedFrom t (guardCalls llm eng output c)).1) : some x ∈ c := by
  induction c generalizing output t with
  | nil => cases h
  | cons ev c ih =>
    rw [guardCalls] at h
    have hrest : ∀ {t' output'}, (u, x) ∈ (releasedFrom t' (guardCalls llm eng output' c)).1 → some x ∈ ev :: c :=
      fun h => List.mem_cons_of_mem _ (ih h)
    -- an item other than text is released with the text before it
    have hitem : ∀ {y t' rest}, ev = some y → (u, x) ∈ (t', y) :: rest → ((u, x) ∈ rest → some x ∈ ev :: c) →
        some x ∈ ev :: c := by
      intro y t' rest hev h hlater
      rcases List.mem_cons.mp h with h | h
      · cases h
        rw [hev]
        exact List.mem_cons_self ..
      · exact hlater h
    cases ev with
    | none => exact hrest h
    | some y =>
      cases y with
      | error e => exact hitem rfl h hrest
      | ok item =>
        cases item with
        | delta d => exact hrest h
        | toolCallDelta => exact hitem rfl h hrest
        | done => exact hitem rfl h hrest
        | blocked => exact hitem rfl h hrest

def StreamItem.isChunk : StreamItem → Bool
  | .delta _ | .toolCallDelta _ _ _ _ => true
  | _ => false

theorem textRuns_done (i j : Nat) (r : FinishReason) : ∀ (items : List StreamItem) (t : Text),
    textRuns t (items ++ [StreamItem.done i j r]) = textRuns t items ++ [[]]
  | [], _ => rfl
  | .delta u :: items, t => textRuns_done i j r items (t ++ u)
  | .toolCallDelta _ _ _ _ :: items, t => congrArg (t :: ·) (textRuns_done i j r items [])
  | .done _ _ _ :: items, t => congrArg (t :: ·) (textRuns_done i j r items [])
  | .blocked _ _ :: items, t => congrArg (t :: ·) (textRuns_done i j r items [])

abbrev guardedRun (llm : LlmGuard) (eng : GuardEngine) (name : String) (effects : StreamSideEffects) (inner : Upstream)
    (n : Nat) : List Polled × GuardedStream :=
  (GuardedStream.new inner effects name (some (OutputGuard.new eng name))).polls llm eng n

section
variable {items : List StreamItem} {inner : Upstream} {i j : Nat} {r : FinishReason} {effects : StreamSideEffects}

theorem events_of_items (hin : inner.filterMap id = (items ++ [StreamItem.done i j r]).map Except.ok) :
    inner.events = itemEvents (items ++ [StreamItem.done i j r]) ++ [none] := by
  rw [Upstream.events, hin, itemEvents, List.map_map]
  rfl

theorem blocked_run (hs : Screens llm eng name p o pats) (hitems : ∀ x ∈ items, x.isChunk = true)
    (hin : inner.filterMap id = (items ++ [StreamItem.done i j r]).map Except.ok) {n : Nat} {scanners : List String}
    (hb : Except.ok (.blocked name scanners) ∈ yielded (guardedRun llm eng name effects inner n).1) :
    ∃ out tokens tokens' scanners', yielded (guardedRun llm eng name effects inner n).1 ++
        (guardedRun llm eng name effects inner n).2.queue =
          out ++ [.ok (.done tokens tokens' .contentFilter), .ok (.blocked name scanners')] ∧
      ∃ run ∈ textRuns [] items, StopsIn p o pats (segmentsFrom [] out).2 run := by
  have h := polls_inv (n := n) (new_inv llm eng inner effects name (some (OutputGuard.new eng name)))
  rw [List.nil_append, List.nil_append] at h
  obtain ⟨rest, hrest, -⟩ := h.upstream
  change inner.events = _ at hrest
  rcases h.state with ⟨hf, -⟩ | ⟨before, ev, scanners', hc, hstop⟩
  · -- without a block the yielded items are upstream items, and `Blocked` is none of them
    obtain ⟨u, hu⟩ := mem_segmentsFrom (t := []) (List.mem_append_left (guardedRun llm eng name effects inner n).2.queue hb)
    rw [hf.segments] at hu
    have hmem := List.mem_append_left rest (mem_releasedFrom hu)
    rw [← hrest, events_of_items hin] at hmem
    rcases List.mem_append.mp hmem with hmem | hmem
    · obtain ⟨x, hx, hxe⟩ := List.mem_map.mp hmem
      cases hxe
      rcases List.mem_append.mp hx with hx | hx
      · cases hitems _ hx
      · cases List.mem_singleton.mp hx
    · cases List.mem_singleton.mp hmem
  · obtain ⟨out, hout, hseg⟩ := hstop.yields
    refine ⟨out, _, _, scanners', hout, ?_⟩
    have hevs : itemEvents (items ++ [StreamItem.done i j r]) ++ [none] = before ++ ev :: rest := by
      rw [← events_of_items hin, hrest, hc, List.append_assoc]
      rfl
    have hblk : (guardCall llm eng (guardAfter llm eng (some (OutputGuard.new eng name)) before) ev).1.isBlocked = true := by
      have := hstop.blocks
      rw [show (GuardedStream.new inner effects name (some (OutputGuard.new eng name))).output =
        some (OutputGuard.new eng name) from rfl] at this
      rw [this]
      rfl
    obtain ⟨run, hrun, hst⟩ := stops_in_run hs (new_under hs) (sealed_nil _) not_blocks_nil hevs hstop.passing hblk
    change segmentsFrom [] out = releasedFrom [] (guardCalls llm eng (some (OutputGuard.new eng name)) before) at hseg
    rw [masked_nil, ← hseg] at hst
    refine ⟨run, ?_, hst⟩
    change run ∈ textRuns [] (items ++ [StreamItem.done i j r]) at hrun
    rw [textRuns_done] at hrun
    rcases List.mem_append.mp hrun with hrun | hrun
    · exact hrun
    · refine absurd hst.blocks ?_
      rw [List.mem_singleton.mp hrun]
      exact not_blocks_nil

theorem run_blocked (hs : Screens llm eng name p o pats)
    (hin : inner.filterMap id = (items ++ [StreamItem.done i j r]).map Except.ok) {run : Text} (hrun : run ∈ textRuns [] items)
    (hb : Blocks p o pats run) :
    ∃ n scanners, Except.ok (.blocked name scanners) ∈ yielded (guardedRun llm eng name effects inner n).1 := by
  obtain ⟨n, hq, hend⟩ := polls_end llm eng
    (GuardedStream.new inner effects name (some (OutputGuard.new eng name))) (Nat.le_refl _)
  have h := polls_inv (n := n) (new_inv llm eng inner effects name (some (OutputGuard.new eng name)))
  rw [List.nil_append, List.nil_append] at h
  rcases h.state with ⟨hf, hall⟩ | ⟨before, ev, scanners, -, hstop⟩
  · have hpass := hf.passing
    rw [hall hend] at hpass
    change Passing llm eng (some (OutputGuard.new eng name)) inner.events at hpass
    rw [events_of_items hin] at hpass
    refine absurd hb (passing_runs hs (new_under hs) hpass run ?_)
    change run ∈ textRuns [] (items ++ [StreamItem.done i j r])
    rw [textRuns_done]
    exact List.mem_append_left _ hrun
  · obtain ⟨out, hout, -⟩ := hstop.yields
    rw [hq, List.append_nil] at hout
    refine ⟨n, scanners, ?_⟩
    rw [hout]
    simp [GuardedStream.new]

end

end

/-! ## Each call gathered once -/

/-- A streamed reply ends in a block exactly when some run of text between
tool-call deltas would block on its own, and then what the client has of that
run is screened text that ends before every blocking match in it. -/
theorem stream_blocks_iff_run {llm : LlmGuard} {cfg : GuardrailsConfig} {eng : GuardEngine} {name : String}
    {p : CompiledPolicy} {o : CompiledScanners} {pats : List (Pattern MatchTag)}
    (heng : GuardEngine.fromConfig llm cfg = .ok eng) (hp : eng.policy name = some p) (ho : p.output = some o)
    (hrep : ∀ t, (llm.pipelineScan o.pipeline t).Perm ((hits pats t).map toMatch))
    (hlen : ∀ q ∈ pats, q.text.length ≤ eng.holdback name) {items : List StreamItem}
    (hitems : ∀ x ∈ items, x.isChunk = true) {inner : Upstream} {i j : Nat} {r : FinishReason}
    (hin : inner.filterMap id = (items ++ [StreamItem.done i j r]).map Except.ok) (effects : StreamSideEffects) :
    ((∃ n scanners, Except.ok (.blocked name scanners) ∈ yielded (guardedRun llm eng name effects inner n).1) ↔
        ∃ run ∈ textRuns [] items, (eng.screenOutput llm name run).1.blockers ≠ []) ∧
      ∀ n scanners, Except.ok (.blocked name scanners) ∈ yielded (guardedRun llm eng name effects inner n).1 →
        ∃ out tokens tokens' scanners', yielded (guardedRun llm eng name effects inner n).1 ++
            (guardedRun llm eng name effects inner n).2.queue =
              out ++ [.ok (.done tokens tokens' .contentFilter), .ok (.blocked name scanners')] ∧
          ∃ run ∈ textRuns [] items, StopsIn p o pats (segmentsFrom [] out).2 run := by
  have hs := screens_of_config heng hp ho hrep hlen
  refine ⟨⟨?_, ?_⟩, fun n scanners hb => blocked_run hs hitems hin hb⟩
  · intro h
    obtain ⟨n, scanners, hb⟩ := h
    obtain ⟨_, _, _, _, _, run, hrun, hst⟩ := blocked_run hs hitems hin hb
    exact ⟨run, hrun, (screenOutput_blocks hs run).mpr hst.blocks⟩
  · intro h
    obtain ⟨run, hrun, hb⟩ := h
    exact run_blocked hs hin hrun ((screenOutput_blocks hs run).mp hb)

def splitHashes : List StreamItem := [.delta "#".toList, .toolCallDelta 0 (some "c") (some "f") [], .delta "#".toList]

def demoEffects : StreamSideEffects := .new "route" "acme" {} "p" "m" "standard" "rid"

theorem stream_blocks_iff_run_hashes :
    ((∃ n scanners, Except.ok (.blocked "p" scanners) ∈
        yielded (guardedRun substringGuard (hashEngine .block) "p" demoEffects
          ((splitHashes ++ [StreamItem.done 1 2 .stop]).map fun x => some (.ok x)) n).1) ↔
      ∃ run ∈ textRuns [] splitHashes, ((hashEngine .block).screenOutput substringGuard "p" run).1.blockers ≠ []) ∧
    ∀ n scanners, Except.ok (.blocked "p" scanners) ∈
        yielded (guardedRun substringGuard (hashEngine .block) "p" demoEffects
          ((splitHashes ++ [StreamItem.done 1 2 .stop]).map fun x => some (.ok x)) n).1 →
      ∃ out tokens tokens' scanners',
        yielded (guardedRun substringGuard (hashEngine .block) "p" demoEffects
            ((splitHashes ++ [StreamItem.done 1 2 .stop]).map fun x => some (.ok x)) n).1 ++
          (guardedRun substringGuard (hashEngine .block) "p" demoEffects
            ((splitHashes ++ [StreamItem.done 1 2 .stop]).map fun x => some (.ok x)) n).2.queue =
            out ++ [.ok (.done tokens tokens' .contentFilter), .ok (.blocked "p" scanners')] ∧
        ∃ run ∈ textRuns [] splitHashes, StopsIn (hashPolicy .block) (hashScanners .block)
          (substringPatterns "ban_substrings" ["##"] .block) (segmentsFrom [] out).2 run :=
  stream_blocks_iff_run (hashEngine_config .block) rfl rfl (hashScanners_reports .block) (hashPatterns_short .block)
    (by decide) (i := 1) (j := 2) (r := .stop) (by decide) demoEffects

theorem split_hashes_not_blocked :
    ((hashEngine .block).screenOutput substringGuard "p" (splitHashes.map StreamItem.text).flatten).1.blockers ≠ [] ∧
      (∀ n scanners, Except.ok (.blocked "p" scanners) ∉
        yielded (guardedRun substringGuard (hashEngine .block) "p" demoEffects
          ((splitHashes ++ [StreamItem.done 1 2 .stop]).map fun x => some (.ok x)) n).1) ∧
      yielded (guardedRun substringGuard (hashEngine .block) "p" demoEffects
        ((splitHashes ++ [StreamItem.done 1 2 .stop]).map fun x => some (.ok x)) 5).1 =
          (splitHashes ++ [StreamItem.done 1 2 .stop]).map Except.ok := by
  have hs := screens_of_config (hashEngine_config .block) rfl rfl (hashScanners_reports .block)
    (hashPatterns_short .block)
  refine ⟨by decide, ?_, by decide⟩
  intro n scanners hb
  obtain ⟨_, _, _, _, _, run, hrun, hst⟩ := blocked_run hs
    (i := 1) (j := 2) (r := .stop) (show ∀ x ∈ splitHashes, x.isChunk = true by decide) (by decide) hb
  have hpass : ∀ run ∈ textRuns [] splitHashes,
      ((hashEngine .block).screenOutput substringGuard "p" run).1.blockers = [] := by decide
  exact (screenOutput_blocks hs run).mpr hst.blocks (hpass run hrun)

end SynapseGateway
