import SynapseGateway.Lib.Occurrence
import SynapseGateway.Lib.Rewrite

/-!
# Occurrences in a rewritten text

An occurrence in a rewritten text touches a replacement, or it is one of the
original text that no edit touches, moved to where the text around it lands.
-/

namespace Utf8

open String (utf8Len utf8Len_append)

variable {ι : Type}

/-- Where offset `n` of a text lands that starts at `k` and is rewritten to a
text that starts at `j`, if no edit is over it. -/
def landing : Nat → Nat → List Edit → Nat → Nat
  | k, j, [], n => j + (n - k)
  | k, j, e :: es, n =>
    if n < e.stop then j + (n - k) else landing e.stop (j + (e.start - k) + utf8Len e.text) es n

/-- The ranges of the replacements in the rewritten text. -/
def places : Nat → Nat → List Edit → List (Nat × Nat)
  | _, _, [] => []
  | k, j, e :: es => (j + (e.start - k), j + (e.start - k) + utf8Len e.text) ::
      places e.stop (j + (e.start - k) + utf8Len e.text) es

/-- No edit touches the range. -/
def Spared (es : List Edit) (start stop : Nat) : Prop := ∀ e ∈ es, stop ≤ e.start ∨ e.stop ≤ start

instance (es : List Edit) (start stop : Nat) : Decidable (Spared es start stop) :=
  inferInstanceAs (Decidable (∀ e ∈ es, stop ≤ e.start ∨ e.stop ≤ start))

/-- The range reaches into one of the others, or over it. -/
def Touches (ranges : List (Nat × Nat)) (start stop : Nat) : Prop := ∃ r ∈ ranges, start < r.2 ∧ r.1 < stop

instance (ranges : List (Nat × Nat)) (start stop : Nat) : Decidable (Touches ranges start stop) :=
  inferInstanceAs (Decidable (∃ r ∈ ranges, start < r.2 ∧ r.1 < stop))

/-- The occurrence with its start at offset `n`. -/
def Hit.movedTo (n : Nat) (h : Hit ι) : Hit ι := ⟨n, n + (h.stop - h.start), h.tag⟩

theorem Hit.movedTo_movedTo (n m : Nat) (h : Hit ι) : (h.movedTo n).movedTo m = h.movedTo m := by
  simp only [Hit.movedTo, Nat.add_sub_cancel_left]

theorem Hit.movedTo_start {n : Nat} {h : Hit ι} (hn : n = h.start) (hle : h.start ≤ h.stop) : h.movedTo n = h := by
  rw [hn, Hit.movedTo, Nat.add_sub_cancel' hle]

theorem hitsFrom_movedTo {pats : List (Pattern ι)} {t : Text} {k : Nat} {h : Hit ι} (hm : h ∈ hitsFrom pats k t)
    (j : Nat) : h.movedTo (j + (h.start - k)) ∈ hitsFrom pats j t := by
  obtain ⟨p, hp, a, b, rfl, rfl⟩ := mem_hitsFrom.mp hm
  refine mem_hitsFrom.mpr ⟨p, hp, a, b, rfl, ?_⟩
  simp only [Hit.movedTo]
  congr 1 <;> omega

theorem mem_hitsFrom_left {pats : List (Pattern ι)} {a : Text} (b : Text) {k : Nat} {h : Hit ι} :
    h ∈ hitsFrom pats k a ↔ h ∈ hitsFrom pats k (a ++ b) ∧ h.stop ≤ k + utf8Len a := by
  rw [← hitsFrom_append_left pats b a k, List.mem_filter, decide_eq_true_eq]

theorem mem_hitsFrom_right {pats : List (Pattern ι)} (a : Text) {b : Text} {k : Nat} {h : Hit ι} :
    h ∈ hitsFrom pats (k + utf8Len a) b ↔ h ∈ hitsFrom pats k (a ++ b) ∧ k + utf8Len a ≤ h.start := by
  rw [← hitsFrom_append_right pats b a k, List.mem_filter, decide_eq_true_eq]

theorem hitsFrom_start {pats : List (Pattern ι)} {k : Nat} {t : Text} {h : Hit ι} (hm : h ∈ hitsFrom pats k t) :
    k ≤ h.start ∧ h.start < h.stop :=
  ⟨(hitsFrom_bounds hm).1, (hitsFrom_bounds hm).2.1⟩

/-- The occurrences of a rewritten text. -/
theorem mem_hitsFrom_rewriteFrom {pats : List (Pattern ι)} {es : List Edit} {k j : Nat} {t : Text} (hf : Fits k t es)
    {h : Hit ι} : h ∈ hitsFrom pats j (rewriteFrom k t es) ↔
      (∃ o ∈ hitsFrom pats k t, Spared es o.start o.stop ∧ h = o.movedTo (landing k j es o.start)) ∨
        h ∈ hitsFrom pats j (rewriteFrom k t es) ∧ Touches (places k j es) h.start h.stop := by
  induction es generalizing k j t h with
  | nil =>
    constructor
    · intro hm
      left
      have hmoved := hitsFrom_movedTo hm k
      have hle := hitsFrom_start hm
      refine ⟨_, hmoved, (fun e he => by cases he), ?_⟩
      rw [Hit.movedTo_movedTo, landing]
      exact (Hit.movedTo_start (by simp only [Hit.movedTo]; omega) hle.2.le).symm
    · rintro (⟨o, ho, -, rfl⟩ | ⟨hm, -⟩)
      · exact hitsFrom_movedTo ho j
      · exact hm
  | cons e es ih =>
    obtain ⟨h1, h2, h3, h4, h5⟩ := hf
    have hlater := h5.le_start
    have hlen : utf8Len (takeBytes (e.start - k) t) = e.start - k := h3
    have hlen' : utf8Len (takeBytes (e.stop - k) t) = e.stop - k := h4
    -- the text before the edit, and the rewritten text after it
    have hbefore : ∀ o, o ∈ hitsFrom pats k (takeBytes (e.start - k) t) ↔ o ∈ hitsFrom pats k t ∧ o.stop ≤ e.start := by
      intro o
      have hmem := @mem_hitsFrom_left ι pats (takeBytes (e.start - k) t) (dropBytes (e.start - k) t) k o
      rw [takeBytes_append_dropBytes, hlen] at hmem
      rw [hmem, show k + (e.start - k) = e.start by omega]
    have hafter : ∀ o, o ∈ hitsFrom pats e.stop (dropBytes (e.stop - k) t) ↔ o ∈ hitsFrom pats k t ∧ e.stop ≤ o.start := by
      intro o
      have hmem := @mem_hitsFrom_right ι pats (takeBytes (e.stop - k) t) (dropBytes (e.stop - k) t) k o
      rw [takeBytes_append_dropBytes, hlen', show k + (e.stop - k) = e.stop by omega] at hmem
      exact hmem
    have hfront : ∀ o, o ∈ hitsFrom pats j (takeBytes (e.start - k) t) ↔
        o ∈ hitsFrom pats j (rewriteFrom k t (e :: es)) ∧ o.stop ≤ j + (e.start - k) := by
      intro o
      have hmem := @mem_hitsFrom_left ι pats (takeBytes (e.start - k) t)
        (e.text ++ rewriteFrom e.stop (dropBytes (e.stop - k) t) es) j o
      rw [hlen] at hmem
      exact hmem
    have hback : ∀ o, o ∈ hitsFrom pats (j + (e.start - k) + utf8Len e.text)
          (rewriteFrom e.stop (dropBytes (e.stop - k) t) es) ↔
        o ∈ hitsFrom pats j (rewriteFrom k t (e :: es)) ∧ j + (e.start - k) + utf8Len e.text ≤ o.start := by
      intro o
      have hmem := @mem_hitsFrom_right ι pats (takeBytes (e.start - k) t ++ e.text)
        (rewriteFrom e.stop (dropBytes (e.stop - k) t) es) j o
      rw [utf8Len_append, hlen, ← Nat.add_assoc, List.append_assoc] at hmem
      exact hmem
    have ih := fun h => @ih e.stop (j + (e.start - k) + utf8Len e.text) (dropBytes (e.stop - k) t) h5 h
    constructor
    · intro hm
      by_cases hl : h.stop ≤ j + (e.start - k)
      · left
        have hmoved := hitsFrom_movedTo ((hfront h).mpr ⟨hm, hl⟩) k
        obtain ⟨hmem, hstop⟩ := (hbefore _).mp hmoved
        have hle := hitsFrom_start hmoved
        have hle' := hitsFrom_start hm
        refine ⟨_, hmem, ?_, ?_⟩
        · intro x hx
          rcases List.mem_cons.mp hx with rfl | hx
          · exact .inl hstop
          · have := hlater x hx
            exact .inl (by omega)
        · rw [Hit.movedTo_movedTo, landing, if_pos (by omega)]
          exact (Hit.movedTo_start (by simp only [Hit.movedTo]; omega) hle'.2.le).symm
      · by_cases hr : j + (e.start - k) + utf8Len e.text ≤ h.start
        · rcases (ih h).mp ((hback h).mpr ⟨hm, hr⟩) with ⟨o, ho, hspared, rfl⟩ | ⟨-, htouch⟩
          · left
            obtain ⟨hmem, hstart⟩ := (hafter o).mp ho
            refine ⟨o, hmem, ?_, ?_⟩
            · intro x hx
              rcases List.mem_cons.mp hx with rfl | hx
              · exact .inr hstart
              · exact hspared x hx
            · rw [landing, if_neg (by omega)]
          · right
            obtain ⟨r, hr, htouch⟩ := htouch
            exact ⟨hm, r, List.mem_cons_of_mem _ hr, htouch⟩
        · right
          exact ⟨hm, _, List.mem_cons_self, by simp only; omega, by simp only; omega⟩
    · rintro (⟨o, ho, hspared, rfl⟩ | ⟨hm, -⟩)
      · rcases hspared e List.mem_cons_self with hstop | hstart
        · have hle := hitsFrom_start ho
          rw [landing, if_pos (by omega)]
          exact ((hfront _).mp (hitsFrom_movedTo ((hbefore o).mpr ⟨ho, hstop⟩) j)).1
        · rw [landing, if_neg (by omega)]
          refine ((hback _).mp ((ih _).mpr (.inl ⟨o, (hafter o).mpr ⟨ho, hstart⟩, ?_, rfl⟩))).1
          exact fun x hx => hspared x (List.mem_cons_of_mem e hx)
      · exact hm

end Utf8
