import Mathlib.Tactic.Linarith
import SynapseGateway.Lib.Outline
import SynapseGateway.Sse

/-!
# Decoding text piece by piece

Each piece of a response decoded on its own gives the ASCII characters of the
response; between them only characters beyond ASCII may have become others.
-/

namespace SynapseGateway

open Outline
open Utf8 (Text)

def asciiChar (c : Char) : Option Char := if c.toNat < 0x80 then some c else none

def asciiByte (b : UInt8) : Option Char := if b.toNat < 0x80 then some (Char.ofNat b.toNat) else none

def IsAscii (t : Text) : Prop := ∀ c ∈ t, asciiChar c = some c

instance (t : Text) : Decidable (IsAscii t) :=
  decidable_of_iff (t.all fun c => asciiChar c == some c) (by simp [IsAscii])

theorem asciiChar_some {c d : Char} (h : asciiChar c = some d) : c = d := by
  unfold asciiChar at h
  by_cases hc : c.toNat < 0x80
  · rw [if_pos hc] at h
    exact Option.some.inj h
  · rw [if_neg hc] at h
    cases h

theorem toNat_ofNat_of_lt {n : Nat} (h : n < 0xd800) : (Char.ofNat n).toNat = n := by
  have hv : n.isValidChar := Or.inl h
  rw [Char.ofNat, dif_pos hv]
  rfl

theorem asciiChar_ofNat {n : Nat} (h : 0x80 ≤ n) (hv : n.isValidChar) : asciiChar (Char.ofNat n) = none := by
  have hn : (Char.ofNat n).toNat = n := by
    rw [Char.ofNat, dif_pos hv]
    rfl
  rw [asciiChar, hn, if_neg (by omega)]

/-! ## A character that is being read -/

/-- Every completion of the character is a character beyond ASCII. -/
structure Pending.Sound (p : Pending) : Prop where
  lo : 0x80 ≤ p.lo
  hi : p.hi ≤ 0xbf
  need : p.need = 1 ∨ p.need = 2 ∨ p.need = 3
  span : ∀ n, p.code * 64 ^ p.need + (p.lo - 0x80) * 64 ^ (p.need - 1) ≤ n →
    n < p.code * 64 ^ p.need + (p.hi - 0x7f) * 64 ^ (p.need - 1) → 0x80 ≤ n ∧ n.isValidChar

theorem lossyLead_ascii {b : Nat} (h : b < 0x80) : lossyLead b = ([Char.ofNat b], none) := by
  rw [lossyLead, if_pos h]

def Opens (r : Text × Option Pending) : Prop := r = (['\ufffd'], none) ∨ ∃ p : Pending, r = ([], some p) ∧ p.Sound

theorem opens_ite {c : Prop} [Decidable c] {p : Pending} {r : Text × Option Pending} (hp : c → p.Sound)
    (hr : ¬ c → Opens r) : Opens (if c then ([], some p) else r) := by
  by_cases hc : c
  · rw [if_pos hc]
    exact .inr ⟨p, rfl, hp hc⟩
  · rw [if_neg hc]
    exact hr hc

theorem lossyLead_high {b : Nat} (h : 0x80 ≤ b) : Opens (lossyLead b) := by
  unfold lossyLead
  rw [if_neg (by omega)]
  refine opens_ite ?_ fun _ => opens_ite ?_ fun _ => opens_ite ?_ fun _ => opens_ite ?_ fun _ => opens_ite ?_ fun _ =>
    opens_ite ?_ fun _ => opens_ite ?_ fun _ => .inl rfl
  all_goals
    intro hb
    refine ⟨by simp, by simp, by simp, ?_⟩
    intro n hlo hhi
    simp only [Nat.isValidChar] at hlo hhi ⊢
    omega

/-- A byte in range completes the character or leaves one to complete. -/
theorem Pending.Sound.next {p : Pending} (h : p.Sound) {b : Nat} (hlo : p.lo ≤ b) (hhi : b ≤ p.hi) :
    (p.need = 1 → asciiChar (Char.ofNat (p.code * 64 + b % 64)) = none) ∧
      (1 < p.need → Pending.Sound ⟨p.need - 1, p.code * 64 + b % 64, 0x80, 0xbf⟩) := by
  obtain ⟨need, code, lo, hi⟩ := p
  obtain ⟨hl, hh, hneed, hspan⟩ := h
  simp only at hl hh hneed hspan hlo hhi ⊢
  constructor
  · rintro rfl
    have hn := hspan (code * 64 + b % 64) (by omega) (by omega)
    exact asciiChar_ofNat hn.1 hn.2
  · intro hlt
    refine ⟨by simp, by simp, by simp only; omega, ?_⟩
    intro n hnlo hnhi
    have hl' : lo - 0x80 ≤ b % 64 := by omega
    have hh' : b % 64 + 1 ≤ hi - 0x7f := by omega
    generalize lo - 0x80 = l at hspan hl'
    generalize hi - 0x7f = u at hspan hh'
    generalize b % 64 = d at *
    obtain rfl | rfl | rfl := hneed
    · omega
    all_goals
      simp only [Nat.reduceSub, Nat.reducePow] at hspan hnlo hnhi
      apply hspan n <;> linarith

theorem asciiByte_none {b : UInt8} (h : 0x80 ≤ b.toNat) : asciiByte b = none := by
  rw [asciiByte, if_neg (by omega)]

theorem asciiByte_some {b : UInt8} (h : b.toNat < 0x80) : asciiByte b = some (Char.ofNat b.toNat) := by
  rw [asciiByte, if_pos h]

theorem asciiChar_ascii {n : Nat} (h : n < 0x80) : asciiChar (Char.ofNat n) = some (Char.ofNat n) := by
  rw [asciiChar, toNat_ofNat_of_lt (by omega), if_pos h]

theorem asciiChar_replacement : asciiChar '\ufffd' = none := by decide

theorem outline_gap {c : Char} (h : asciiChar c = none) (t : Text) :
    outline asciiChar (c :: t) = push none (outline asciiChar t) := by
  rw [outline, h]

/-- A character that is being read is a gap: whether it is completed or breaks off,
it becomes one. -/
theorem outline_lossyFrom (bytes : Bytes) :
    outline asciiChar (lossyFrom none bytes) = outline asciiByte bytes ∧
      ∀ p : Pending, p.Sound →
        outline asciiChar (lossyFrom (some p) bytes) = push none (outline asciiByte bytes) := by
  induction bytes with
  | nil => exact ⟨rfl, fun _ _ => outline_gap asciiChar_replacement []⟩
  | cons b bytes ih =>
    have hnone : outline asciiChar (lossyFrom none (b :: bytes)) = outline asciiByte (b :: bytes) := by
      rw [lossyFrom, lossyStep, outline]
      by_cases hb : b.toNat < 0x80
      · rw [lossyLead_ascii hb, asciiByte_some hb]
        show outline asciiChar (Char.ofNat b.toNat :: lossyFrom none bytes) = _
        rw [outline, asciiChar_ascii hb, ih.1]
      · rw [asciiByte_none (by omega)]
        rcases lossyLead_high (show 0x80 ≤ b.toNat by omega) with h | ⟨p, h, hp⟩
        · rw [h]
          show outline asciiChar ('\ufffd' :: lossyFrom none bytes) = _
          rw [outline_gap asciiChar_replacement, ih.1]
        · rw [h]
          exact ih.2 p hp
    refine ⟨hnone, ?_⟩
    intro p hp
    rw [lossyFrom, lossyStep]
    by_cases hb : p.lo ≤ b.toNat ∧ b.toNat ≤ p.hi
    · have hhigh : asciiByte b = none := asciiByte_none (by have := hp.lo; omega)
      obtain ⟨hdone, hmore⟩ := hp.next hb.1 hb.2
      rw [if_pos hb, outline, hhigh, push_none_push_none]
      have hneed := hp.need
      by_cases hn : p.need ≤ 1
      · simp only
        rw [if_pos hn]
        show outline asciiChar (Char.ofNat _ :: lossyFrom none bytes) = _
        rw [outline_gap (hdone (by omega)), ih.1]
      · simp only
        rw [if_neg hn]
        exact ih.2 _ (hmore (by omega))
    · rw [if_neg hb]
      show outline asciiChar ('\ufffd' :: lossyFrom none (b :: bytes)) = _
      rw [outline_gap asciiChar_replacement, hnone]

theorem outline_fromUtf8Lossy (bytes : Bytes) : outline asciiChar (fromUtf8Lossy bytes) = outline asciiByte bytes :=
  (outline_lossyFrom bytes).1

/-! ## The bytes of a text -/

theorem outline_gaps {b : UInt8} {bytes rest : Bytes} (h : ∀ a ∈ b :: bytes, 0x80 ≤ a.toNat) :
    outline asciiByte (b :: bytes ++ rest) = push none (outline asciiByte rest) := by
  induction bytes generalizing b with
  | nil => rw [List.cons_append, outline, asciiByte_none (h b List.mem_cons_self)]; rfl
  | cons a bytes ih =>
    rw [List.cons_append, outline, asciiByte_none (h b List.mem_cons_self),
      ih fun x hx => h x (List.mem_cons_of_mem b hx), push_none_push_none]

theorem toNat_ofNat_byte {n : Nat} (h : n < 256) : (UInt8.ofNat n).toNat = n := by
  rw [UInt8.toNat_ofNat']
  exact Nat.mod_eq_of_lt h

theorem utf8EncodeChar_high {c : Char} (h : asciiChar c = none) : ∀ b ∈ String.utf8EncodeChar c, 0x80 ≤ b.toNat := by
  have hc : 0x80 ≤ c.val.toNat := by
    by_contra hlt
    rw [asciiChar, if_pos (show c.toNat < 0x80 by rw [Char.toNat]; omega)] at h
    cases h
  intro b hb
  unfold String.utf8EncodeChar at hb
  simp only at hb
  rw [if_neg (by omega)] at hb
  by_cases h2 : c.val.toNat ≤ 0x7ff
  · rw [if_pos h2] at hb
    simp only [List.mem_cons, List.not_mem_nil, or_false] at hb
    obtain rfl | rfl := hb <;> rw [toNat_ofNat_byte (by omega)] <;> omega
  rw [if_neg h2] at hb
  by_cases h3 : c.val.toNat ≤ 0xffff
  · rw [if_pos h3] at hb
    simp only [List.mem_cons, List.not_mem_nil, or_false] at hb
    obtain rfl | rfl | rfl := hb <;> rw [toNat_ofNat_byte (by omega)] <;> omega
  · rw [if_neg h3] at hb
    simp only [List.mem_cons, List.not_mem_nil, or_false] at hb
    obtain rfl | rfl | rfl | rfl := hb <;> rw [toNat_ofNat_byte (by omega)] <;> omega

theorem utf8EncodeChar_ascii {c : Char} (h : c.toNat < 0x80) : String.utf8EncodeChar c = [UInt8.ofNat c.toNat] := by
  unfold String.utf8EncodeChar
  simp only
  rw [if_pos (by rw [Char.toNat] at h; omega)]
  rfl

theorem outline_utf8Bytes (t : Text) : outline asciiByte (utf8Bytes t) = outline asciiChar t := by
  induction t with
  | nil => rfl
  | cons c t ih =>
    rw [utf8Bytes, List.flatMap_cons, ← utf8Bytes, outline]
    by_cases hc : c.toNat < 0x80
    · have hb : (UInt8.ofNat c.toNat).toNat = c.toNat := toNat_ofNat_byte (by omega)
      rw [utf8EncodeChar_ascii hc, List.cons_append, outline, List.nil_append, ih, asciiByte_some (by omega), hb,
        asciiChar, if_pos hc, Char.ofNat_toNat]
    · have hn : asciiChar c = none := by rw [asciiChar, if_neg hc]
      have hbs := utf8EncodeChar_high hn
      rw [hn]
      cases he : String.utf8EncodeChar c with
      | nil => exact absurd he String.utf8EncodeChar_ne_nil
      | cons b bytes =>
        rw [he] at hbs
        rw [outline_gaps hbs, ih]

/-- However a text comes in pieces, the pieces decoded one by one have its outline. -/
theorem outline_pieces {pieces : List Bytes} {t : Text} (h : pieces.flatten = utf8Bytes t) :
    outline asciiChar (pieces.map fromUtf8Lossy).flatten = outline asciiChar t := by
  rw [← outline_utf8Bytes t, ← h]
  apply outline_flatten
  clear h
  induction pieces with
  | nil => exact .nil
  | cons p pieces ih => exact .cons (outline_fromUtf8Lossy p) ih

end SynapseGateway
