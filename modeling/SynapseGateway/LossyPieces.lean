import SynapseGateway.SseSound

/-!
# Text decoded in pieces

A text that comes in pieces of bytes, each decoded on its own, keeps every character
that a piece holds whole. One that is cut between pieces becomes replacement
characters, one or more.
-/

namespace SynapseGateway

open Utf8 (Text)

/-- Characters beyond ASCII of a text, each replaced by one `U+FFFD` or more, or kept. -/
inductive Replaced : Text → Text → Prop where
  | nil : Replaced [] []
  | keep (c : Char) {t m : Text} (h : Replaced t m) : Replaced (c :: t) (c :: m)
  | replace {c : Char} (hc : asciiChar c = none) (n : Nat) {t m : Text} (h : Replaced t m) :
      Replaced (c :: t) (List.replicate (n + 1) '\ufffd' ++ m)

namespace Replaced

theorem split {a b m : Text} (h : Replaced (a ++ b) m) :
    ∃ a' b', m = a' ++ b' ∧ Replaced a a' ∧ Replaced b b' := by
  induction a generalizing m with
  | nil => exact ⟨[], m, rfl, .nil, h⟩
  | cons c a ih =>
    rw [List.cons_append] at h
    cases h with
    | keep _ h =>
      obtain ⟨a', b', rfl, ha, hb⟩ := ih h
      exact ⟨c :: a', b', rfl, .keep c ha, hb⟩
    | replace hc n h =>
      obtain ⟨a', b', rfl, ha, hb⟩ := ih h
      exact ⟨List.replicate (n + 1) '\ufffd' ++ a', b', (List.append_assoc _ _ _).symm, .replace hc n ha, hb⟩

theorem eq_of_ascii {p m : Text} (hp : IsAscii p) (h : Replaced p m) : m = p := by
  induction h with
  | nil => rfl
  | keep c h ih => rw [ih fun x hx => hp x (List.mem_cons_of_mem c hx)]
  | replace hc n h ih =>
    have hascii := hp _ List.mem_cons_self
    rw [hc] at hascii
    cases hascii

theorem of_ascii_prefix {p l r : Text} (hp : IsAscii p) (h : Replaced l (p ++ r)) :
    ∃ r', l = p ++ r' ∧ Replaced r' r := by
  induction p generalizing l with
  | nil => exact ⟨l, rfl, h⟩
  | cons c p ih =>
    generalize hm : c :: p ++ r = m at h
    cases h with
    | nil => cases hm
    | keep d h =>
      obtain ⟨rfl, rfl⟩ := List.cons.inj hm
      obtain ⟨r', rfl, hr⟩ := ih (fun x hx => hp x (List.mem_cons_of_mem c hx)) h
      exact ⟨r', rfl, hr⟩
    | replace hd n h =>
      obtain ⟨rfl, -⟩ := List.cons.inj hm
      exact absurd (hp _ List.mem_cons_self) (by decide)

theorem mem {c : Char} {l m : Text} (h : Replaced l m) (hc : c ∈ m) : c ∈ l ∨ c = '\ufffd' := by
  induction h with
  | nil => cases hc
  | keep d h ih =>
    obtain rfl | hc := List.mem_cons.mp hc
    · exact .inl List.mem_cons_self
    · exact (ih hc).imp_left (List.mem_cons_of_mem d)
  | replace hd n h ih =>
    rcases List.mem_append.mp hc with hc | hc
    · exact .inr (List.eq_of_mem_replicate hc)
    · exact (ih hc).imp_left (List.mem_cons_of_mem _)

end Replaced

/-! ## A character and its bytes -/

/-- These bytes complete the character. -/
inductive Pending.Completes : Pending → Bytes → Char → Prop where
  | last {p : Pending} {b : UInt8} (hb : p.lo ≤ b.toNat ∧ b.toNat ≤ p.hi) (hn : p.need ≤ 1) :
      Completes p [b] (Char.ofNat (p.code * 64 + b.toNat % 64))
  | more {p : Pending} {b : UInt8} {bytes : Bytes} {c : Char} (hb : p.lo ≤ b.toNat ∧ b.toNat ≤ p.hi)
      (hn : ¬ p.need ≤ 1) (h : Completes ⟨p.need - 1, p.code * 64 + b.toNat % 64, 0x80, 0xbf⟩ bytes c) :
      Completes p (b :: bytes) c

theorem Pending.Completes.decode {p : Pending} {bytes : Bytes} {c : Char} (h : p.Completes bytes c) (rest : Bytes) :
    lossyFrom (some p) (bytes ++ rest) = c :: lossyFrom none rest := by
  induction h with
  | last hb hn =>
    rw [List.cons_append, lossyFrom, lossyStep, if_pos hb]
    simp only
    rw [if_pos hn]
    rfl
  | more hb hn h ih =>
    rw [List.cons_append, lossyFrom, lossyStep, if_pos hb]
    simp only
    rw [if_neg hn]
    exact ih

theorem Pending.Completes.cut {p : Pending} {bytes : Bytes} {c : Char} (h : p.Completes bytes c) {pre post : Bytes}
    (hsplit : bytes = pre ++ post) (hpost : post ≠ []) : lossyFrom (some p) pre = ['\ufffd'] := by
  induction h generalizing pre with
  | last hb hn =>
    cases pre with
    | nil => rfl
    | cons a pre =>
      obtain ⟨rfl, htail⟩ := List.cons.inj hsplit
      exact absurd (List.append_eq_nil_iff.mp htail.symm).2 hpost
  | more hb hn h ih =>
    cases pre with
    | nil => rfl
    | cons a pre =>
      obtain ⟨rfl, htail⟩ := List.cons.inj hsplit
      rw [lossyFrom, lossyStep, if_pos hb]
      simp only
      rw [if_neg hn]
      exact ih htail

def IsContinuation (b : UInt8) : Prop := 0x80 ≤ b.toNat ∧ b.toNat ≤ 0xbf

theorem lossyFrom_continuation {b : UInt8} (h : IsContinuation b) (bytes : Bytes) :
    lossyFrom none (b :: bytes) = '\ufffd' :: lossyFrom none bytes := by
  obtain ⟨hlo, hhi⟩ := h
  rw [lossyFrom, lossyStep, lossyLead, if_neg (by omega), if_neg (by omega), if_neg (by omega), if_neg (by omega),
    if_neg (by omega), if_neg (by omega), if_neg (by omega), if_neg (by omega)]
  rfl

/-- What the bytes of a character beyond ASCII are: one that opens it, and those that
complete it. -/
structure Encodes (c : Char) (b : UInt8) (p : Pending) (bytes : Bytes) : Prop where
  eq : String.utf8EncodeChar c = b :: bytes
  opens : lossyLead b.toNat = ([], some p)
  completes : p.Completes bytes c
  continues : ∀ a ∈ bytes, IsContinuation a

theorem completes_two {c : Char} {n : Nat} {p : Pending} (hneed : p.need = 1) (hlo : p.lo = 0x80) (hhi : p.hi = 0xbf)
    (hcode : p.code * 64 + n % 64 = c.toNat) : p.Completes [UInt8.ofNat (n % 64 + 0x80)] c := by
  have hb : (UInt8.ofNat (n % 64 + 0x80)).toNat = n % 64 + 0x80 := toNat_ofNat_byte (by omega)
  have hc : c = Char.ofNat (p.code * 64 + (UInt8.ofNat (n % 64 + 0x80)).toNat % 64) := by
    rw [hb, show (n % 64 + 0x80) % 64 = n % 64 by omega, hcode, Char.ofNat_toNat]
  rw [hc]
  exact .last (by omega) (by omega)

theorem completes_more {c : Char} {n : Nat} {p : Pending} {bytes : Bytes} (hneed : ¬ p.need ≤ 1)
    (hlo : p.lo ≤ n % 64 + 0x80) (hhi : n % 64 + 0x80 ≤ p.hi)
    (h : Pending.Completes ⟨p.need - 1, p.code * 64 + n % 64, 0x80, 0xbf⟩ bytes c) :
    p.Completes (UInt8.ofNat (n % 64 + 0x80) :: bytes) c := by
  have hb : (UInt8.ofNat (n % 64 + 0x80)).toNat = n % 64 + 0x80 := toNat_ofNat_byte (by omega)
  refine .more (by omega) hneed ?_
  rw [hb, show (n % 64 + 0x80) % 64 = n % 64 by omega]
  exact h

theorem isContinuation_ofNat (n : Nat) : IsContinuation (UInt8.ofNat (n % 64 + 0x80)) := by
  unfold IsContinuation
  rw [toNat_ofNat_byte (by omega)]
  omega

theorem lossyLead_two {b : Nat} (hlo : 0xc2 ≤ b) (hhi : b ≤ 0xdf) :
    lossyLead b = ([], some ⟨1, b % 32, 0x80, 0xbf⟩) := by
  rw [lossyLead, if_neg (by omega), if_pos ⟨hlo, hhi⟩]

theorem lossyLead_three {b : Nat} (hlo : 0xe0 ≤ b) (hhi : b ≤ 0xef) :
    ∃ lo hi, lossyLead b = ([], some ⟨2, b % 16, lo, hi⟩) ∧ lo = (if b = 0xe0 then 0xa0 else 0x80) ∧
      hi = (if b = 0xed then 0x9f else 0xbf) := by
  rw [lossyLead, if_neg (by omega), if_neg (by omega)]
  by_cases h0 : b = 0xe0
  · subst h0
    exact ⟨_, _, rfl, rfl, rfl⟩
  rw [if_neg h0]
  by_cases hd : b = 0xed
  · subst hd
    exact ⟨_, _, rfl, rfl, rfl⟩
  rw [if_neg hd, if_pos (by omega)]
  exact ⟨_, _, rfl, (if_neg h0).symm, (if_neg hd).symm⟩

theorem lossyLead_four {b : Nat} (hlo : 0xf0 ≤ b) (hhi : b ≤ 0xf4) :
    ∃ lo hi, lossyLead b = ([], some ⟨3, b % 8, lo, hi⟩) ∧ lo = (if b = 0xf0 then 0x90 else 0x80) ∧
      hi = (if b = 0xf4 then 0x8f else 0xbf) := by
  rw [lossyLead, if_neg (by omega), if_neg (by omega), if_neg (by omega), if_neg (by omega), if_neg (by omega)]
  by_cases h0 : b = 0xf0
  · subst h0
    exact ⟨_, _, rfl, rfl, rfl⟩
  rw [if_neg h0]
  by_cases h4 : b = 0xf4
  · subst h4
    exact ⟨_, _, rfl, rfl, rfl⟩
  rw [if_pos (by omega)]
  exact ⟨_, _, rfl, (if_neg h0).symm, (if_neg h4).symm⟩

theorem encodes_two {c : Char} {n : Nat} (hn : c.toNat = n)
    (henc : String.utf8EncodeChar c = [UInt8.ofNat (n / 64 % 32 + 0xc0), UInt8.ofNat (n % 64 + 0x80)])
    (hlow : 0x80 ≤ n) (hhigh : n ≤ 0x7ff) : ∃ b p bytes, Encodes c b p bytes := by
  have hb : (UInt8.ofNat (n / 64 % 32 + 0xc0)).toNat = n / 64 % 32 + 0xc0 := toNat_ofNat_byte (by omega)
  have hlead := lossyLead_two (b := n / 64 % 32 + 0xc0) (by omega) (by omega)
  refine ⟨_, _, _, henc, by rw [hb]; exact hlead, ?_, ?_⟩
  · apply completes_two rfl rfl rfl
    rw [hn]
    simp only
    omega
  · exact List.forall_mem_singleton.mpr (isContinuation_ofNat n)

theorem encodes_three {c : Char} {n : Nat} (hn : c.toNat = n)
    (henc : String.utf8EncodeChar c =
      [UInt8.ofNat (n / 4096 % 16 + 0xe0), UInt8.ofNat (n / 64 % 64 + 0x80), UInt8.ofNat (n % 64 + 0x80)])
    (hlow : 0x7ff < n) (hhigh : n ≤ 0xffff) (hvalid : n < 0xd800 ∨ 0xdfff < n) :
    ∃ b p bytes, Encodes c b p bytes := by
  have hb : (UInt8.ofNat (n / 4096 % 16 + 0xe0)).toNat = n / 4096 % 16 + 0xe0 := toNat_ofNat_byte (by omega)
  obtain ⟨lo, hi, hlead, hlo, hhi⟩ := lossyLead_three (b := n / 4096 % 16 + 0xe0) (by omega) (by omega)
  refine ⟨_, _, _, henc, by rw [hb]; exact hlead, ?_, ?_⟩
  · refine completes_more (by simp) ?_ ?_ (completes_two rfl rfl rfl ?_)
    · simp only [hlo]
      split <;> omega
    · simp only [hhi]
      split <;> omega
    · rw [hn]
      simp only
      omega
  · simp only [List.forall_mem_cons, isContinuation_ofNat, true_and]
    simp

theorem encodes_four {c : Char} {n : Nat} (hn : c.toNat = n)
    (henc : String.utf8EncodeChar c =
      [UInt8.ofNat (n / 262144 % 8 + 0xf0), UInt8.ofNat (n / 4096 % 64 + 0x80), UInt8.ofNat (n / 64 % 64 + 0x80),
        UInt8.ofNat (n % 64 + 0x80)])
    (hlow : 0xffff < n) (hhigh : n < 0x110000) : ∃ b p bytes, Encodes c b p bytes := by
  have hb : (UInt8.ofNat (n / 262144 % 8 + 0xf0)).toNat = n / 262144 % 8 + 0xf0 := toNat_ofNat_byte (by omega)
  obtain ⟨lo, hi, hlead, hlo, hhi⟩ := lossyLead_four (b := n / 262144 % 8 + 0xf0) (by omega) (by omega)
  refine ⟨_, _, _, henc, by rw [hb]; exact hlead, ?_, ?_⟩
  · refine completes_more (by simp) ?_ ?_ (completes_more (by simp) ?_ ?_ (completes_two rfl rfl rfl ?_))
    · simp only [hlo]
      split <;> omega
    · simp only [hhi]
      split <;> omega
    · simp only
      omega
    · simp only
      omega
    · rw [hn]
      simp only
      omega
  · simp only [List.forall_mem_cons, isContinuation_ofNat, true_and]
    simp

theorem exists_encodes {c : Char} (h : asciiChar c = none) : ∃ b p bytes, Encodes c b p bytes := by
  have hlow : 0x80 ≤ c.toNat := by
    by_contra hlt
    rw [asciiChar, if_pos (by omega)] at h
    cases h
  have hvalid : c.toNat < 0xd800 ∨ (0xdfff < c.toNat ∧ c.toNat < 0x110000) := c.valid
  obtain ⟨encoded, heq⟩ : ∃ encoded, String.utf8EncodeChar c = encoded := ⟨_, rfl⟩
  have henc := heq
  unfold String.utf8EncodeChar at henc
  simp only [show c.val.toNat = c.toNat from rfl] at henc
  rw [if_neg (by omega)] at henc
  by_cases h2 : c.toNat ≤ 0x7ff
  · rw [if_pos h2] at henc
    exact encodes_two rfl (heq.trans henc.symm) hlow h2
  rw [if_neg h2] at henc
  by_cases h3 : c.toNat ≤ 0xffff
  · rw [if_pos h3] at henc
    exact encodes_three rfl (heq.trans henc.symm) (by omega) h3 (by omega)
  · rw [if_neg h3] at henc
    exact encodes_four rfl (heq.trans henc.symm) (by omega) (by omega)

theorem lossyFrom_encoded (c : Char) (rest : Bytes) :
    lossyFrom none (String.utf8EncodeChar c ++ rest) = c :: lossyFrom none rest := by
  by_cases hc : c.toNat < 0x80
  · have hb : (UInt8.ofNat c.toNat).toNat = c.toNat := toNat_ofNat_byte (by omega)
    rw [utf8EncodeChar_ascii hc, List.cons_append, lossyFrom, lossyStep, hb, lossyLead_ascii hc, Char.ofNat_toNat]
    rfl
  · obtain ⟨b, p, bytes, henc⟩ := exists_encodes (show asciiChar c = none by rw [asciiChar, if_neg hc])
    rw [henc.eq, List.cons_append, lossyFrom, lossyStep, henc.opens]
    exact henc.completes.decode rest

theorem fromUtf8Lossy_utf8Bytes (t : Text) : fromUtf8Lossy (utf8Bytes t) = t := by
  induction t with
  | nil => rfl
  | cons c t ih =>
    rw [utf8Bytes, List.flatMap_cons, fromUtf8Lossy, lossyFrom_encoded]
    exact congrArg (c :: ·) ih

/-- A character that a piece ends in leaves one replacement and the bytes that continue it. -/
theorem decode_cut {c : Char} {pre post : Bytes} (h : String.utf8EncodeChar c = pre ++ post) (hpre : pre ≠ [])
    (hpost : post ≠ []) :
    asciiChar c = none ∧ fromUtf8Lossy pre = ['\ufffd'] ∧ ∀ b ∈ post, IsContinuation b := by
  obtain ⟨a, pre, rfl⟩ := List.exists_cons_of_ne_nil hpre
  by_cases hc : c.toNat < 0x80
  · rw [utf8EncodeChar_ascii hc] at h
    obtain ⟨-, htail⟩ := List.cons.inj h
    exact absurd (List.append_eq_nil_iff.mp htail.symm).2 hpost
  · have hnone : asciiChar c = none := by rw [asciiChar, if_neg hc]
    obtain ⟨b, p, bytes, henc⟩ := exists_encodes hnone
    obtain ⟨rfl, hbytes⟩ := List.cons.inj (henc.eq.symm.trans h)
    refine ⟨hnone, ?_, ?_⟩
    · rw [fromUtf8Lossy, lossyFrom, lossyStep, henc.opens]
      exact henc.completes.cut hbytes hpost
    · intro x hx
      exact henc.continues x (by rw [hbytes]; exact List.mem_append_right pre hx)

/-! ## Pieces -/

/-- One piece, with the bytes at its start that belong to a character cut before it, and
those after it that belong to the character it cuts. -/
theorem replaced_piece {p r cont : Bytes} {t : Text} (hcont : ∀ b ∈ cont, IsContinuation b)
    (h : p ++ r = cont ++ utf8Bytes t) :
    ∃ cont' rest, r = cont' ++ utf8Bytes rest ∧ (∀ b ∈ cont', IsContinuation b) ∧
      ∀ m, Replaced rest m → ∃ m', Replaced t m' ∧
        fromUtf8Lossy p ++ (List.replicate cont'.length '\ufffd' ++ m) = List.replicate cont.length '\ufffd' ++ m' := by
  induction cont generalizing p with
  | cons b cont ih =>
    cases p with
    | nil => exact ⟨b :: cont, t, h, hcont, fun m hm => ⟨m, hm, rfl⟩⟩
    | cons a p =>
      obtain ⟨rfl, htail⟩ := List.cons.inj h
      obtain ⟨cont', rest, hr, hcont', hm⟩ := ih (fun x hx => hcont x (List.mem_cons_of_mem a hx)) htail
      refine ⟨cont', rest, hr, hcont', ?_⟩
      intro m hrest
      obtain ⟨m', hm', he⟩ := hm m hrest
      refine ⟨m', hm', ?_⟩
      rw [fromUtf8Lossy, lossyFrom_continuation (hcont a List.mem_cons_self), List.cons_append, List.length_cons,
        List.replicate_succ, List.cons_append]
      exact congrArg ('\ufffd' :: ·) he
  | nil =>
    induction t generalizing p with
    | nil =>
      obtain ⟨rfl, rfl⟩ := List.append_eq_nil_iff.mp h
      exact ⟨[], [], rfl, hcont, fun m hm => ⟨m, hm, rfl⟩⟩
    | cons c t ih =>
      have hcons : p ++ r = String.utf8EncodeChar c ++ utf8Bytes t := h
      obtain ⟨p', rfl, hrest⟩ | ⟨q, henc, rfl⟩ := List.append_eq_append_iff.mp hcons.symm
      · -- the piece holds the character whole
        obtain ⟨cont', rest, hr, hcont', hm⟩ := ih hrest.symm
        refine ⟨cont', rest, hr, hcont', ?_⟩
        intro m hreplaced
        obtain ⟨m', hm', he⟩ := hm m hreplaced
        refine ⟨c :: m', .keep c hm', ?_⟩
        rw [fromUtf8Lossy, lossyFrom_encoded]
        exact congrArg (c :: ·) he
      · by_cases hp : p = []
        · subst hp
          exact ⟨[], c :: t, hcons, hcont, fun m hm => ⟨m, hm, rfl⟩⟩
        by_cases hq : q = []
        · subst hq
          have hwhole := lossyFrom_encoded c []
          rw [henc, List.append_nil, List.append_nil] at hwhole
          refine ⟨[], t, rfl, hcont, fun m hm => ⟨c :: m, .keep c hm, ?_⟩⟩
          rw [fromUtf8Lossy, hwhole]
          rfl
        · obtain ⟨hc, hcut, hcontinues⟩ := decode_cut henc hp hq
          refine ⟨q, t, rfl, hcontinues, fun m hm => ⟨_, .replace hc q.length hm, ?_⟩⟩
          rw [hcut]
          rfl

/-- However a text comes in pieces, the pieces decoded one by one are the text, up to the
characters they cut. -/
theorem replaced_pieces {pieces : List Bytes} {t : Text} (h : pieces.flatten = utf8Bytes t) :
    Replaced t (pieces.map fromUtf8Lossy).flatten := by
  suffices hgen : ∀ cont : Bytes, (∀ b ∈ cont, IsContinuation b) → pieces.flatten = cont ++ utf8Bytes t →
      ∃ m, (pieces.map fromUtf8Lossy).flatten = List.replicate cont.length '\ufffd' ++ m ∧ Replaced t m by
    obtain ⟨m, hm, ht⟩ := hgen [] (by simp) h
    rw [hm]
    exact ht
  clear h
  induction pieces generalizing t with
  | nil =>
    intro cont _ h
    obtain ⟨rfl, ht⟩ := List.append_eq_nil_iff.mp h.symm
    cases t with
    | nil => exact ⟨[], rfl, .nil⟩
    | cons c t => exact absurd (List.append_eq_nil_iff.mp ht).1 String.utf8EncodeChar_ne_nil
  | cons p pieces ih =>
    intro cont hcont h
    obtain ⟨cont', rest, hr, hcont', hpiece⟩ := replaced_piece hcont h
    obtain ⟨m, hm, hrest⟩ := ih cont' hcont' hr
    obtain ⟨m', hm', he⟩ := hpiece m hrest
    exact ⟨m', by rw [List.map_cons, List.flatten_cons, hm, he], hm'⟩

end SynapseGateway
