import SynapseGateway.Lib.Framing
import SynapseGateway.Lib.Utf8

/-!
# Server-sent events

Event boundaries in a byte buffer, and the text of an event as lines.
-/

namespace SynapseGateway

open Utf8 (Text)

abbrev Bytes := List UInt8

/-! ## Boundaries -/

def position (w : Bytes) : Bytes → Option Nat
  | [] => none
  | b :: buf => if w.isPrefixOf (b :: buf) then some 0 else (position w buf).map (· + 1)

def lf : Bytes := [10, 10]

def crlf : Bytes := [13, 10, 13, 10]

def nextSseBoundary (buf : Bytes) : Option (Nat × Nat) :=
  match position lf buf, position crlf buf with
  | some a, some b => some (if a ≤ b then (a, 2) else (b, 4))
  | some a, none => some (a, 2)
  | none, some b => some (b, 4)
  | none, none => none

theorem position_some {w : Bytes} {buf : Bytes} {i : Nat} (h : position w buf = some i) :
    ∃ a c, buf = a ++ w ++ c ∧ a.length = i := by
  induction buf generalizing i with
  | nil => cases h
  | cons b buf ih =>
    rw [position] at h
    by_cases hw : w.isPrefixOf (b :: buf) = true
    · rw [if_pos hw] at h
      cases h
      obtain ⟨c, hc⟩ := List.isPrefixOf_iff_prefix.mp hw
      exact ⟨[], c, hc.symm, rfl⟩
    · rw [if_neg hw] at h
      obtain ⟨j, hj, rfl⟩ := Option.map_eq_some_iff.mp h
      obtain ⟨a, c, rfl, rfl⟩ := ih hj
      exact ⟨b :: a, c, rfl, rfl⟩

theorem position_append {w : Bytes} (x : Bytes) {buf : Bytes} {i : Nat} (h : position w buf = some i) :
    position w (buf ++ x) = some i := by
  induction buf generalizing i with
  | nil => cases h
  | cons b buf ih =>
    rw [position] at h
    rw [List.cons_append, position]
    by_cases hw : w.isPrefixOf (b :: buf) = true
    · rw [if_pos hw] at h
      have hp : w <+: b :: (buf ++ x) := (List.isPrefixOf_iff_prefix.mp hw).trans (List.prefix_append (b :: buf) x)
      rw [if_pos (List.isPrefixOf_iff_prefix.mpr hp)]
      exact h
    · rw [if_neg hw] at h
      obtain ⟨j, hj, rfl⟩ := Option.map_eq_some_iff.mp h
      obtain ⟨a, c, hac, -⟩ := position_some hj
      have hlen : w.length ≤ (b :: buf).length := by
        rw [hac]
        simp only [List.length_cons, List.length_append]
        omega
      have hno : w.isPrefixOf (b :: buf ++ x) = false := by
        rw [← Bool.not_eq_true, List.isPrefixOf_iff_prefix]
        intro hp
        apply hw
        exact List.isPrefixOf_iff_prefix.mpr (List.prefix_of_prefix_length_le hp (List.prefix_append _ _) hlen)
      rw [List.cons_append] at hno
      rw [hno, ih hj]
      rfl

theorem position_none {w : Bytes} (hw : w ≠ []) {buf : Bytes} (hn : position w buf = none) : ¬ w <:+: buf := by
  intro h
  induction buf with
  | nil => exact hw (List.infix_nil.mp h)
  | cons b buf ih =>
    rw [position] at hn
    by_cases hp : w.isPrefixOf (b :: buf) = true
    · rw [if_pos hp] at hn
      cases hn
    · rw [if_neg hp] at hn
      rcases List.infix_cons_iff.mp h with h | h
      · exact hp (List.isPrefixOf_iff_prefix.mpr h)
      · exact ih (Option.map_eq_none_iff.mp hn) h

/-- An occurrence that more input brings was not complete before. -/
theorem position_late {w x : Bytes} {buf : Bytes} {i : Nat} (hw : w ≠ []) (h : position w buf = none)
    (hx : position w (buf ++ x) = some i) : buf.length < i + w.length := by
  obtain ⟨a, c, hac, hi⟩ := position_some hx
  by_contra hle
  have hpre : a ++ w <+: buf := by
    refine List.prefix_of_prefix_length_le ⟨c, hac.symm⟩ (List.prefix_append buf x) ?_
    rw [List.length_append]
    omega
  exact position_none hw h ((List.suffix_append a w).isInfix.trans hpre.isInfix)

theorem position_le {w buf : Bytes} {i : Nat} (h : position w buf = some i) : i + w.length ≤ buf.length := by
  obtain ⟨a, c, rfl, rfl⟩ := position_some h
  simp only [List.length_append]
  omega

/-- `\r\n\r\n` does not start one byte before `\n\n`. -/
theorem crlf_overlap {buf : Bytes} {a q : Nat} (ha : position lf buf = some a) (hq : position crlf buf = some q) :
    q + 1 ≠ a := by
  obtain ⟨s₁, t₁, h₁, rfl⟩ := position_some ha
  obtain ⟨s₂, t₂, h₂, rfl⟩ := position_some hq
  intro hs
  have e₁ : buf[s₁.length + 1]? = some 10 := by rw [h₁]; simp [lf]
  have e₂ : buf[s₂.length + 2]? = some 13 := by rw [h₂]; simp [crlf]
  rw [← hs, e₂] at e₁
  cases e₁

theorem nextSseBoundary_le {buf : Bytes} {p n : Nat} (h : nextSseBoundary buf = some (p, n)) :
    0 < n ∧ p + n ≤ buf.length := by
  unfold nextSseBoundary at h
  cases ha : position lf buf with
  | none =>
    cases hb : position crlf buf with
    | none => rw [ha, hb] at h; cases h
    | some b =>
      rw [ha, hb] at h
      cases h
      exact ⟨by decide, position_le hb⟩
  | some a =>
    have hla := position_le ha
    cases hb : position crlf buf with
    | none =>
      rw [ha, hb] at h
      cases h
      exact ⟨by decide, hla⟩
    | some b =>
      have hlb := position_le hb
      rw [ha, hb] at h
      have h : (if a ≤ b then (a, 2) else (b, 4)) = (p, n) := Option.some.inj h
      by_cases hab : a ≤ b
      · rw [if_pos hab] at h
        cases h
        exact ⟨by decide, hla⟩
      · rw [if_neg hab] at h
        cases h
        exact ⟨by decide, hlb⟩

theorem nextSseBoundary_append (x : Bytes) {buf : Bytes} {p : Nat × Nat} (h : nextSseBoundary buf = some p) :
    nextSseBoundary (buf ++ x) = some p := by
  unfold nextSseBoundary at h ⊢
  match ha : position lf buf, hb : position crlf buf with
  | some a, some b =>
    rw [position_append x ha, position_append x hb]
    rw [ha, hb] at h
    exact h
  | some a, none =>
    rw [ha, hb] at h
    rw [position_append x ha]
    match hq : position crlf (buf ++ x) with
    | none => exact h
    | some q =>
      -- the new `\r\n\r\n` ends after the old buffer, so it starts no earlier
      have hlate := position_late (by decide) hb hq
      have hle := position_le ha
      have hne := crlf_overlap (position_append x ha) hq
      simp only [lf, crlf, List.length_cons, List.length_nil] at hlate hle
      simp only
      rw [if_pos (by omega)]
      exact h
  | none, some b =>
    rw [ha, hb] at h
    rw [position_append x hb]
    match hq : position lf (buf ++ x) with
    | none => exact h
    | some q =>
      have hlate := position_late (by decide) ha hq
      have hle := position_le hb
      simp only [lf, crlf, List.length_cons, List.length_nil] at hlate hle
      simp only
      rw [if_neg (by omega)]
      exact h
  | none, none =>
    rw [ha, hb] at h
    cases h

def cutEvent (buf : Bytes) : Option (Bytes × Bytes) :=
  (nextSseBoundary buf).map fun (pos, sepLen) => (buf.take (pos + sepLen), buf.drop (pos + sepLen))

theorem cutEvent_some {buf f r : Bytes} (h : cutEvent buf = some (f, r)) :
    ∃ pos sepLen, nextSseBoundary buf = some (pos, sepLen) ∧ f = buf.take (pos + sepLen) ∧
      r = buf.drop (pos + sepLen) := by
  obtain ⟨⟨pos, sepLen⟩, hb, he⟩ := Option.map_eq_some_iff.mp h
  cases he
  exact ⟨pos, sepLen, hb, rfl, rfl⟩

def sse : Framing.Cutter UInt8 where
  cut := cutEvent
  split h := by
    obtain ⟨pos, sepLen, -, rfl, rfl⟩ := cutEvent_some h
    exact (List.take_append_drop _ _).symm
  progress h := by
    obtain ⟨pos, sepLen, hb, rfl, rfl⟩ := cutEvent_some h
    have := nextSseBoundary_le hb
    apply List.ne_nil_of_length_pos
    rw [List.length_take]
    omega
  stable c h := by
    obtain ⟨pos, sepLen, hb, rfl, rfl⟩ := cutEvent_some h
    have hle := (nextSseBoundary_le hb).2
    unfold cutEvent
    rw [nextSseBoundary_append c hb, Option.map_some]
    simp only
    rw [List.take_append_of_le_length hle, List.drop_append_of_le_length hle]

/-! ## The text of an event -/

/-- A multi-byte character cut short: the bytes it still needs, its code so
far, and the range the next byte has to be in. -/
structure Pending where
  need : Nat
  code : Nat
  lo : Nat
  hi : Nat

/-- What a byte that begins a character gives: the characters it completes, or
the character it opens. A byte that begins none is replaced. -/
def lossyLead (b : Nat) : Text × Option Pending :=
  if b < 0x80 then ([Char.ofNat b], none)
  else if 0xc2 ≤ b ∧ b ≤ 0xdf then ([], some ⟨1, b % 32, 0x80, 0xbf⟩)
  else if b = 0xe0 then ([], some ⟨2, 0, 0xa0, 0xbf⟩)
  else if b = 0xed then ([], some ⟨2, 0xd, 0x80, 0x9f⟩)
  else if 0xe1 ≤ b ∧ b ≤ 0xef then ([], some ⟨2, b % 16, 0x80, 0xbf⟩)
  else if b = 0xf0 then ([], some ⟨3, 0, 0x90, 0xbf⟩)
  else if 0xf1 ≤ b ∧ b ≤ 0xf3 then ([], some ⟨3, b % 8, 0x80, 0xbf⟩)
  else if b = 0xf4 then ([], some ⟨3, 4, 0x80, 0x8f⟩)
  else (['\ufffd'], none)

def lossyStep (p : Option Pending) (b : Nat) : Text × Option Pending :=
  match p with
  | none => lossyLead b
  | some p =>
    if p.lo ≤ b ∧ b ≤ p.hi then
      let code := p.code * 64 + b % 64
      if p.need ≤ 1 then ([Char.ofNat code], none) else ([], some ⟨p.need - 1, code, 0x80, 0xbf⟩)
    else
      -- the character breaks off: it is replaced once, and the byte begins anew
      let (t, p) := lossyLead b
      ('\ufffd' :: t, p)

def lossyFrom : Option Pending → Bytes → Text
  | none, [] => []
  | some _, [] => ['\ufffd']
  | p, b :: bytes => (lossyStep p b.toNat).1 ++ lossyFrom (lossyStep p b.toNat).2 bytes

/-- `String::from_utf8_lossy`: each ill-formed sequence becomes one `U+FFFD`. -/
def fromUtf8Lossy (bytes : Bytes) : Text := lossyFrom none bytes

def utf8Bytes (t : Text) : Bytes := t.flatMap String.utf8EncodeChar

/-- `str::lines`: `\n` or `\r\n` ends a line, and a last line may go without. -/
def linesFrom (line : Text) : Text → List Text
  | [] => if line.isEmpty then [] else [line.reverse]
  | '\n' :: t =>
    (match line with
    | '\r' :: line => line.reverse
    | line => line.reverse) :: linesFrom [] t
  | c :: t => linesFrom (c :: line) t

def lines (t : Text) : List Text := linesFrom [] t

def isWhitespace (c : Char) : Bool :=
  let n := c.toNat
  (0x9 ≤ n && n ≤ 0xd) || n == 0x20 || n == 0x85 || n == 0xa0 || n == 0x1680 || (0x2000 ≤ n && n ≤ 0x200a) ||
    n == 0x2028 || n == 0x2029 || n == 0x202f || n == 0x205f || n == 0x3000

def trim (t : Text) : Text := ((t.dropWhile isWhitespace).reverse.dropWhile isWhitespace).reverse

def trimEnd (t : Text) : Text := (t.reverse.dropWhile isWhitespace).reverse

def stripPrefix (p t : Text) : Option Text := if p.isPrefixOf t then some (t.drop p.length) else none

theorem stripPrefix_append (p t : Text) : stripPrefix p (p ++ t) = some t := by
  simp [stripPrefix]

end SynapseGateway
