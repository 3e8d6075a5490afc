import Mathlib.Data.List.Basic
import Mathlib.Data.String.Basic

/-!
# Text as characters with byte offsets

A text is a list of characters; offsets into it count UTF-8 bytes, as a
string slice's do. `takeBytes` and `dropBytes` cut at a byte offset. They cut
before the character an offset falls into, so every cut is between
characters; `Boundary` holds of the offsets that are cuts already.
-/

namespace Utf8

open String (utf8Len utf8Len_nil utf8Len_cons utf8Len_append)

abbrev Text := List Char

def takeBytes : Nat → Text → Text
  | _, [] => []
  | n, c :: t => if c.utf8Size ≤ n then c :: takeBytes (n - c.utf8Size) t else []

def dropBytes : Nat → Text → Text
  | _, [] => []
  | n, c :: t => if c.utf8Size ≤ n then dropBytes (n - c.utf8Size) t else c :: t

/-- `n` is a cut between characters of `t`. -/
def Boundary (n : Nat) (t : Text) : Prop := utf8Len (takeBytes n t) = n

instance (n : Nat) (t : Text) : Decidable (Boundary n t) := inferInstanceAs (Decidable (_ = _))

def replaceRange (t : Text) (i j : Nat) (r : Text) : Text :=
  takeBytes i t ++ r ++ dropBytes j t

/-! ## Cutting -/

theorem takeBytes_append_dropBytes (n : Nat) (t : Text) : takeBytes n t ++ dropBytes n t = t := by
  induction t generalizing n with
  | nil => rfl
  | cons c t ih =>
    simp only [takeBytes, dropBytes]
    by_cases h : c.utf8Size ≤ n
    · simp only [h, if_true, List.cons_append, ih]
    · simp only [h, if_false, List.nil_append]

theorem takeBytes_append_le {n : Nat} (a b : Text) (h : n ≤ utf8Len a) :
    takeBytes n (a ++ b) = takeBytes n a := by
  induction a generalizing n with
  | nil =>
    rw [utf8Len_nil] at h
    cases b with
    | nil => rfl
    | cons c b =>
      have hc := c.utf8Size_pos
      simp only [List.nil_append, takeBytes]
      rw [if_neg (by omega)]
  | cons c a ih =>
    rw [utf8Len_cons] at h
    simp only [List.cons_append, takeBytes]
    by_cases hn : c.utf8Size ≤ n
    · simp only [hn, if_true, ih (show n - c.utf8Size ≤ utf8Len a by omega)]
    · simp only [hn, if_false]

theorem dropBytes_append_le {n : Nat} (a b : Text) (h : n ≤ utf8Len a) :
    dropBytes n (a ++ b) = dropBytes n a ++ b := by
  induction a generalizing n with
  | nil =>
    rw [utf8Len_nil] at h
    cases b with
    | nil => rfl
    | cons c b =>
      have hc := c.utf8Size_pos
      simp only [List.nil_append, dropBytes]
      rw [if_neg (by omega)]
  | cons c a ih =>
    rw [utf8Len_cons] at h
    simp only [List.cons_append, dropBytes]
    by_cases hn : c.utf8Size ≤ n
    · simp only [hn, if_true, ih (show n - c.utf8Size ≤ utf8Len a by omega)]
    · simp only [hn, if_false, List.cons_append]

theorem takeBytes_append_ge {n : Nat} (a b : Text) (h : utf8Len a ≤ n) :
    takeBytes n (a ++ b) = a ++ takeBytes (n - utf8Len a) b := by
  induction a generalizing n with
  | nil => simp
  | cons c a ih =>
    rw [utf8Len_cons] at h
    simp only [List.cons_append, takeBytes, utf8Len_cons]
    rw [if_pos (by omega), ih (by omega)]
    congr 3; omega

theorem dropBytes_append_ge {n : Nat} (a b : Text) (h : utf8Len a ≤ n) :
    dropBytes n (a ++ b) = dropBytes (n - utf8Len a) b := by
  induction a generalizing n with
  | nil => simp
  | cons c a ih =>
    rw [utf8Len_cons] at h
    simp only [List.cons_append, dropBytes, utf8Len_cons]
    rw [if_pos (by omega), ih (by omega)]
    congr 1; omega

@[simp] theorem takeBytes_zero (t : Text) : takeBytes 0 t = [] := by
  simpa [takeBytes] using takeBytes_append_le (n := 0) [] t (Nat.zero_le _)

@[simp] theorem dropBytes_zero (t : Text) : dropBytes 0 t = t := by
  simpa [dropBytes] using dropBytes_append_le (n := 0) [] t (Nat.zero_le _)

@[simp] theorem takeBytes_utf8Len_append (a b : Text) : takeBytes (utf8Len a) (a ++ b) = a := by
  rw [takeBytes_append_ge a b (Nat.le_refl _), Nat.sub_self, takeBytes_zero, List.append_nil]

@[simp] theorem dropBytes_utf8Len_append (a b : Text) : dropBytes (utf8Len a) (a ++ b) = b := by
  rw [dropBytes_append_ge a b (Nat.le_refl _), Nat.sub_self, dropBytes_zero]

@[simp] theorem takeBytes_utf8Len (t : Text) : takeBytes (utf8Len t) t = t := by
  simpa using takeBytes_utf8Len_append t []

theorem utf8Len_takeBytes_le (n : Nat) (t : Text) : utf8Len (takeBytes n t) ≤ n := by
  induction t generalizing n with
  | nil => exact Nat.zero_le n
  | cons c t ih =>
    rw [takeBytes]
    by_cases h : c.utf8Size ≤ n
    · have := ih (n - c.utf8Size)
      rw [if_pos h, utf8Len_cons]
      omega
    · rw [if_neg h]
      exact Nat.zero_le n

theorem boundary_append (a b : Text) : Boundary (utf8Len a) (a ++ b) := by
  rw [Boundary, takeBytes_utf8Len_append]

theorem boundary_zero (t : Text) : Boundary 0 t := by
  rw [Boundary, takeBytes_zero, utf8Len_nil]

theorem boundary_iff {n : Nat} {t : Text} : Boundary n t ↔ ∃ a b, t = a ++ b ∧ n = utf8Len a := by
  constructor
  · intro h
    exact ⟨takeBytes n t, dropBytes n t, (takeBytes_append_dropBytes n t).symm, h.symm⟩
  · intro h
    obtain ⟨a, b, rfl, rfl⟩ := h
    exact boundary_append a b

theorem boundary_append_le {n : Nat} {a : Text} (b : Text) (h : n ≤ utf8Len a) : Boundary n (a ++ b) ↔ Boundary n a := by
  rw [Boundary, Boundary, takeBytes_append_le a b h]

theorem boundary_append_ge {n : Nat} {a : Text} (b : Text) (h : utf8Len a ≤ n) :
    Boundary n (a ++ b) ↔ Boundary (n - utf8Len a) b := by
  rw [Boundary, Boundary, takeBytes_append_ge a b h, utf8Len_append]
  omega

/-- `String::split_off`: `none` where it panics. -/
def splitOff (t : Text) (n : Nat) : Option (Text × Text) :=
  if Boundary n t then some (takeBytes n t, dropBytes n t) else none

/-- `String::replace_range`: `none` where it panics. -/
def tryReplaceRange (t : Text) (i j : Nat) (r : Text) : Option Text :=
  if Boundary i t ∧ Boundary j t then some (replaceRange t i j r) else none

/-! ## Offsets of characters -/

/-- The byte offset of character number `n`, if there is one. -/
def charOffset (n : Nat) (t : Text) : Option Nat :=
  if n < t.length then some (utf8Len (t.take n)) else none

theorem takeBytes_take (n : Nat) (t : Text) : takeBytes (utf8Len (t.take n)) t = t.take n := by
  conv_lhs => rw [← List.take_append_drop n t]
  rw [List.take_append_drop n t]
  have := takeBytes_utf8Len_append (t.take n) (t.drop n)
  rwa [List.take_append_drop] at this

theorem utf8Len_take_le (n : Nat) (t : Text) : utf8Len (t.take n) ≤ utf8Len t := by
  conv_rhs => rw [← List.take_append_drop n t, utf8Len_append]
  exact Nat.le_add_right _ _

theorem append_eq_append_of_le {a b c d : Text} (h : a ++ b = c ++ d) (hl : utf8Len a ≤ utf8Len c) :
    ∃ m, c = a ++ m ∧ b = m ++ d := by
  refine ⟨dropBytes (utf8Len a) c, ?_, ?_⟩
  · have ht := congrArg (takeBytes (utf8Len a)) h
    rw [takeBytes_utf8Len_append, takeBytes_append_le c d hl] at ht
    conv_lhs => rw [← takeBytes_append_dropBytes (utf8Len a) c]
    rw [← ht]
  · have hd := congrArg (dropBytes (utf8Len a)) h
    rwa [dropBytes_utf8Len_append, dropBytes_append_le c d hl] at hd

end Utf8
