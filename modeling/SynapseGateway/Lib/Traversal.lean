import Mathlib.Data.List.Nodup

/-!
# Parts of a value, read and written back

A traversal reads the parts of a value in an order and writes as many new parts
back. Its laws are fields: what was written is read, and writing what was read
changes nothing. Traversals are built from smaller ones.
-/

structure Traversal (α β : Type) where
  read : α → List β
  write : α → List β → α
  read_write : ∀ a bs, bs.length = (read a).length → read (write a bs) = bs
  write_read : ∀ a, write a (read a) = a

namespace Traversal

variable {α β κ : Type}

def empty : Traversal α β where
  read _ := []
  write a _ := a
  read_write _ _ h := (List.length_eq_zero_iff.mp h).symm
  write_read _ := rfl

/-! ## Every element of a list -/

section
variable (T : Traversal α β)

def readEach (xs : List α) : List β := xs.flatMap T.read

def writeEach : List α → List β → List α
  | [], _ => []
  | x :: xs, bs => T.write x (bs.take (T.read x).length) :: writeEach xs (bs.drop (T.read x).length)

theorem readEach_writeEach {xs : List α} {bs : List β} (h : bs.length = (T.readEach xs).length) :
    T.readEach (T.writeEach xs bs) = bs := by
  induction xs generalizing bs with
  | nil => exact (List.length_eq_zero_iff.mp h).symm
  | cons x xs ih =>
    unfold readEach at h ih ⊢
    rw [List.flatMap_cons, List.length_append] at h
    rw [writeEach, List.flatMap_cons, T.read_write x _ (by rw [List.length_take]; omega),
      ih (by rw [List.length_drop]; omega), List.take_append_drop]

theorem writeEach_readEach (xs : List α) : T.writeEach xs (T.readEach xs) = xs := by
  induction xs with
  | nil => rfl
  | cons x xs ih =>
    unfold readEach at ih ⊢
    rw [List.flatMap_cons, writeEach, List.take_left, List.drop_left, T.write_read, ih]

def each : Traversal (List α) β where
  read := T.readEach
  write := T.writeEach
  read_write _ _ h := T.readEach_writeEach h
  write_read := T.writeEach_readEach

end

/-! ## Two traversals of one value -/

/-- First the parts of `S`, then those of `T`; neither writes what the other reads. -/
def both (S T : Traversal α β) (hST : ∀ a bs, T.read (S.write a bs) = T.read a)
    (hTS : ∀ a bs, S.read (T.write a bs) = S.read a) : Traversal α β where
  read a := S.read a ++ T.read a
  write a bs := T.write (S.write a (bs.take (S.read a).length)) (bs.drop (S.read a).length)
  read_write a bs h := by
    rw [List.length_append] at h
    rw [hTS, S.read_write a _ (by rw [List.length_take]; omega),
      T.read_write _ _ (by rw [hST, List.length_drop]; omega), List.take_append_drop]
  write_read a := by rw [List.take_left, List.drop_left, S.write_read, T.write_read]

/-! ## The fields of a record -/

/-- A traversal of a record's members that touches the fields `keys` only. -/
structure Fields (κ α β : Type) [DecidableEq κ] extends Traversal (List (κ × α)) β where
  keys : List κ
  frame : ∀ {k}, k ∉ keys → ∀ ms bs, (write ms bs).lookup k = ms.lookup k
  reads : ∀ {ms ms' : List (κ × α)}, (∀ k ∈ keys, ms.lookup k = ms'.lookup k) → read ms = read ms'

section
variable [DecidableEq κ]

def modifyMember (k : κ) (f : α → α) : List (κ × α) → List (κ × α)
  | [] => []
  | (k', a) :: ms => if k = k' then (k', f a) :: ms else (k', a) :: modifyMember k f ms

theorem lookup_modifyMember (k : κ) (f : α → α) (ms : List (κ × α)) :
    (modifyMember k f ms).lookup k = (ms.lookup k).map f := by
  induction ms with
  | nil => rfl
  | cons m ms ih =>
    obtain ⟨k', a⟩ := m
    rw [modifyMember]
    by_cases h : k = k'
    · simp [h]
    · rw [if_neg h, List.lookup_cons, List.lookup_cons, beq_false_of_ne h]
      exact ih

theorem lookup_modifyMember_ne {k k' : κ} (h : k ≠ k') (f : α → α) (ms : List (κ × α)) :
    (modifyMember k' f ms).lookup k = ms.lookup k := by
  induction ms with
  | nil => rfl
  | cons m ms ih =>
    obtain ⟨k'', a⟩ := m
    rw [modifyMember]
    by_cases h' : k' = k''
    · rw [if_pos h', List.lookup_cons, List.lookup_cons, beq_false_of_ne (h' ▸ h)]
    · rw [if_neg h', List.lookup_cons, List.lookup_cons, ih]

theorem modifyMember_of_lookup {k : κ} {f : α → α} {ms : List (κ × α)} (h : ∀ a, ms.lookup k = some a → f a = a) :
    modifyMember k f ms = ms := by
  induction ms with
  | nil => rfl
  | cons m ms ih =>
    obtain ⟨k', a⟩ := m
    rw [modifyMember]
    by_cases hk : k = k'
    · rw [if_pos hk, h a (by simp [hk])]
    · rw [if_neg hk, ih]
      intro b hb
      apply h b
      rw [List.lookup_cons, beq_false_of_ne hk]
      exact hb

namespace Fields

def none : Fields κ α β where
  toTraversal := .empty
  keys := []
  frame _ _ _ := rfl
  reads _ := rfl

/-- The parts of the member under `k`, if there is one. -/
def member (k : κ) (T : Traversal α β) : Fields κ α β where
  read ms := (ms.lookup k).elim [] T.read
  write ms bs := modifyMember k (fun a => T.write a bs) ms
  read_write ms bs h := by
    rw [lookup_modifyMember]
    cases hl : ms.lookup k with
    | none =>
      rw [hl] at h
      exact (List.length_eq_zero_iff.mp h).symm
    | some a =>
      rw [hl] at h
      exact T.read_write a _ h
  write_read ms := by
    apply modifyMember_of_lookup
    intro a ha
    rw [ha]
    exact T.write_read a
  keys := [k]
  frame hk ms bs := lookup_modifyMember_ne (fun h => hk (List.mem_singleton.mpr h)) _ ms
  reads h := by rw [h k (List.mem_singleton_self k)]

/-- First the parts of `S`, then those of `T`, in other fields. -/
def and (S T : Fields κ α β) (h : ∀ k ∈ S.keys, k ∉ T.keys) : Fields κ α β where
  toTraversal := S.both T.toTraversal
    (fun ms bs => T.reads fun _ hk => S.frame (fun hs => h _ hs hk) ms bs)
    (fun ms bs => S.reads fun _ hk => T.frame (h _ hk) ms bs)
  keys := S.keys ++ T.keys
  frame hk ms bs := by
    rw [List.mem_append, not_or] at hk
    exact (T.frame hk.2 _ _).trans (S.frame hk.1 _ _)
  reads hms := by
    show S.read _ ++ T.read _ = S.read _ ++ T.read _
    rw [S.reads fun k hk => hms k (List.mem_append_left _ hk), T.reads fun k hk => hms k (List.mem_append_right _ hk)]

/-- Nothing where `p` holds; `p` reads none of the fields that are written. -/
def except (p : List (κ × α) → Bool) (T : Fields κ α β) (hp : ∀ ms bs, p (T.write ms bs) = p ms) :
    Traversal (List (κ × α)) β where
  read ms := if p ms then [] else T.read ms
  write ms bs := if p ms then ms else T.write ms bs
  read_write ms bs h := by
    by_cases hm : p ms = true
    · rw [if_pos hm] at h
      rw [if_pos hm, if_pos hm, List.length_eq_zero_iff.mp h]
    · rw [if_neg hm] at h
      rw [if_neg hm, hp, if_neg hm, T.read_write ms _ h]
  write_read ms := by
    by_cases hm : p ms = true
    · rw [if_pos hm]
    · rw [if_neg hm, if_neg hm, T.write_read]

end Fields

end

end Traversal
