import Mathlib.Data.List.Basic

/-!
# A bounded channel

Values leave in the order they came; a value that finds the channel full is
refused.
-/

structure Channel (α : Type) where
  capacity : Nat
  items : List α
  within : items.length ≤ capacity

namespace Channel

variable {α : Type}

def new (capacity : Nat) : Channel α := ⟨capacity, [], Nat.zero_le _⟩

def trySend (c : Channel α) (x : α) : Option (Channel α) :=
  if h : c.items.length < c.capacity then
    some ⟨c.capacity, c.items ++ [x], by rw [List.length_append]; exact h⟩
  else none

def recv : Channel α → Option (α × Channel α)
  | ⟨_, [], _⟩ => none
  | ⟨capacity, x :: rest, within⟩ => some (x, ⟨capacity, rest, Nat.le_of_succ_le within⟩)

theorem trySend_eq_some {c d : Channel α} {x : α} (h : c.trySend x = some d) : d.items = c.items ++ [x] := by
  unfold trySend at h
  split at h
  · cases h
    rfl
  · cases h

theorem recv_eq_some {c d : Channel α} {x : α} (h : c.recv = some (x, d)) : c.items = x :: d.items := by
  obtain ⟨capacity, items, within⟩ := c
  cases items with
  | nil => cases h
  | cons y rest =>
    cases h
    rfl

/-- What was received and what still waits is what was sent, less the refused. -/
structure Accounts (c : Channel α) (sent received : List α) (refused : Nat) : Prop where
  kept : (received ++ c.items).Sublist sent
  count : sent.length = (received ++ c.items).length + refused

section
variable {c d : Channel α} {sent received : List α} {refused : Nat} {x : α}

theorem accounts_new (capacity : Nat) : (new capacity : Channel α).Accounts [] [] 0 := ⟨List.Sublist.refl _, rfl⟩

theorem Accounts.send (h : c.Accounts sent received refused) (hx : c.trySend x = some d) :
    d.Accounts (sent ++ [x]) received refused := by
  have hitems := trySend_eq_some hx
  refine ⟨?_, ?_⟩
  · rw [hitems, ← List.append_assoc]
    exact h.kept.append (List.Sublist.refl [x])
  · have := h.count
    simp only [hitems, List.length_append, List.length_singleton] at this ⊢
    omega

theorem Accounts.refuse (h : c.Accounts sent received refused) (x : α) :
    c.Accounts (sent ++ [x]) received (refused + 1) := by
  refine ⟨h.kept.trans (List.sublist_append_left sent [x]), ?_⟩
  have := h.count
  rw [List.length_append, List.length_singleton]
  omega

theorem Accounts.recv (h : c.Accounts sent received refused) (hx : c.recv = some (x, d)) :
    d.Accounts sent (received ++ [x]) refused := by
  have hsame : received ++ [x] ++ d.items = received ++ c.items := by
    rw [recv_eq_some hx, List.append_assoc, List.singleton_append]
  exact ⟨hsame ▸ h.kept, hsame ▸ h.count⟩

end

end Channel
