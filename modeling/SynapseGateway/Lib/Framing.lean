import Mathlib.Data.List.Basic

/-!
# Incremental framing

A framing cuts the first complete frame off a buffer. A cut that more input
cannot change may be made as soon as the frame is there, so a buffer drained
chunk by chunk gives the frames of the whole input, however it was chunked.
-/

namespace Framing

variable {α : Type}

structure Cutter (α : Type) where
  cut : List α → Option (List α × List α)
  split : ∀ {b f r}, cut b = some (f, r) → b = f ++ r
  progress : ∀ {b f r}, cut b = some (f, r) → f ≠ []
  stable : ∀ {b f r} (c : List α), cut b = some (f, r) → cut (b ++ c) = some (f, r ++ c)

namespace Cutter

variable (k : Cutter α)

def drainFrom : Nat → List α → List (List α) × List α
  | 0, b => ([], b)
  | n + 1, b =>
    match k.cut b with
    | none => ([], b)
    | some (f, r) => (f :: (drainFrom n r).1, (drainFrom n r).2)

/-- All frames of a buffer. A frame is not empty, so there are at most as many
as there are bytes. -/
def drain (b : List α) : List (List α) × List α := k.drainFrom b.length b

variable {k} {b f r : List α}

theorem cut_length (h : k.cut b = some (f, r)) : r.length < b.length := by
  have hf : 0 < f.length := List.length_pos_of_ne_nil (k.progress h)
  rw [k.split h, List.length_append]
  omega

theorem drainFrom_none (h : k.cut b = none) (n : Nat) : k.drainFrom n b = ([], b) := by
  cases n with
  | zero => rfl
  | succ n => rw [drainFrom, h]

theorem drainFrom_enough : ∀ {n : Nat} {b : List α}, b.length ≤ n → k.drainFrom n b = k.drain b
  | 0, b, h => by
    rw [drain, List.length_eq_zero_iff.mp (Nat.le_zero.mp h)]
    rfl
  | n + 1, b, h => by
    match hc : k.cut b with
    | none => rw [drain, drainFrom_none hc, drainFrom_none hc]
    | some (f, r) =>
      have hr := cut_length hc
      match hb : b.length with
      | 0 => omega
      | m + 1 =>
        rw [drain, hb, drainFrom, drainFrom, hc]
        simp only
        rw [drainFrom_enough (show r.length ≤ n by omega), drainFrom_enough (show r.length ≤ m by omega)]

theorem drain_none (h : k.cut b = none) : k.drain b = ([], b) :=
  drainFrom_none h _

theorem drain_some (h : k.cut b = some (f, r)) : k.drain b = (f :: (k.drain r).1, (k.drain r).2) := by
  have hr := cut_length h
  match hb : b.length with
  | 0 => omega
  | m + 1 =>
    rw [drain, hb, drainFrom, h]
    simp only
    rw [drainFrom_enough (show r.length ≤ m by omega)]

/-- Draining `b` followed by `c` is draining `b`, then what is left of it
followed by `c`. -/
theorem drain_append (c : List α) {n : Nat} {b : List α} (hn : b.length ≤ n) :
    k.drain (b ++ c) = ((k.drain b).1 ++ (k.drain ((k.drain b).2 ++ c)).1, (k.drain ((k.drain b).2 ++ c)).2) := by
  induction n generalizing b with
  | zero =>
    cases h : k.cut b with
    | none => rw [drain_none h]; rfl
    | some fr => exact absurd (cut_length h) (by omega)
  | succ n ih =>
    cases h : k.cut b with
    | none => rw [drain_none h]; rfl
    | some fr =>
      have hr := cut_length h
      rw [drain_some h, drain_some (k.stable c h), ih (show fr.2.length ≤ n by omega)]
      rfl

theorem cut_drain {n : Nat} {b : List α} (hn : b.length ≤ n) : k.cut (k.drain b).2 = none := by
  induction n generalizing b with
  | zero =>
    cases h : k.cut b with
    | none => rw [drain_none h]; exact h
    | some fr => exact absurd (cut_length h) (by omega)
  | succ n ih =>
    cases h : k.cut b with
    | none => rw [drain_none h]; exact h
    | some fr =>
      have hr := cut_length h
      rw [drain_some h]
      exact ih (show fr.2.length ≤ n by omega)

theorem drain_flatten {n : Nat} {b : List α} (hn : b.length ≤ n) : (k.drain b).1.flatten ++ (k.drain b).2 = b := by
  induction n generalizing b with
  | zero =>
    cases h : k.cut b with
    | none => rw [drain_none h]; rfl
    | some fr => exact absurd (cut_length h) (by omega)
  | succ n ih =>
    cases h : k.cut b with
    | none => rw [drain_none h]; rfl
    | some fr =>
      have hr := cut_length h
      rw [drain_some h, List.flatten_cons, List.append_assoc, ih (show fr.2.length ≤ n by omega)]
      exact (k.split h).symm

theorem drain_prefix {c : List α} (h : b <+: c) : (k.drain b).1 <+: (k.drain c).1 := by
  obtain ⟨x, rfl⟩ := h
  rw [drain_append x (Nat.le_refl _)]
  exact List.prefix_append _ _

/-- A buffer made of frames gives the frames. -/
theorem drain_frames {fs : List (List α)} (h : ∀ f ∈ fs, ∀ r, k.cut (f ++ r) = some (f, r)) :
    (k.drain fs.flatten).1 = fs := by
  induction fs with
  | nil => rfl
  | cons f fs ih =>
    rw [List.flatten_cons, drain_some (h f List.mem_cons_self fs.flatten), ih fun f hf => h f (List.mem_cons_of_mem _ hf)]

variable (k)

/-- The frames of input that comes in chunks. -/
def feed (b : List α) : List (List α) → List (List α)
  | [] => []
  | c :: cs => (k.drain (b ++ c)).1 ++ feed (k.drain (b ++ c)).2 cs

variable {k}

theorem feed_eq_drain {cs : List (List α)} (hb : k.cut b = none) : k.feed b cs = (k.drain (b ++ cs.flatten)).1 := by
  induction cs generalizing b with
  | nil =>
    rw [List.flatten_nil, List.append_nil, drain_none hb]
    rfl
  | cons c cs ih =>
    have happend := drain_append (k := k) cs.flatten (Nat.le_refl (b ++ c).length)
    rw [feed, ih (cut_drain (Nat.le_refl _)), List.flatten_cons, ← List.append_assoc, happend]

end Cutter

end Framing
