import Mathlib.Algebra.GroupWithZero.Nat
import Mathlib.Data.List.Nodup
import SynapseGateway.Lib.Fallible
import SynapseGateway.LedgerQueue

/-!
# What the ledger queue accounts for

What the writer took and what still waits is what was enqueued, in order, less
the entries counted as dropped. Each sink is offered every entry taken, and
accepts those it did not itself fail on.
-/

namespace SynapseGateway

variable {α : Type}

def LedgerEvent.entry : LedgerEvent α → Option α
  | .enqueue entry => some entry
  | _ => none

def LedgerEvent.outcome (i : Nat) : LedgerEvent α → Option Bool
  | .answer j ok => if j = i then some ok else none
  | _ => none

def enqueued (evs : List (LedgerEvent α)) : List α := evs.filterMap LedgerEvent.entry

/-- How the sink answered the entries it was called for. -/
def outcomes (i : Nat) (evs : List (LedgerEvent α)) : List Bool := evs.filterMap (LedgerEvent.outcome i)

def acceptedOf (taken : List α) (own : List Bool) : List α := ((taken.zip own).filter (·.2)).map (·.1)

def errorsOf (label : String) (sinks : List (Sink α)) : Nat := ((sinks.filter (·.label == label)).map (·.failures)).sum

structure LedgerAccounts (store : LedgerStore) (evs : List (LedgerEvent α)) (s : LedgerState α) : Prop where
  kept : (s.taken ++ s.channel.items).Sublist (enqueued evs)
  dropped : (enqueued evs).length = (s.taken ++ s.channel.items).length + s.ledgerDropped
  sinks : s.sinks.map (·.label) = store.labels
  offered : ∀ sink ∈ s.sinks,
    sink.offered = s.taken ∨ ∃ entry, s.writing = some entry ∧ s.taken = sink.offered ++ [entry]
  idle : s.writing = none → ∀ sink ∈ s.sinks, sink.offered = s.taken
  accepted : ∀ (i : Nat) (sink : Sink α), s.sinks[i]? = some sink → sink.accepted = acceptedOf s.taken (outcomes i evs)
  failures : ∀ (i : Nat) (sink : Sink α), s.sinks[i]? = some sink → sink.failures = (outcomes i evs).count false
  errors : ∀ label, s.ledgerErrors label = errorsOf label s.sinks

/-! ## One sink -/

/-- How far a sink is with the entry being written. -/
def Sink.Placed (sink : Sink α) (writing : Option α) (taken : List α) (own : List Bool) : Prop :=
  match sink.phase with
  | .answered => sink.offered = taken ∧ own.length = taken.length
  | .called => ∃ front entry, writing = some entry ∧ taken = front ++ [entry] ∧ sink.offered = taken ∧
      own.length = front.length
  | .waiting => ∃ front entry, writing = some entry ∧ taken = front ++ [entry] ∧ sink.offered = front ∧
      own.length = front.length

structure Sink.Reports (sink : Sink α) (writing : Option α) (taken : List α) (own : List Bool) : Prop where
  placed : sink.Placed writing taken own
  accepted : sink.accepted = acceptedOf taken own
  failures : sink.failures = own.count false

theorem acceptedOf_concat {front : List α} {own : List Bool} (h : own.length = front.length) (entry : α) (ok : Bool) :
    acceptedOf (front ++ [entry]) (own ++ [ok]) = acceptedOf front own ++ if ok then [entry] else [] := by
  unfold acceptedOf
  rw [List.zip_append h.symm, List.filter_append, List.map_append]
  cases ok <;> rfl

theorem acceptedOf_extra {front : List α} {own : List Bool} (h : own.length = front.length) (entry : α) :
    acceptedOf (front ++ [entry]) own = acceptedOf front own := by
  have hzip : (front ++ [entry]).zip own = front.zip own := calc
    (front ++ [entry]).zip own = (front ++ [entry]).zip (own ++ []) := by rw [List.append_nil]
    _ = front.zip own ++ [entry].zip [] := List.zip_append h.symm
    _ = front.zip own := by rw [List.zip_nil_right, List.append_nil]
  rw [acceptedOf, hzip, acceptedOf]

section
variable {sink : Sink α} {writing : Option α} {taken : List α} {own : List Bool} {entry : α}

theorem Sink.Reports.await (h : sink.Reports writing taken own) (hphase : sink.phase = .answered) :
    sink.await.Reports (some entry) (taken ++ [entry]) own := by
  have hplaced := h.placed
  unfold Sink.Placed at hplaced
  rw [hphase] at hplaced
  obtain ⟨hoffered, hlen⟩ := hplaced
  exact ⟨⟨taken, entry, rfl, rfl, hoffered, hlen⟩, (acceptedOf_extra hlen entry) ▸ h.accepted, h.failures⟩

theorem Sink.Reports.call (h : sink.Reports (some entry) taken own) (hphase : sink.phase = .waiting) :
    (sink.call entry).Reports (some entry) taken own := by
  have hplaced := h.placed
  unfold Sink.Placed at hplaced
  rw [hphase] at hplaced
  obtain ⟨front, last, hlast, htaken, hoffered, hlen⟩ := hplaced
  cases hlast
  refine ⟨⟨front, entry, rfl, htaken, ?_, hlen⟩, h.accepted, h.failures⟩
  rw [htaken]
  exact congrArg (· ++ [entry]) hoffered

theorem Sink.Reports.answer (h : sink.Reports (some entry) taken own) (hphase : sink.phase = .called) (ok : Bool) :
    (sink.answer entry ok).Reports (some entry) taken (own ++ [ok]) := by
  have hplaced := h.placed
  unfold Sink.Placed at hplaced
  rw [hphase] at hplaced
  obtain ⟨front, last, hlast, htaken, hoffered, hlen⟩ := hplaced
  cases hlast
  have hlen' : (own ++ [ok]).length = taken.length := by
    simp [htaken, hlen]
  have haccepted := h.accepted
  rw [htaken, acceptedOf_extra hlen] at haccepted
  cases ok with
  | true =>
    refine ⟨⟨hoffered, hlen'⟩, ?_, ?_⟩
    · rw [htaken, acceptedOf_concat hlen]
      exact congrArg (· ++ [entry]) haccepted
    · rw [List.count_append]
      exact h.failures
  | false =>
    refine ⟨⟨hoffered, hlen'⟩, ?_, ?_⟩
    · rw [htaken, acceptedOf_concat hlen]
      exact haccepted.trans (List.append_nil _).symm
    · rw [List.count_append]
      exact congrArg (· + 1) h.failures

theorem Sink.Reports.recorded (h : sink.Reports writing taken own) (hphase : sink.phase = .answered) :
    sink.Reports none taken own := by
  have hplaced := h.placed
  unfold Sink.Placed at hplaced
  rw [hphase] at hplaced
  refine ⟨?_, h.accepted, h.failures⟩
  unfold Sink.Placed
  rw [hphase]
  exact hplaced

theorem Sink.Reports.offered_cases (h : sink.Reports writing taken own) :
    sink.offered = taken ∨ ∃ entry, writing = some entry ∧ taken = sink.offered ++ [entry] := by
  have hplaced := h.placed
  unfold Sink.Placed at hplaced
  cases hphase : sink.phase with
  | answered =>
    rw [hphase] at hplaced
    exact .inl hplaced.1
  | called =>
    rw [hphase] at hplaced
    obtain ⟨_, _, _, _, hoffered, _⟩ := hplaced
    exact .inl hoffered
  | waiting =>
    rw [hphase] at hplaced
    obtain ⟨front, entry, hwriting, htaken, hoffered, _⟩ := hplaced
    exact .inr ⟨entry, hwriting, hoffered ▸ htaken⟩

end

/-! ## The counted failures -/

theorem errorsOf_set (label : String) {new old : Sink α} {k : Nat} (hlabel : new.label = old.label)
    (hk : new.failures = old.failures + k) : ∀ {sinks : List (Sink α)} {i : Nat}, sinks[i]? = some old →
      errorsOf label (sinks.set i new) = errorsOf label sinks + if label = old.label then k else 0
  | [], i, h => by cases h
  | sink :: sinks, 0, h => by
    obtain rfl : sink = old := Option.some.inj h
    unfold errorsOf
    rw [List.set_cons_zero, List.filter_cons, List.filter_cons, hlabel]
    by_cases heq : sink.label = label
    · simp only [heq, beq_self_eq_true, if_true, List.map_cons, List.sum_cons, hk]
      omega
    · simp [heq, Ne.symm heq]
  | sink :: sinks, i + 1, h => by
    have ih := @errorsOf_set label new old k hlabel hk sinks i h
    unfold errorsOf at ih ⊢
    rw [List.set_cons_succ, List.filter_cons, List.filter_cons]
    by_cases heq : sink.label = label
    · simp only [heq, beq_self_eq_true, if_true, List.map_cons, List.sum_cons, ih]
      omega
    · simp [heq, ih]

theorem errorsOf_fresh (label : String) (labels : List String) :
    errorsOf label (labels.map fun label => ({ label } : Sink α)) = 0 := by
  induction labels with
  | nil => rfl
  | cons first rest ih =>
    unfold errorsOf at ih ⊢
    rw [List.map_cons, List.filter_cons]
    split
    · rw [List.map_cons, List.sum_cons, ih]
    · exact ih

theorem filter_own {sinks : List (Sink α)} {sink : Sink α} (hn : (sinks.map (·.label)).Nodup) (h : sink ∈ sinks) :
    sinks.filter (·.label == sink.label) = [sink] := by
  induction sinks with
  | nil => cases h
  | cons first rest ih =>
    rw [List.map_cons, List.nodup_cons] at hn
    rcases List.mem_cons.mp h with rfl | hrest
    · rw [List.filter_cons_of_pos (by simp)]
      refine congrArg (sink :: ·) (List.filter_eq_nil_iff.mpr ?_)
      intro other hother heq
      exact hn.1 (eq_of_beq heq ▸ List.mem_map_of_mem hother)
    · have hne : first.label ≠ sink.label := fun heq => hn.1 (heq ▸ List.mem_map_of_mem hrest)
      rw [List.filter_cons_of_neg (by simpa using hne)]
      exact ih hn.2 hrest

theorem errorsOf_own {sinks : List (Sink α)} {sink : Sink α} (hn : (sinks.map (·.label)).Nodup) (h : sink ∈ sinks) :
    errorsOf sink.label sinks = sink.failures := by
  unfold errorsOf
  rw [filter_own hn h]
  simp

/-! ## One step -/

structure LedgerInv (store : LedgerStore) (evs : List (LedgerEvent α)) (s : LedgerState α) : Prop where
  accounts : s.channel.Accounts (enqueued evs) s.taken s.ledgerDropped
  labels : s.sinks.map (·.label) = store.labels
  sinks : ∀ (i : Nat) (sink : Sink α), s.sinks[i]? = some sink → sink.Reports s.writing s.taken (outcomes i evs)
  idle : s.writing = none → ∀ sink ∈ s.sinks, sink.phase = .answered
  errors : ∀ label, s.ledgerErrors label = errorsOf label s.sinks

theorem enqueued_snoc (evs : List (LedgerEvent α)) (ev : LedgerEvent α) :
    enqueued (evs ++ [ev]) = enqueued evs ++ ev.entry.toList := by
  unfold enqueued
  rw [List.filterMap_append]
  cases h : ev.entry <;> simp [h]

theorem outcomes_snoc (i : Nat) (evs : List (LedgerEvent α)) (ev : LedgerEvent α) :
    outcomes i (evs ++ [ev]) = outcomes i evs ++ (ev.outcome i).toList := by
  unfold outcomes
  rw [List.filterMap_append]
  cases h : ev.outcome i <;> simp [h]

section
variable {store : LedgerStore} {evs : List (LedgerEvent α)} {s t : LedgerState α}

theorem step_recv (h : s.step .recv = some t) :
    s.writing = none ∧ ∃ entry channel, s.channel.recv = some (entry, channel) ∧ t = s.take entry channel := by
  cases hwriting : s.writing with
  | some _ => simp [LedgerState.step, hwriting] at h
  | none =>
    simp only [LedgerState.step, hwriting] at h
    obtain ⟨⟨entry, channel⟩, hrecv, rfl⟩ := Option.map_eq_some_iff.mp h
    exact ⟨rfl, entry, channel, hrecv, rfl⟩

theorem step_call {i : Nat} (h : s.step (.call i) = some t) :
    ∃ entry sink, s.writing = some entry ∧ s.sinks[i]? = some sink ∧ sink.phase = .waiting ∧
      t = { s with sinks := s.sinks.set i (sink.call entry) } := by
  simp only [LedgerState.step] at h
  split at h
  · rename_i entry sink hwriting hsink
    split at h
    · rename_i hphase
      exact ⟨entry, sink, hwriting, hsink, hphase, (Option.some.inj h).symm⟩
    · cases h
  · cases h

theorem step_answer {i : Nat} {ok : Bool} (h : s.step (.answer i ok) = some t) :
    ∃ entry sink, s.writing = some entry ∧ s.sinks[i]? = some sink ∧ sink.phase = .called ∧
      t = s.answer i sink entry ok := by
  simp only [LedgerState.step] at h
  split at h
  · rename_i entry sink hwriting hsink
    split at h
    · rename_i hphase
      exact ⟨entry, sink, hwriting, hsink, hphase, (Option.some.inj h).symm⟩
    · cases h
  · cases h

theorem step_recorded (h : s.step .recorded = some t) :
    (∀ sink ∈ s.sinks, sink.phase = .answered) ∧ t = { s with writing := none } := by
  simp only [LedgerState.step] at h
  split at h
  · split at h
    · rename_i hall
      exact ⟨by simpa using hall, (Option.some.inj h).symm⟩
    · cases h
  · cases h

theorem LedgerInv.enqueue (h : LedgerInv store evs s) (entry : α) :
    LedgerInv store (evs ++ [.enqueue entry]) (s.enqueue entry) := by
  have hsent : enqueued (evs ++ [.enqueue entry]) = enqueued evs ++ [entry] := enqueued_snoc _ _
  have hown : ∀ i, outcomes i (evs ++ [.enqueue entry]) = outcomes i evs := fun i =>
    (outcomes_snoc i _ _).trans (List.append_nil _)
  unfold LedgerState.enqueue
  cases hsend : s.channel.trySend entry with
  | some channel => exact ⟨hsent ▸ h.accounts.send hsend, h.labels, fun i => hown i ▸ h.sinks i, h.idle, h.errors⟩
  | none => exact ⟨hsent ▸ h.accounts.refuse entry, h.labels, fun i => hown i ▸ h.sinks i, h.idle, h.errors⟩

theorem LedgerInv.recv (h : LedgerInv store evs s) (hs : s.step .recv = some t) :
    LedgerInv store (evs ++ [.recv]) t := by
  obtain ⟨hwriting, entry, channel, hrecv, rfl⟩ := step_recv hs
  have hsent : enqueued (evs ++ [.recv]) = enqueued evs := (enqueued_snoc _ _).trans (List.append_nil _)
  refine ⟨hsent ▸ h.accounts.recv hrecv, ?_, ?_, nofun, ?_⟩
  · rw [← h.labels]
    exact List.map_map
  · intro i sink hi
    obtain ⟨old, hold, rfl⟩ : ∃ old, s.sinks[i]? = some old ∧ old.await = sink := by
      simpa [LedgerState.take] using hi
    have hown : outcomes i (evs ++ [.recv]) = outcomes i evs := (outcomes_snoc i _ _).trans (List.append_nil _)
    exact hown ▸ (h.sinks i old hold).await (h.idle hwriting old (List.mem_of_getElem? hold))
  · intro label
    refine (h.errors label).trans ?_
    unfold errorsOf
    rw [LedgerState.take, List.filter_map, List.map_map]
    rfl

/-- A step that replaces one sink, keeping its label. -/
theorem LedgerInv.replace (h : LedgerInv store evs s) (ev : LedgerEvent α) {entry : α} {i : Nat} {old new : Sink α}
    (hev : ev.entry = none) (hother : ∀ j, j ≠ i → ev.outcome j = none) (hwriting : s.writing = some entry)
    (hold : s.sinks[i]? = some old) (hlabel : new.label = old.label)
    (hnew : new.Reports (some entry) s.taken (outcomes i (evs ++ [ev]))) {errors : String → Nat}
    (herrors : ∀ label, errors label = errorsOf label (s.sinks.set i new)) :
    LedgerInv store (evs ++ [ev]) { s with sinks := s.sinks.set i new, ledgerErrors := errors } := by
  have hsent : enqueued (evs ++ [ev]) = enqueued evs := by
    rw [enqueued_snoc, hev]
    exact List.append_nil _
  refine ⟨hsent ▸ h.accounts, (Slots.map_set hold hlabel).trans h.labels, ?_, ?_, herrors⟩
  · intro j sink hj
    rcases Slots.of_set hj with ⟨rfl, rfl⟩ | ⟨hne, hj⟩
    · exact hwriting ▸ hnew
    · rw [outcomes_snoc, hother j hne]
      exact (List.append_nil (outcomes j evs)).symm ▸ h.sinks j sink hj
  · intro hnone
    cases hwriting.symm.trans hnone

theorem LedgerInv.call (h : LedgerInv store evs s) {i : Nat} (hs : s.step (.call i) = some t) :
    LedgerInv store (evs ++ [.call i]) t := by
  obtain ⟨entry, old, hwriting, hold, hphase, rfl⟩ := step_call hs
  have hreports := hwriting ▸ h.sinks i old hold
  have hlabel : (old.call entry).label = old.label := rfl
  refine h.replace (.call i) rfl (fun _ _ => rfl) hwriting hold hlabel ?_ ?_
  · rw [outcomes_snoc]
    exact (List.append_nil (outcomes i evs)).symm ▸ hreports.call hphase
  · intro label
    rw [h.errors label, @errorsOf_set α label (old.call entry) old 0 hlabel rfl s.sinks i hold, ite_self,
      Nat.add_zero]

theorem LedgerInv.answer (h : LedgerInv store evs s) {i : Nat} {ok : Bool} (hs : s.step (.answer i ok) = some t) :
    LedgerInv store (evs ++ [.answer i ok]) t := by
  obtain ⟨entry, old, hwriting, hold, hphase, rfl⟩ := step_answer hs
  have hreports := hwriting ▸ h.sinks i old hold
  refine h.replace (.answer i ok) rfl (fun j hj => if_neg (Ne.symm hj)) hwriting hold ?_ ?_ ?_
  · cases ok <;> rfl
  · rw [outcomes_snoc, LedgerEvent.outcome, if_pos rfl]
    exact hreports.answer hphase ok
  · intro label
    cases ok with
    | true =>
      rw [@errorsOf_set α label (old.answer entry true) old 0 rfl rfl s.sinks i hold, ← h.errors label, ite_self]
      rfl
    | false =>
      rw [@errorsOf_set α label (old.answer entry false) old 1 rfl rfl s.sinks i hold, ← h.errors label]
      show s.ledgerError old.label label = _
      unfold LedgerState.ledgerError
      split <;> rfl

theorem LedgerInv.recorded (h : LedgerInv store evs s) (hs : s.step .recorded = some t) :
    LedgerInv store (evs ++ [.recorded]) t := by
  obtain ⟨hdone, rfl⟩ := step_recorded hs
  have hsent : enqueued (evs ++ [.recorded]) = enqueued evs := (enqueued_snoc _ _).trans (List.append_nil _)
  refine ⟨hsent ▸ h.accounts, h.labels, fun i sink hi => ?_, fun _ => hdone, h.errors⟩
  have hown : outcomes i (evs ++ [.recorded]) = outcomes i evs := (outcomes_snoc i _ _).trans (List.append_nil _)
  exact hown ▸ (h.sinks i sink hi).recorded (hdone sink (List.mem_of_getElem? hi))

theorem LedgerInv.step (h : LedgerInv store evs s) {ev : LedgerEvent α} (hs : s.step ev = some t) :
    LedgerInv store (evs ++ [ev]) t := by
  cases ev with
  | enqueue entry =>
    cases hs
    exact h.enqueue entry
  | recv => exact h.recv hs
  | call i => exact h.call hs
  | answer i ok => exact h.answer hs
  | recorded => exact h.recorded hs

end

/-! ## Runs -/

section
variable {store : LedgerStore} {capacity : Nat} {s₀ s : LedgerState α} {evs : List (LedgerEvent α)}

theorem ledgerInv_spawn (h : spawn store capacity = some s₀) : LedgerInv store [] s₀ := by
  unfold spawn at h
  split at h
  · cases h
  · cases h
    refine ⟨Channel.accounts_new capacity, ?_, ?_, ?_, ?_⟩
    · rw [List.map_map]
      exact List.map_id _
    · intro i sink hi
      obtain ⟨label, -, rfl⟩ : ∃ label, store.labels[i]? = some label ∧ ({ label } : Sink α) = sink := by
        simpa using hi
      exact ⟨⟨rfl, rfl⟩, rfl, rfl⟩
    · intro _ sink hsink
      obtain ⟨label, -, rfl⟩ := List.mem_map.mp hsink
      rfl
    · intro label
      exact (errorsOf_fresh label store.labels).symm

theorem ledgerInv_run (hspawn : spawn store capacity = some s₀) (hrun : runLedger s₀ evs = some s) :
    LedgerInv store evs s :=
  Steps.foldlM_inv (ledgerInv_spawn hspawn) (fun _ _ _ _ h hs => h.step hs) evs s hrun

theorem LedgerInv.ledgerAccounts (h : LedgerInv store evs s) : LedgerAccounts store evs s where
  kept := h.accounts.kept
  dropped := h.accounts.count
  sinks := h.labels
  offered sink hsink := by
    obtain ⟨i, hi⟩ := List.getElem?_of_mem hsink
    exact (h.sinks i sink hi).offered_cases
  idle hwriting sink hsink := by
    obtain ⟨i, hi⟩ := List.getElem?_of_mem hsink
    rcases (h.sinks i sink hi).offered_cases with heq | ⟨entry, hentry, _⟩
    · exact heq
    · cases hwriting.symm.trans hentry
  accepted i sink hi := (h.sinks i sink hi).accepted
  failures i sink hi := (h.sinks i sink hi).failures
  errors := h.errors

/-! ## The writer finishes -/

def SinkPhase.left : SinkPhase → Nat
  | .waiting => 2
  | .called => 1
  | .answered => 0

def pending (sinks : List (Sink α)) : Nat := (sinks.map (·.phase.left)).sum

theorem pending_set {new old : Sink α} (h : new.phase.left + 1 = old.phase.left) :
    ∀ {sinks : List (Sink α)} {i : Nat}, sinks[i]? = some old → pending (sinks.set i new) + 1 = pending sinks
  | [], i, hi => by cases hi
  | sink :: sinks, 0, hi => by
    obtain rfl : sink = old := Option.some.inj hi
    simp only [pending, List.set_cons_zero, List.map_cons, List.sum_cons]
    omega
  | sink :: sinks, i + 1, hi => by
    have ih := @pending_set new old h sinks i hi
    simp only [pending, List.set_cons_succ, List.map_cons, List.sum_cons] at ih ⊢
    omega

theorem pending_eq_zero {sinks : List (Sink α)} (h : pending sinks = 0) : ∀ sink ∈ sinks, sink.phase = .answered := by
  induction sinks with
  | nil => nofun
  | cons first rest ih =>
    simp only [pending, List.map_cons, List.sum_cons] at ih h
    intro sink hsink
    rcases List.mem_cons.mp hsink with rfl | hrest
    · have hzero : sink.phase.left = 0 := by omega
      cases hphase : sink.phase with
      | answered => rfl
      | _ => simp [hphase, SinkPhase.left] at hzero
    · exact ih (by omega) sink hrest

theorem pending_answered {sinks : List (Sink α)} (h : ∀ sink ∈ sinks, sink.phase = .answered) : pending sinks = 0 := by
  induction sinks with
  | nil => rfl
  | cons first rest ih =>
    have hrest := ih fun sink hsink => h sink (List.mem_cons_of_mem _ hsink)
    unfold pending at hrest ⊢
    rw [List.map_cons, List.sum_cons, hrest, h first List.mem_cons_self]
    rfl

/-- Whatever the sinks answer, the writer gets done with the entry it is at. -/
theorem write_finishes (ok : Nat → Bool) : ∀ (n : Nat) (s : LedgerState α) (entry : α), s.writing = some entry →
    pending s.sinks = n → ∃ more t, runLedger s more = some t ∧ (∀ i b, .answer i b ∈ more → b = ok i) ∧
      t.writing = none ∧ t.taken = s.taken ∧ t.channel = s.channel
  | 0, s, entry, hwriting, hn => by
    refine ⟨[.recorded], { s with writing := none }, ?_, by simp, rfl, rfl, rfl⟩
    have hall : s.sinks.all (·.phase == .answered) = true := by
      simpa using pending_eq_zero hn
    simp [runLedger, LedgerState.step, hwriting, hall]
  | n + 1, s, entry, hwriting, hn => by
    obtain ⟨sink, hsink, hphase⟩ : ∃ sink ∈ s.sinks, sink.phase ≠ .answered := by
      by_contra hnone
      have hzero : pending s.sinks = 0 := pending_answered fun sink hsink => by
        by_contra hne
        exact hnone ⟨sink, hsink, hne⟩
      omega
    obtain ⟨i, hi⟩ := List.getElem?_of_mem hsink
    cases hp : sink.phase with
    | answered => exact absurd hp hphase
    | waiting =>
      have hleft := @pending_set α (sink.call entry) sink (by rw [hp]; rfl) s.sinks i hi
      obtain ⟨more, t, hrun, hok, hrest⟩ := write_finishes ok n
        { s with sinks := s.sinks.set i (sink.call entry) } entry hwriting (by simp only; omega)
      refine ⟨.call i :: more, t, ?_, ?_, hrest⟩
      · simpa [runLedger, LedgerState.step, hwriting, hi, hp] using hrun
      · intro j b hb
        exact hok j b (by simpa using hb)
    | called =>
      have hleft := @pending_set α (sink.answer entry (ok i)) sink (by rw [hp]; cases ok i <;> rfl)
        s.sinks i hi
      obtain ⟨more, t, hrun, hok, hrest⟩ := write_finishes ok n (s.answer i sink entry (ok i)) entry hwriting
        (by simp only [LedgerState.answer]; omega)
      refine ⟨.answer i (ok i) :: more, t, ?_, ?_, hrest⟩
      · simpa [runLedger, LedgerState.step, hwriting, hi, hp] using hrun
      · intro j b hb
        rcases List.mem_cons.mp hb with heq | hb
        · cases heq
          rfl
        · exact hok j b hb

end

/-! ## Configured sinks -/

theorem addBackend_nodup {out next : List LedgerBackend} {name : String} (hn : out.Nodup)
    (h : addBackend out name = .ok next) : next.Nodup := by
  unfold addBackend at h
  split at h
  · cases h
    exact hn
  · split at h
    · cases h
    · rename_i b _
      split at h
      · cases h
      · rename_i hb
        cases h
        rw [← List.concat_eq_append]
        exact hn.concat hb

theorem parseLedgerBackends_nodup {names : List String} {backends : List LedgerBackend}
    (h : parseLedgerBackends names = .ok backends) : backends.Nodup := by
  unfold parseLedgerBackends at h
  obtain ⟨out, hfold, h⟩ := Fallible.of_bind_ok h
  split at h
  · cases h
  · cases h
    exact Fallible.keep_of_foldlM_ok (fun _ _ _ => addBackend_nodup) List.nodup_nil hfold

theorem label_injective {a b : LedgerBackend} (h : a.label = b.label) : a = b := by
  cases a <;> cases b <;> first | rfl | (revert h; decide)

theorem buildStore_nodup {backends : List LedgerBackend} (h : backends.Nodup) (connects : LedgerBackend → Bool) :
    (buildStore backends connects).labels.Nodup := by
  have hlabels : ((backends.filter connects).map LedgerBackend.label).Nodup :=
    (h.filter connects).map fun _ _ => label_injective
  unfold buildStore
  split
  · exact List.nodup_nil
  · exact List.nodup_singleton _
  · exact hlabels

/-! ## The accounts of a run -/

theorem LedgerAccounts.own {store : LedgerStore} {evs : List (LedgerEvent α)} {s : LedgerState α}
    (h : LedgerAccounts store evs s) (hn : store.labels.Nodup) {i : Nat} {sink : Sink α} (hi : s.sinks[i]? = some sink) :
    s.ledgerErrors sink.label = (outcomes i evs).count false := by
  rw [h.errors, errorsOf_own (h.sinks ▸ hn) (List.mem_of_getElem? hi), h.failures i sink hi]

theorem ledger_accounts {store : LedgerStore} {capacity : Nat} {s₀ s : LedgerState α} {evs : List (LedgerEvent α)}
    (hspawn : spawn store capacity = some s₀) (hrun : runLedger s₀ evs = some s) :
    LedgerAccounts store evs s ∧
      (∀ names backends connects, parseLedgerBackends names = .ok backends → store = buildStore backends connects →
        ∀ (i : Nat) (sink : Sink α), s.sinks[i]? = some sink →
          s.ledgerErrors sink.label = (outcomes i evs).count false) ∧
      ∀ (ok : Nat → Bool) (entry : α), s.writing = some entry → ∃ more t, runLedger s more = some t ∧
        (∀ i b, .answer i b ∈ more → b = ok i) ∧ t.writing = none ∧ t.taken = s.taken ∧ t.channel = s.channel := by
  have haccounts := (ledgerInv_run hspawn hrun).ledgerAccounts
  refine ⟨haccounts, ?_, ?_⟩
  · rintro names backends connects hparse rfl i sink hi
    exact haccounts.own (buildStore_nodup (parseLedgerBackends_nodup hparse) connects) hi
  · intro ok entry hwriting
    exact write_finishes ok _ s entry hwriting rfl

/-- Three entries through a queue of one, with a sink that fails. -/
def burst : List (LedgerEvent Nat) :=
  [.enqueue 1, .enqueue 2, .recv, .enqueue 3, .call 1, .call 0, .answer 0 false, .answer 1 true, .recorded, .recv]

theorem ledger_accounts_burst : ∃ s₀ s : LedgerState Nat,
    spawn (buildStore [.sqlite, .postgres] fun _ => true) 1 = some s₀ ∧ runLedger s₀ burst = some s ∧
      s.taken = [1, 3] ∧ s.ledgerDropped = 1 ∧ LedgerAccounts (.fanout ["sqlite", "postgres"]) burst s ∧
      ∀ (i : Nat) (sink : Sink Nat), s.sinks[i]? = some sink →
        s.ledgerErrors sink.label = (outcomes i burst).count false := by
  refine ⟨_, _, rfl, rfl, rfl, rfl, ?_⟩
  obtain ⟨haccounts, hown, -⟩ := @ledger_accounts Nat (buildStore [.sqlite, .postgres] fun _ => true) 1 _ _ burst rfl rfl
  exact ⟨haccounts, hown ["sqlite", "", "postgres"] [.sqlite, .postgres] (fun _ => true) (by decide) rfl⟩

end SynapseGateway
