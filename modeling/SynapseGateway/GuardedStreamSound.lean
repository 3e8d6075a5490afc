import SynapseGateway.GuardedStream

/-!
# The guarded stream's protocol

What a stream has yielded after any number of polls is determined by the
upstream events it has consumed: the calls they make on the output guard, and
the items between them. The poll schedule and the queue do not show.
-/

namespace SynapseGateway

open Utf8

abbrev Event := Option (Except LegError StreamItem)

def Poll.event : Poll → Option Event
  | .pending => none
  | .item r => some (some r)
  | .finished => some none

def Poll.yield : Poll → Option (Except LegError StreamItem)
  | .item r => some r
  | _ => none

section
variable (llm : LlmGuard) (eng : GuardEngine)

/-- The call an event makes on the output guard: its release, and the guard
after it. Without a guard a delta is released as it is. -/
def guardCall (output : Option OutputGuard) (ev : Event) : Release × Option OutputGuard :=
  match output, ev with
  | none, some (.ok (.delta t)) => (.text t, none)
  | none, _ => (.text [], none)
  | some g, some (.ok (.delta t)) => ((g.push llm eng t).release, some (g.push llm eng t).next)
  | some g, some _ => ((g.flush llm eng).release, some (g.flush llm eng).next)
  | some g, none => ((g.finish llm eng).release, some (g.finish llm eng).next)

def guardCalls : Option OutputGuard → List Event → List (Event × Release)
  | _, [] => []
  | output, ev :: evs => (ev, (guardCall llm eng output ev).1) :: guardCalls (guardCall llm eng output ev).2 evs

def guardAfter : Option OutputGuard → List Event → Option OutputGuard
  | output, [] => output
  | output, ev :: evs => guardAfter (guardCall llm eng output ev).2 evs

end

/-! ## Items and the text between them -/

/-- A yielded sequence as its items that are not text, each after the text
since the item before it, and the text after the last. `t` is the text so far. -/
def segmentsFrom : Text → List (Except LegError StreamItem) → List (Text × Except LegError StreamItem) × Text
  | t, [] => ([], t)
  | t, .ok (.delta u) :: l => segmentsFrom (t ++ u) l
  | t, x :: l => ((t, x) :: (segmentsFrom [] l).1, (segmentsFrom [] l).2)

/-- The same for the events of an upstream, with the text the guard released. -/
def releasedFrom : Text → List (Event × Release) → List (Text × Except LegError StreamItem) × Text
  | t, [] => ([], t)
  | t, (some (.ok (.delta _)), r) :: l => releasedFrom (t ++ r.released) l
  | t, (none, r) :: l => releasedFrom (t ++ r.released) l
  | t, (some x, r) :: l => ((t ++ r.released, x) :: (releasedFrom [] l).1, (releasedFrom [] l).2)

theorem segmentsFrom_append (l₁ : List (Except LegError StreamItem)) {l₂ : List (Except LegError StreamItem)}
    {t : Text} : segmentsFrom t (l₁ ++ l₂) =
      ((segmentsFrom t l₁).1 ++ (segmentsFrom (segmentsFrom t l₁).2 l₂).1,
        (segmentsFrom (segmentsFrom t l₁).2 l₂).2) := by
  induction l₁ generalizing t with
  | nil => rfl
  | cons x l₁ ih =>
    cases x with
    | error e => simp only [List.cons_append, segmentsFrom, ih]
    | ok item => cases item <;> simp only [List.cons_append, segmentsFrom, ih]

theorem releasedFrom_append (l₁ : List (Event × Release)) {l₂ : List (Event × Release)} {t : Text} :
    releasedFrom t (l₁ ++ l₂) =
      ((releasedFrom t l₁).1 ++ (releasedFrom (releasedFrom t l₁).2 l₂).1,
        (releasedFrom (releasedFrom t l₁).2 l₂).2) := by
  induction l₁ generalizing t with
  | nil => rfl
  | cons x l₁ ih =>
    obtain ⟨ev, r⟩ := x
    rcases ev with _ | _ | item
    · simp only [List.cons_append, releasedFrom, ih]
    · simp only [List.cons_append, releasedFrom, ih]
    · cases item <;> simp only [List.cons_append, releasedFrom, ih]

def queued (output : Option OutputGuard) (ev : Event) (t : Text) : List (Except LegError StreamItem) :=
  match output, ev with
  | none, ev => ev.toList
  | some _, ev => (if t.isEmpty then [] else [.ok (.delta t)]) ++
    match ev with
    | some (.ok (.delta _)) => []
    | ev => ev.toList

theorem segmentsFrom_queued {llm : LlmGuard} {eng : GuardEngine} {output : Option OutputGuard} {ev : Event} {t u : Text}
    (h : (guardCall llm eng output ev).1 = .text t) :
    segmentsFrom u (queued output ev t) = releasedFrom u [(ev, .text t)] := by
  cases output with
  | none =>
    match ev with
    | none => cases h; simp [queued, segmentsFrom, releasedFrom, Release.released]
    | some (.error e) => cases h; simp [queued, segmentsFrom, releasedFrom, Release.released]
    | some (.ok item) =>
      cases item <;> cases h <;> simp [queued, segmentsFrom, releasedFrom, Release.released]
  | some g =>
    clear h
    by_cases ht : t = []
    · subst ht
      match ev with
      | none => simp [queued, segmentsFrom, releasedFrom, Release.released]
      | some (.error e) => simp [queued, segmentsFrom, releasedFrom, Release.released]
      | some (.ok item) => cases item <;> simp [queued, segmentsFrom, releasedFrom, Release.released]
    · have ht' : t.isEmpty = false := by simpa using ht
      match ev with
      | none => simp [queued, segmentsFrom, releasedFrom, Release.released, ht']
      | some (.error e) => simp [queued, segmentsFrom, releasedFrom, Release.released, ht']
      | some (.ok item) => cases item <;> simp [queued, segmentsFrom, releasedFrom, Release.released, ht']

/-! ## One event -/

section
variable {llm : LlmGuard} {eng : GuardEngine}

def StreamSideEffects.note (e : StreamSideEffects) : Event → StreamSideEffects
  | some (.ok item) => e.observe item
  | some (.error _) => e.markError
  | none => e

theorem receive_passes {s : GuardedStream} {ev : Event} {t : Text} (hs : s.ended = false)
    (h : (guardCall llm eng s.output ev).1 = .text t) :
    s.receive llm eng ev = { s with
      guard := s.guard.note ev
      output := (guardCall llm eng s.output ev).2
      queue := s.queue ++ queued s.output ev t
      ended := ev.isNone } := by
  obtain ⟨inner, guard, policy, output, queue, ended⟩ := s
  subst hs
  cases output with
  | none =>
    match ev with
    | none => simp [GuardedStream.receive, GuardedStream.releaseHeld, queued, guardCall, StreamSideEffects.note]
    | some (.error e) =>
      simp [GuardedStream.receive, GuardedStream.fail, GuardedStream.releaseHeld, queued, guardCall,
        StreamSideEffects.note]
    | some (.ok item) =>
      cases item <;> simp [GuardedStream.receive, GuardedStream.screen, queued, guardCall, StreamSideEffects.note]
  | some g =>
    match ev with
    | none =>
      simp only [guardCall] at h
      simp only [GuardedStream.receive, GuardedStream.releaseHeld, h, GuardedStream.pushText, queued, guardCall]
      split <;> simp [StreamSideEffects.note, *]
    | some (.error e) =>
      simp only [guardCall] at h
      simp only [GuardedStream.receive, GuardedStream.fail, GuardedStream.releaseHeld, h, GuardedStream.pushText,
        queued, guardCall]
      split <;> simp [StreamSideEffects.note, *]
    | some (.ok item) =>
      cases item <;>
      · simp only [guardCall] at h
        simp only [GuardedStream.receive, GuardedStream.screen, h, GuardedStream.pushText, queued, guardCall]
        split <;> simp [StreamSideEffects.note, *]

theorem receive_blocks {s : GuardedStream} {ev : Event} {scanners : List String}
    (h : (guardCall llm eng s.output ev).1 = .blocked scanners) :
    s.receive llm eng ev = {
      inner := []
      guard := (s.guard.note ev).markBlocked
      policy := s.policy
      output := (guardCall llm eng s.output ev).2
      queue := s.queue ++ [.ok (.done (s.guard.note ev).inputTokens (s.guard.note ev).outputTokens .contentFilter),
        .ok (.blocked s.policy scanners)]
      ended := true } := by
  obtain ⟨inner, guard, policy, output, queue, ended⟩ := s
  cases output with
  | none =>
    match ev with
    | none => cases h
    | some (.error e) => cases h
    | some (.ok item) => cases item <;> cases h
  | some g =>
    match ev with
    | none =>
      simp only [guardCall] at h
      simp only [GuardedStream.receive, GuardedStream.releaseHeld, h, GuardedStream.block, guardCall]
      rfl
    | some (.error e) =>
      simp only [guardCall] at h
      simp only [GuardedStream.receive, GuardedStream.fail, GuardedStream.releaseHeld, h, GuardedStream.block, guardCall]
      rfl
    | some (.ok item) =>
      cases item <;>
      · simp only [guardCall] at h
        simp only [GuardedStream.receive, GuardedStream.screen, h, GuardedStream.block, guardCall]
        rfl

theorem receive_inner {s : GuardedStream} {ev : Event} (hs : s.ended = false)
    (h : (s.receive llm eng ev).ended = false) : (s.receive llm eng ev).inner = s.inner := by
  cases hr : (guardCall llm eng s.output ev).1 with
  | text t => rw [receive_passes hs hr]
  | blocked scanners => rw [receive_blocks hr] at h; cases h

/-! ## Runs of events -/

theorem guardCalls_append (output : Option OutputGuard) (c rest : List Event) :
    guardCalls llm eng output (c ++ rest) =
      guardCalls llm eng output c ++ guardCalls llm eng (guardAfter llm eng output c) rest := by
  induction c generalizing output with
  | nil => rfl
  | cons x c ih => simp only [List.cons_append, guardCalls, guardAfter, ih]

theorem guardCalls_snoc (output : Option OutputGuard) (c : List Event) (ev : Event) :
    guardCalls llm eng output (c ++ [ev]) =
      guardCalls llm eng output c ++ [(ev, (guardCall llm eng (guardAfter llm eng output c) ev).1)] :=
  guardCalls_append output c [ev]

theorem guardAfter_snoc (output : Option OutputGuard) (c : List Event) (ev : Event) :
    guardAfter llm eng output (c ++ [ev]) = (guardCall llm eng (guardAfter llm eng output c) ev).2 := by
  induction c generalizing output with
  | nil => rfl
  | cons x c ih => simp only [List.cons_append, guardAfter, ih]

def Passing (llm : LlmGuard) (eng : GuardEngine) (output : Option OutputGuard) (c : List Event) : Prop :=
  ∀ x ∈ guardCalls llm eng output c, x.2.isBlocked = false

variable (llm eng) in
/-- From `s₀`, the events `c` were consumed without a block and `e` was yielded. -/
structure GuardedStream.Flows (s₀ s : GuardedStream) (c : List Event) (e : List (Except LegError StreamItem)) :
    Prop where
  passing : Passing llm eng s₀.output c
  output : s.output = guardAfter llm eng s₀.output c
  guard : s.guard = c.foldl StreamSideEffects.note s₀.guard
  policy : s.policy = s₀.policy
  segments : segmentsFrom [] (e ++ s.queue) = releasedFrom [] (guardCalls llm eng s₀.output c)

variable (llm eng) in
/-- From `s₀`, the events `before` were consumed without a block, then `ev`
blocked with `scanners`; `e` was yielded, and all that is left to yield is the
rest of what came before the block, a `Done` and the `Blocked` item. -/
structure GuardedStream.Stops (s₀ s : GuardedStream) (before : List Event) (ev : Event) (scanners : List String)
    (e : List (Except LegError StreamItem)) : Prop where
  passing : Passing llm eng s₀.output before
  blocks : (guardCall llm eng (guardAfter llm eng s₀.output before) ev).1 = .blocked scanners
  guard : s.guard = ((before ++ [ev]).foldl StreamSideEffects.note s₀.guard).markBlocked
  yields : ∃ out, e ++ s.queue = out ++ [.ok (.done s.guard.inputTokens s.guard.outputTokens .contentFilter),
      .ok (.blocked s₀.policy scanners)] ∧
    segmentsFrom [] out = releasedFrom [] (guardCalls llm eng s₀.output before)
  ended : s.ended = true
  inner : s.inner = []

def Upstream.events (inner : Upstream) : List Event := (inner.filterMap id).map some ++ [none]

variable (llm eng) in
/-- The invariant of a stream that consumed `c` and yielded `e`. -/
structure GuardedStream.Inv (s₀ s : GuardedStream) (c : List Event) (e : List (Except LegError StreamItem)) :
    Prop where
  upstream : ∃ rest, Upstream.events s₀.inner = c ++ rest ∧ (s.ended = false → rest = Upstream.events s.inner)
  state : GuardedStream.Flows llm eng s₀ s c e ∧ (s.ended = true → c = Upstream.events s₀.inner) ∨
    ∃ before ev scanners, c = before ++ [ev] ∧ GuardedStream.Stops llm eng s₀ s before ev scanners e

variable {s₀ s : GuardedStream} {c : List Event} {e : List (Except LegError StreamItem)}

theorem GuardedStream.Flows.receive (h : GuardedStream.Flows llm eng s₀ s c e) (hs : s.ended = false) (hq : s.queue = [])
    (ev : Event) :
    (GuardedStream.Flows llm eng s₀ (s.receive llm eng ev) (c ++ [ev]) e ∧
        (s.receive llm eng ev).inner = s.inner ∧ (s.receive llm eng ev).ended = ev.isNone) ∨
      ∃ scanners, GuardedStream.Stops llm eng s₀ (s.receive llm eng ev) c ev scanners e := by
  have hseg := h.segments
  rw [hq, List.append_nil] at hseg
  cases hr : (guardCall llm eng s.output ev).1 with
  | text t =>
    left
    rw [receive_passes hs hr]
    refine ⟨⟨?_, ?_, ?_, h.policy, ?_⟩, rfl, rfl⟩
    · intro x hx
      rw [guardCalls_snoc, ← h.output, hr] at hx
      rcases List.mem_append.mp hx with hx | hx
      · exact h.passing x hx
      · rw [List.mem_singleton.mp hx]
        rfl
    · rw [guardAfter_snoc, ← h.output]
    · rw [List.foldl_append, ← h.guard]
      rfl
    · rw [guardCalls_snoc, ← h.output, hr, releasedFrom_append]
      show segmentsFrom [] (e ++ (s.queue ++ queued s.output ev t)) = _
      rw [hq, List.nil_append, segmentsFrom_append, hseg, segmentsFrom_queued hr]
  | blocked scanners =>
    right
    rw [receive_blocks hr]
    refine ⟨scanners, h.passing, ?_, ?_, ⟨e, ?_, hseg⟩, rfl, rfl⟩
    · rw [← h.output, hr]
    · show (s.guard.note ev).markBlocked = _
      rw [List.foldl_append, ← h.guard]
      rfl
    · rw [hq, h.policy]
      rfl

theorem GuardedStream.Stops.pop {before : List Event} {ev : Event} {scanners : List String} {r : Except LegError StreamItem}
    {q : List (Except LegError StreamItem)} (h : GuardedStream.Stops llm eng s₀ s before ev scanners e)
    (hq : s.queue = r :: q) :
    GuardedStream.Stops llm eng s₀ { s with queue := q } before ev scanners (e ++ [r]) := by
  refine ⟨h.passing, h.blocks, h.guard, ?_, h.ended, h.inner⟩
  have := h.yields
  rwa [hq, List.append_cons] at this

theorem GuardedStream.Inv.pop {r : Except LegError StreamItem} {q : List (Except LegError StreamItem)}
    (h : GuardedStream.Inv llm eng s₀ s c e) (hq : s.queue = r :: q) :
    GuardedStream.Inv llm eng s₀ { s with queue := q } c (e ++ [r]) := by
  refine ⟨h.upstream, ?_⟩
  rcases h.state with ⟨hf, hend⟩ | ⟨before, ev, scanners, hc, hb⟩
  · left
    refine ⟨⟨hf.passing, hf.output, hf.guard, hf.policy, ?_⟩, hend⟩
    have := hf.segments
    rwa [hq, List.append_cons] at this
  · exact .inr ⟨before, ev, scanners, hc, hb.pop hq⟩

theorem GuardedStream.Inv.flows (h : GuardedStream.Inv llm eng s₀ s c e) (hs : s.ended = false) :
    GuardedStream.Flows llm eng s₀ s c e := by
  rcases h.state with ⟨hf, -⟩ | ⟨before, ev, scanners, -, hb⟩
  · exact hf
  · rw [hb.ended] at hs
    cases hs

theorem Upstream.events_nil {inner : Upstream} {rest : List Event} (h : inner.events = none :: rest) : rest = [] := by
  unfold Upstream.events at h
  cases hi : inner.filterMap id with
  | nil => rw [hi] at h; simpa using h.symm
  | cons x l => rw [hi] at h; cases h

theorem GuardedStream.Inv.receive (h : GuardedStream.Inv llm eng s₀ s c e) (hs : s.ended = false) (hq : s.queue = [])
    {ev : Event} {rest : List Event} {I : Upstream} (hup : Upstream.events s.inner = ev :: rest)
    (hrest : ev.isNone = false → rest = Upstream.events I) :
    GuardedStream.Inv llm eng s₀ (GuardedStream.receive llm eng { s with inner := I } ev) (c ++ [ev]) e := by
  have hf := h.flows hs
  have hf' : GuardedStream.Flows llm eng s₀ { s with inner := I } c e :=
    ⟨hf.passing, hf.output, hf.guard, hf.policy, hf.segments⟩
  obtain ⟨tail, htail, hopen⟩ := h.upstream
  rw [hopen hs, hup, List.append_cons] at htail
  refine ⟨⟨rest, htail, ?_⟩, ?_⟩
  · intro hend
    rcases hf'.receive hs hq ev with ⟨-, hinner, hended⟩ | ⟨scanners, hb⟩
    · rw [hinner]
      exact hrest (hended ▸ hend)
    · rw [hb.ended] at hend
      cases hend
  · rcases hf'.receive hs hq ev with ⟨hflow, -, hended⟩ | ⟨scanners, hb⟩
    · refine .inl ⟨hflow, fun hend => ?_⟩
      rw [hended, Option.isNone_iff_eq_none] at hend
      rw [htail, Upstream.events_nil (hend ▸ hup : Upstream.events s.inner = none :: rest), List.append_nil]
    · exact .inr ⟨c, ev, scanners, rfl, hb⟩

variable (llm eng) in
theorem new_inv (inner : Upstream) (effects : StreamSideEffects) (policy : String) (output : Option OutputGuard) :
    GuardedStream.Inv llm eng (GuardedStream.new inner effects policy output)
      (GuardedStream.new inner effects policy output) [] [] :=
  ⟨⟨_, rfl, fun _ => rfl⟩, .inl ⟨⟨(fun _ hx => by cases hx), rfl, rfl, rfl, rfl⟩, fun hend => by cases hend⟩⟩

/-! ## One poll -/

theorem pollFrom_queue {r : Except LegError StreamItem} {q : List (Except LegError StreamItem)} (hq : s.queue = r :: q)
    (inner : Upstream) : s.pollFrom llm eng inner = ⟨.item r, { s with queue := q }, []⟩ := by
  unfold GuardedStream.pollFrom
  rw [hq]

theorem pollFrom_ended (hq : s.queue = []) (hs : s.ended = true) (inner : Upstream) :
    s.pollFrom llm eng inner = ⟨.finished, s, []⟩ := by
  unfold GuardedStream.pollFrom
  rw [hq]
  simp only [hs, if_true]

theorem pollFrom_nil (hq : s.queue = []) (hs : s.ended = false) :
    s.pollFrom llm eng [] = match (s.receive llm eng none).queue with
      | r :: q => ⟨.item r, { s.receive llm eng none with queue := q }, [.finished]⟩
      | [] => ⟨.finished, s.receive llm eng none, [.finished]⟩ := by
  obtain ⟨_, _, _, _, _, _⟩ := s
  subst hq hs
  rfl

theorem pollFrom_pending (hq : s.queue = []) (hs : s.ended = false) (inner : Upstream) :
    s.pollFrom llm eng (none :: inner) = ⟨.pending, { s with inner := inner }, [.pending]⟩ := by
  obtain ⟨_, _, _, _, _, _⟩ := s
  subst hq hs
  rfl

theorem pollFrom_item (hq : s.queue = []) (hs : s.ended = false) (r : Except LegError StreamItem) (inner : Upstream) :
    s.pollFrom llm eng (some r :: inner) =
      let p := GuardedStream.pollFrom llm eng inner (GuardedStream.receive llm eng { s with inner := inner } (some r))
      { p with upstream := .item r :: p.upstream } := by
  obtain ⟨_, _, _, _, _, _⟩ := s
  subst hq hs
  rfl

theorem pollFrom_inv : ∀ {inner : Upstream} {s : GuardedStream} {c : List Event},
    GuardedStream.Inv llm eng s₀ s c e → (s.ended = false → s.inner = inner) →
    GuardedStream.Inv llm eng s₀ (s.pollFrom llm eng inner).next
      (c ++ (s.pollFrom llm eng inner).upstream.filterMap Poll.event)
      (e ++ (s.pollFrom llm eng inner).poll.yield.toList) ∧
    ((s.pollFrom llm eng inner).poll.yield = none → (s.pollFrom llm eng inner).next.queue = [])
  | inner, s, c, h, hin => by
    cases hq : s.queue with
    | cons r q =>
      rw [pollFrom_queue hq]
      refine ⟨?_, fun hy => by cases hy⟩
      rw [List.filterMap_nil, List.append_nil]
      exact h.pop hq
    | nil =>
      by_cases hs : s.ended = true
      · rw [pollFrom_ended hq hs]
        exact ⟨by simpa [Poll.yield] using h, fun _ => hq⟩
      · rw [Bool.not_eq_true] at hs
        match inner with
        | [] =>
          have hup : Upstream.events s.inner = [none] := by rw [hin hs]; rfl
          have hr := h.receive hs hq (I := s.inner) hup (fun hn => by cases hn)
          change GuardedStream.Inv llm eng s₀ (s.receive llm eng none) (c ++ [none]) e at hr
          rw [pollFrom_nil hq hs]
          cases hq' : (s.receive llm eng none).queue with
          | cons r q => exact ⟨hr.pop hq', fun hy => by cases hy⟩
          | nil => exact ⟨by simpa [Poll.yield, Poll.event] using hr, fun _ => hq'⟩
        | none :: inner =>
          obtain ⟨rest, hrest, hopen⟩ := h.upstream
          have hf := h.flows hs
          rw [pollFrom_pending hq hs]
          simp only [Poll.yield, Option.toList_none, List.append_nil, List.filterMap_cons, Poll.event,
            List.filterMap_nil]
          refine ⟨⟨⟨rest, hrest, fun _ => ?_⟩, .inl ⟨⟨hf.passing, hf.output, hf.guard, hf.policy, hf.segments⟩,
            fun hend => by rw [hs] at hend; cases hend⟩⟩, fun _ => hq⟩
          rw [hopen hs, hin hs]
          rfl
        | some r :: inner =>
          have hup : Upstream.events s.inner = some r :: Upstream.events inner := by rw [hin hs]; rfl
          have hr := h.receive hs hq (I := inner) hup fun _ => rfl
          have ih := pollFrom_inv hr (receive_inner (s := { s with inner := inner }) hs)
          rw [pollFrom_item hq hs]
          simp only [List.filterMap_cons, Poll.event]
          rwa [List.append_cons]

/-! ## Many polls -/

def consumed (ps : List Polled) : List Event := (ps.flatMap (·.upstream)).filterMap Poll.event

def yielded (ps : List Polled) : List (Except LegError StreamItem) := ps.filterMap (·.poll.yield)

theorem polls_inv {n : Nat} {s : GuardedStream} {c : List Event} {e : List (Except LegError StreamItem)}
    (h : GuardedStream.Inv llm eng s₀ s c e) :
    GuardedStream.Inv llm eng s₀ (s.polls llm eng n).2 (c ++ consumed (s.polls llm eng n).1)
      (e ++ yielded (s.polls llm eng n).1) := by
  induction n generalizing s c e with
  | zero => simpa [GuardedStream.polls, consumed, yielded] using h
  | succ n ih =>
    have hp := (pollFrom_inv h fun _ => rfl).1
    have ih := ih hp
    have hy : ∀ (p : Polled) (ps : List Polled), yielded (p :: ps) = p.poll.yield.toList ++ yielded ps := by
      intro p ps
      cases hp : p.poll.yield <;> simp [yielded, hp]
    have hc : ∀ (p : Polled) (ps : List Polled), consumed (p :: ps) = p.upstream.filterMap Poll.event ++ consumed ps := by
      intro p ps
      simp [consumed]
    rw [GuardedStream.polls]
    simp only [hy, hc, ← List.append_assoc]
    exact ih

theorem polls_queue {n : Nat} {s : GuardedStream} {c : List Event} {e : List (Except LegError StreamItem)}
    (h : GuardedStream.Inv llm eng s₀ s c e) :
    ∀ p ∈ (s.polls llm eng n).1.getLast?, p.poll.yield = none → (s.polls llm eng n).2.queue = [] := by
  intro p hp hy
  induction n generalizing s c e with
  | zero => cases hp
  | succ n ih =>
    have hpoll := pollFrom_inv h fun _ => rfl
    rw [GuardedStream.polls] at hp ⊢
    simp only at hp ⊢
    rcases List.eq_nil_or_concat ((s.pollNext llm eng).next.polls llm eng n).1 with hnil | ⟨_, _, hcons⟩
    · rw [hnil] at hp
      obtain rfl : s.pollNext llm eng = p := by simpa using hp
      cases n with
      | zero => exact hpoll.2 hy
      | succ n => rw [GuardedStream.polls] at hnil; cases hnil
    · refine ih hpoll.1 ?_
      rw [hcons] at hp ⊢
      simpa [List.getLast?_cons] using hp

theorem polls_ended {m : Nat} {s : GuardedStream} (hs : s.ended = true) :
    (s.polls llm eng m).1.map (·.poll) = (s.queue.map Poll.item ++ List.replicate m Poll.finished).take m ∧
      ∀ p ∈ (s.polls llm eng m).1, p.upstream = [] := by
  induction m generalizing s with
  | zero => simp [GuardedStream.polls]
  | succ m ih =>
    rw [GuardedStream.polls]
    cases hq : s.queue with
    | cons r q =>
      have hp : s.pollNext llm eng = ⟨.item r, { s with queue := q }, []⟩ := pollFrom_queue hq s.inner
      obtain ⟨ih₁, ih₂⟩ := ih (s := { s with queue := q }) hs
      simp only [hp, List.map_cons, ih₁, List.cons_append, List.take_succ_cons, List.mem_cons, forall_eq_or_imp,
        true_and]
      refine ⟨?_, ih₂⟩
      have hm : m ≤ (q.map Poll.item ++ List.replicate m Poll.finished).length := by simp
      rw [List.replicate_succ', ← List.append_assoc, List.take_append_of_le_length hm]
    | nil =>
      have hp : s.pollNext llm eng = ⟨.finished, s, []⟩ := pollFrom_ended hq hs s.inner
      obtain ⟨ih₁, ih₂⟩ := ih hs
      rw [hq] at ih₁
      simp only [hp, List.map_cons, ih₁, List.map_nil, List.nil_append, List.mem_cons, forall_eq_or_imp, true_and]
      exact ⟨by simp [List.replicate_succ], ih₂⟩

/-! ## The row -/

def Event.isError : Event → Bool
  | some (.error _) => true
  | _ => false

theorem foldl_note_status {c : List Event} {e : StreamSideEffects} : (c.foldl StreamSideEffects.note e).status =
    if c.any Event.isError then "error" else e.status := by
  induction c generalizing e with
  | nil => rfl
  | cons ev c ih =>
    rw [List.foldl_cons, ih]
    rcases ev with _ | _ | item
    · simp [StreamSideEffects.note, Event.isError]
    · simp [StreamSideEffects.note, StreamSideEffects.markError, Event.isError]
    · cases item <;> simp [StreamSideEffects.note, StreamSideEffects.observe, Event.isError]

theorem foldl_note_fired {c : List Event} {e : StreamSideEffects} :
    (c.foldl StreamSideEffects.note e).fired = e.fired := by
  induction c generalizing e with
  | nil => rfl
  | cons ev c ih =>
    rw [List.foldl_cons, ih]
    rcases ev with _ | _ | item
    · rfl
    · rfl
    · cases item <;> rfl

theorem drop_row {e : StreamSideEffects} (h : e.fired = false) :
    ∃ row, e.drop.1 = [row] ∧ row.op = "chat" ∧ row.status = e.status := by
  unfold StreamSideEffects.drop
  rw [h]
  exact ⟨_, rfl, rfl, rfl⟩

theorem Passing.append_inv {output : Option OutputGuard} {ev : Event} {scanners : List String} {before : List Event}
    (hp : Passing llm eng output before)
    (hb : (guardCall llm eng (guardAfter llm eng output before) ev).1 = .blocked scanners) {x : Event × Release}
    (hx : x ∈ guardCalls llm eng output (before ++ [ev])) (hx' : x.2.isBlocked = true) :
    x = (ev, .blocked scanners) := by
  rw [guardCalls_snoc, hb] at hx
  rcases List.mem_append.mp hx with hx | hx
  · rw [hp x hx] at hx'
    cases hx'
  · exact List.mem_singleton.mp hx

/-! ## Polling to the end -/

theorem pollFrom_le : ∀ {inner : Upstream} {s : GuardedStream}, (s.ended = false → s.inner = inner) →
    (s.pollFrom llm eng inner).next.ended = true ∨
      (s.pollFrom llm eng inner).next.inner.length ≤ inner.length
  | inner, s, hin => by
    by_cases hs : s.ended = true
    · left
      cases hq : s.queue with
      | cons r q => rw [pollFrom_queue hq]; exact hs
      | nil => rw [pollFrom_ended hq hs]; exact hs
    · rw [Bool.not_eq_true] at hs
      cases hq : s.queue with
      | cons r q =>
        rw [pollFrom_queue hq]
        exact .inr (Nat.le_of_eq (congrArg _ (hin hs)))
      | nil =>
        match inner with
        | [] =>
          rw [pollFrom_nil hq hs]
          left
          cases (s.receive llm eng none).queue <;> rfl
        | none :: inner =>
          rw [pollFrom_pending hq hs]
          exact .inr (Nat.le_succ _)
        | some r :: inner =>
          rw [pollFrom_item hq hs]
          rcases pollFrom_le (receive_inner (s := { s with inner := inner }) hs) with h | h
          · exact .inl h
          · exact .inr (Nat.le_succ_of_le h)

variable (llm eng) in
theorem pollNext_progress (hq : s.queue = []) (hs : s.ended = false) :
    (s.pollNext llm eng).next.ended = true ∨ (s.pollNext llm eng).next.inner.length < s.inner.length := by
  unfold GuardedStream.pollNext
  match hi : s.inner with
  | [] =>
    rw [pollFrom_nil hq hs]
    left
    cases (s.receive llm eng none).queue <;> rfl
  | none :: inner =>
    rw [pollFrom_pending hq hs]
    exact .inr (Nat.lt_succ_self _)
  | some r :: inner =>
    rw [pollFrom_item hq hs]
    rcases pollFrom_le (receive_inner (s := { s with inner := inner }) hs) with h | h
    · exact .inl h
    · exact .inr (Nat.lt_succ_of_le h)

variable (llm eng) in
theorem polls_drain {k : Nat} (s : GuardedStream) (hk : s.queue.length = k) :
    ∃ n, (s.polls llm eng n).2.queue = [] ∧ (s.polls llm eng n).2.ended = s.ended ∧
      (s.polls llm eng n).2.inner = s.inner := by
  induction k generalizing s with
  | zero => exact ⟨0, List.length_eq_zero_iff.mp hk, rfl, rfl⟩
  | succ k ih =>
    cases hq : s.queue with
    | nil => rw [hq] at hk; cases hk
    | cons r q =>
      have hp : s.pollNext llm eng = ⟨.item r, { s with queue := q }, []⟩ := pollFrom_queue hq s.inner
      rw [hq] at hk
      obtain ⟨n, h⟩ := ih { s with queue := q } (Nat.succ.inj hk)
      refine ⟨n + 1, ?_⟩
      rw [GuardedStream.polls]
      simpa only [hp] using h

theorem polls_add (n m : Nat) (s : GuardedStream) :
    (s.polls llm eng (n + m)).1 = (s.polls llm eng n).1 ++ ((s.polls llm eng n).2.polls llm eng m).1 ∧
      (s.polls llm eng (n + m)).2 = ((s.polls llm eng n).2.polls llm eng m).2 := by
  induction n generalizing s with
  | zero => rw [Nat.zero_add]; exact ⟨rfl, rfl⟩
  | succ n ih =>
    obtain ⟨ih₁, ih₂⟩ := ih (s.pollNext llm eng).next
    rw [Nat.succ_add, GuardedStream.polls, GuardedStream.polls]
    exact ⟨congrArg (List.cons _) ih₁, ih₂⟩

variable (llm eng) in
theorem polls_end : ∀ {k : Nat} (s : GuardedStream), s.inner.length ≤ k →
    ∃ n, (s.polls llm eng n).2.queue = [] ∧ (s.polls llm eng n).2.ended = true
  | k, s, hk => by
    obtain ⟨n, hq, hend, hin⟩ := polls_drain llm eng s rfl
    cases hs : s.ended with
    | true => exact ⟨n, hq, hend.trans hs⟩
    | false =>
      have hnext : ∀ s', ((s.polls llm eng n).2.pollNext llm eng).next = s' →
          ((s.polls llm eng n).2.polls llm eng 1).2 = s' := fun s' h => h
      rcases pollNext_progress llm eng hq (hend.trans hs) with h | h
      · obtain ⟨m, hq', hend', -⟩ := polls_drain llm eng ((s.polls llm eng n).2.pollNext llm eng).next rfl
        refine ⟨n + (1 + m), ?_⟩
        rw [(polls_add n (1 + m) s).2, (polls_add 1 m _).2, hnext _ rfl]
        exact ⟨hq', hend'.trans h⟩
      · rw [hin] at h
        match k with
        | 0 => omega
        | k + 1 =>
          obtain ⟨m, hm⟩ := polls_end ((s.polls llm eng n).2.pollNext llm eng).next (show _ ≤ k by omega)
          refine ⟨n + (1 + m), ?_⟩
          rw [(polls_add n (1 + m) s).2, (polls_add 1 m _).2, hnext _ rfl]
          exact hm

/-! ## What a poll answers for -/

/-- What the upstream answers, read after read. -/
def Upstream.reads (inner : Upstream) : List Poll :=
  inner.map (fun r => match r with
    | none => .pending
    | some r => .item r) ++ [.finished]

variable (llm eng) in
/-- What the stream has read of its upstream is the beginning of what that answers. -/
structure GuardedStream.Reads (inner : Upstream) (s : GuardedStream) (read : List Poll) : Prop where
  prefix_reads : read <+: Upstream.reads inner
  rest : s.ended = false → Upstream.reads inner = read ++ Upstream.reads s.inner

theorem pollFrom_reads : ∀ {inner inner₀ : Upstream} {s : GuardedStream} {read : List Poll},
    GuardedStream.Reads inner₀ s read → (s.ended = false → s.inner = inner) →
    GuardedStream.Reads inner₀ (s.pollFrom llm eng inner).next (read ++ (s.pollFrom llm eng inner).upstream)
  | inner, inner₀, s, read, h, hin => by
    cases hq : s.queue with
    | cons r q =>
      rw [pollFrom_queue hq, List.append_nil]
      exact ⟨h.prefix_reads, h.rest⟩
    | nil =>
      by_cases hs : s.ended = true
      · rw [pollFrom_ended hq hs, List.append_nil]
        exact h
      · rw [Bool.not_eq_true] at hs
        have hall := h.rest hs
        rw [hin hs] at hall
        match inner with
        | [] =>
          have hended : (s.receive llm eng none).ended = true := rfl
          rw [pollFrom_nil hq hs]
          cases (s.receive llm eng none).queue with
          | nil => exact ⟨⟨[], by rw [List.append_nil]; exact hall.symm⟩, fun hopen => by rw [hended] at hopen; cases hopen⟩
          | cons r q => exact ⟨⟨[], by rw [List.append_nil]; exact hall.symm⟩, fun hopen => by cases hopen⟩
        | none :: inner =>
          have hnext : Upstream.reads inner₀ = (read ++ [.pending]) ++ Upstream.reads inner := by
            rw [hall, List.append_assoc]
            rfl
          rw [pollFrom_pending hq hs]
          exact ⟨⟨_, hnext.symm⟩, fun _ => hnext⟩
        | some r :: inner =>
          have hnext : Upstream.reads inner₀ = (read ++ [.item r]) ++ Upstream.reads inner := by
            rw [hall, List.append_assoc]
            rfl
          have hinner := @receive_inner llm eng { s with inner := inner } (some r) hs
          have hr : GuardedStream.Reads inner₀ (GuardedStream.receive llm eng { s with inner := inner } (some r))
              (read ++ [.item r]) := ⟨⟨_, hnext.symm⟩, fun hopen => by rw [hinner hopen]; exact hnext⟩
          have ih := pollFrom_reads hr hinner
          rw [pollFrom_item hq hs]
          rwa [List.append_assoc] at ih

theorem polls_reads {n : Nat} {inner : Upstream} {s : GuardedStream} {read : List Poll}
    (h : GuardedStream.Reads inner s read) :
    GuardedStream.Reads inner (s.polls llm eng n).2 (read ++ (s.polls llm eng n).1.flatMap (·.upstream)) := by
  induction n generalizing s read with
  | zero => simpa [GuardedStream.polls] using h
  | succ n ih =>
    have hp := ih (@pollFrom_reads llm eng s.inner inner s read h fun _ => rfl)
    rw [List.append_assoc] at hp
    exact hp

/-- A poll is pending after an answer of the upstream that is, and finished
when the stream has ended and nothing is queued. -/
theorem pollFrom_answers : ∀ {inner : Upstream} {s : GuardedStream}, (s.ended = false → s.inner = inner) →
    ((s.pollFrom llm eng inner).poll = .pending → (s.pollFrom llm eng inner).upstream.getLast? = some .pending) ∧
      ((s.pollFrom llm eng inner).poll = .finished →
        (s.pollFrom llm eng inner).next.queue = [] ∧ (s.pollFrom llm eng inner).next.ended = true)
  | inner, s, hin => by
    cases hq : s.queue with
    | cons r q =>
      rw [pollFrom_queue hq]
      exact ⟨(fun h => by cases h), fun h => by cases h⟩
    | nil =>
      by_cases hs : s.ended = true
      · rw [pollFrom_ended hq hs]
        exact ⟨(fun h => by cases h), fun _ => ⟨hq, hs⟩⟩
      · rw [Bool.not_eq_true] at hs
        match inner with
        | [] =>
          rw [pollFrom_nil hq hs]
          cases hq' : (s.receive llm eng none).queue with
          | nil => exact ⟨(fun h => by cases h), fun _ => ⟨hq', rfl⟩⟩
          | cons r q => exact ⟨(fun h => by cases h), fun h => by cases h⟩
        | none :: inner =>
          rw [pollFrom_pending hq hs]
          exact ⟨fun _ => rfl, fun h => by cases h⟩
        | some r :: inner =>
          obtain ⟨hpending, hfinished⟩ :=
            pollFrom_answers (@receive_inner llm eng { s with inner := inner } (some r) hs)
          rw [pollFrom_item hq hs]
          refine ⟨fun h => ?_, hfinished⟩
          have hlast := hpending h
          show List.getLast? (_ :: _) = _
          rw [List.getLast?_cons, hlast]
          rfl

/-- Once ended with nothing queued, a stream stays as it is. -/
theorem polls_done {n : Nat} (hq : s.queue = []) (hs : s.ended = true) : (s.polls llm eng n).2 = s := by
  induction n with
  | zero => rfl
  | succ n ih =>
    have hp : s.pollNext llm eng = ⟨.finished, s, []⟩ := pollFrom_ended hq hs s.inner
    rw [GuardedStream.polls]
    simp only [hp]
    exact ih

theorem polls_answers {n : Nat} {s : GuardedStream} : ∀ p ∈ (s.polls llm eng n).1,
    (p.poll = .pending → p.upstream.getLast? = some .pending) ∧
      (p.poll = .finished → (s.polls llm eng n).2.queue = [] ∧ (s.polls llm eng n).2.ended = true) := by
  induction n generalizing s with
  | zero => exact fun p hp => by cases hp
  | succ n ih =>
    intro p hp
    obtain ⟨hpending, hfinished⟩ := @pollFrom_answers llm eng s.inner s fun _ => rfl
    rcases List.mem_cons.mp (show p ∈ s.pollNext llm eng :: _ from hp) with rfl | hp
    · refine ⟨hpending, fun h => ?_⟩
      obtain ⟨hq, hs⟩ := hfinished h
      have hdone : (s.polls llm eng (n + 1)).2 = (s.pollNext llm eng).next := polls_done hq hs
      rw [hdone]
      exact ⟨hq, hs⟩
    · exact ih p hp

variable (llm eng) in
/-- Enough polls end the stream: every later one is finished. -/
theorem polls_finish (s : GuardedStream) : ∃ k, ∀ n, k < n → ∃ p, (s.polls llm eng n).1.getLast? = some p ∧
    p.poll = .finished := by
  obtain ⟨k, hq, hs⟩ := polls_end llm eng s (Nat.le_refl _)
  refine ⟨k, fun n hn => ?_⟩
  obtain ⟨m, rfl⟩ : ∃ m, n = k + m + 1 := ⟨n - k - 1, by omega⟩
  have hm : ((s.polls llm eng k).2.polls llm eng m).2 = (s.polls llm eng k).2 := polls_done hq hs
  refine ⟨⟨.finished, (s.polls llm eng k).2, []⟩, ?_, rfl⟩
  have hlast : ((s.polls llm eng k).2.polls llm eng 1).1 = [⟨.finished, (s.polls llm eng k).2, []⟩] :=
    congrArg (fun p => [p]) (pollFrom_ended hq hs _)
  rw [(polls_add (k + m) 1 s).1, (polls_add k m s).2, hm, hlast, List.getLast?_append]
  rfl

theorem GuardedStream.Stops.mem_calls {before : List Event} {ev : Event} {scanners : List String}
    (h : GuardedStream.Stops llm eng s₀ s before ev scanners e) :
    (ev, .blocked scanners) ∈ guardCalls llm eng s₀.output (before ++ [ev]) := by
  rw [guardCalls_snoc, ← h.blocks]
  exact List.mem_append_right _ (List.mem_singleton.mpr rfl)

/-- Dropping the stream writes its one row. -/
theorem GuardedStream.Inv.row (h : GuardedStream.Inv llm eng s₀ s c e) (hfired : s₀.guard.fired = false)
    (hstatus : s₀.guard.status = "ok") : ∃ row, s.drop = [row] ∧ row.op = "chat" ∧ row.status =
      if (guardCalls llm eng s₀.output c).any (·.2.isBlocked) then "blocked"
      else if c.any Event.isError then "error"
      else "ok" := by
  rcases h.state with ⟨hf, -⟩ | ⟨before, ev, scanners, hc, hb⟩
  · have hany : (guardCalls llm eng s₀.output c).any (·.2.isBlocked) = false := by
      rw [List.any_eq_false]
      intro x hx hxb
      rw [hf.passing x hx] at hxb
      cases hxb
    obtain ⟨row, hrow, hop, hst⟩ := drop_row (e := s.guard) (by rw [hf.guard, foldl_note_fired, hfired])
    refine ⟨row, hrow, hop, ?_⟩
    rw [hst, hf.guard, foldl_note_status, hany, hstatus]
    rfl
  · have hany : (guardCalls llm eng s₀.output c).any (·.2.isBlocked) = true :=
      List.any_eq_true.mpr ⟨_, hc ▸ hb.mem_calls, rfl⟩
    have hkept : s.guard.fired = false := by
      rw [hb.guard]
      exact foldl_note_fired.trans hfired
    obtain ⟨row, hrow, hop, hst⟩ := drop_row hkept
    refine ⟨row, hrow, hop, ?_⟩
    rw [hst, hb.guard, hany]
    rfl

/-- The protocol, for any upstream, any poll schedule and any number of polls
before the stream is dropped. -/
theorem polls_protocol (inner : Upstream) (route tenant : String) (attribution : Attribution)
    (provider model lane requestId policy : String) (output : Option OutputGuard) (n : Nat) :
    let effects := StreamSideEffects.new route tenant attribution provider model lane requestId
    let run := (GuardedStream.new inner effects policy output).polls llm eng n
    let s := run.2
    let calls := guardCalls llm eng output (consumed run.1)
    -- the upstream is read in order, and a poll is pending only after an answer that is
    consumed run.1 <+: inner.events ∧
    run.1.flatMap (·.upstream) <+: inner.reads ∧
    (∀ p ∈ run.1, p.poll = .pending → p.upstream.getLast? = some .pending) ∧
    -- a poll is finished when all has come out: the whole upstream, or what a block leaves
    (∀ p ∈ run.1, p.poll = .finished → s.queue = [] ∧
      (consumed run.1 = inner.events ∨ ∃ x ∈ calls, x.2.isBlocked = true)) ∧
    -- and enough polls finish
    (∃ k, ∀ m, k < m → ∃ p, ((GuardedStream.new inner effects policy output).polls llm eng m).1.getLast? = some p ∧
      p.poll = .finished) ∧
    -- without a block the items come out in order, with the released text between them
    ((∀ x ∈ calls, x.2.isBlocked = false) →
      segmentsFrom [] (yielded run.1 ++ s.queue) = releasedFrom [] calls) ∧
    (∀ p ∈ run.1.getLast?, p.poll.yield = none → s.queue = []) ∧
    -- a block is the last thing consumed, and only `Done`, `Blocked` and the end come after what preceded it
    (∀ ev scanners, (ev, .blocked scanners) ∈ calls → ∃ before out, consumed run.1 = before ++ [ev] ∧
      yielded run.1 ++ s.queue = out ++
        [.ok (.done ((consumed run.1).foldl StreamSideEffects.note effects).inputTokens
          ((consumed run.1).foldl StreamSideEffects.note effects).outputTokens .contentFilter),
        .ok (.blocked policy scanners)] ∧
      segmentsFrom [] out = releasedFrom [] (guardCalls llm eng output before) ∧
      ∀ m, (s.polls llm eng m).1.map (·.poll) = (s.queue.map Poll.item ++ List.replicate m Poll.finished).take m ∧
        ∀ p ∈ (s.polls llm eng m).1, p.upstream = []) ∧
    -- dropping the stream writes its one row
    ∃ row, s.drop = [row] ∧ row.op = "chat" ∧ row.status =
      if calls.any (·.2.isBlocked) then "blocked"
      else if (consumed run.1).any Event.isError then "error"
      else "ok" := by
  intro effects run s calls
  have h₀ := new_inv llm eng inner effects policy output
  have h := polls_inv (n := n) h₀
  rw [List.nil_append, List.nil_append] at h
  change GuardedStream.Inv llm eng _ s (consumed run.1) (yielded run.1) at h
  have hread₀ : GuardedStream.Reads inner (GuardedStream.new inner effects policy output) [] :=
    ⟨List.nil_prefix, fun _ => rfl⟩
  have hreads := (@polls_reads llm eng n _ _ _ hread₀).prefix_reads
  rw [List.nil_append] at hreads
  refine ⟨?_, hreads, fun p hp => (polls_answers p hp).1, fun p hp hfin => ?_, polls_finish llm eng _, ?_,
    polls_queue h₀, ?_, ?_⟩
  · obtain ⟨rest, hrest, -⟩ := h.upstream
    exact ⟨rest, hrest.symm⟩
  · obtain ⟨hq, hended⟩ := (polls_answers p hp).2 hfin
    refine ⟨hq, ?_⟩
    rcases h.state with ⟨-, hend⟩ | ⟨before, ev, scanners, hc, hb⟩
    · exact .inl (hend hended)
    · refine .inr ⟨(ev, .blocked scanners), ?_, rfl⟩
      show _ ∈ guardCalls llm eng output (consumed run.1)
      rw [hc]
      exact hb.mem_calls
  · intro hpass
    rcases h.state with ⟨hf, -⟩ | ⟨before, ev, scanners, hc, hb⟩
    · exact hf.segments
    · have hmem : (ev, Release.blocked scanners) ∈ calls := by
        show _ ∈ guardCalls llm eng output (consumed run.1)
        rw [hc]
        exact hb.mem_calls
      cases hpass _ hmem
  · intro ev scanners hmem
    rcases h.state with ⟨hf, -⟩ | ⟨before, ev', scanners', hc, hb⟩
    · cases hf.passing _ hmem
    · have hmem' : (ev, Release.blocked scanners) ∈ guardCalls llm eng output (before ++ [ev']) := hc ▸ hmem
      cases hb.passing.append_inv hb.blocks hmem' rfl
      obtain ⟨out, hout, hseg⟩ := hb.yields
      refine ⟨before, out, hc, ?_, hseg, fun m => polls_ended hb.ended⟩
      rw [hout, hb.guard, hc]
      rfl
  · exact h.row rfl rfl

end

end SynapseGateway
