import SynapseGateway.ChainWalk

/-!
# What the walks of the standard lane return

Both walks take the first leg that succeeds and stop there; they differ in what
succeeds and in the message for a provider that is not built.
-/

namespace SynapseGateway

open Attempts (retry Retried firstOk tried retry_retried firstOk_of_ok firstOk_of_errors error_of_mem ok_or_errors)

/-! ## A walk as its first success -/

structure LegFault where
  failure : LegFailure
  circuitOpen : Bool

def bufferedTry (l : LegCase) : Except LegFault Completion :=
  match (bufferLeg l.1 l.2).1 with
  | .ok c => .ok c
  | .error (.circuitOpen name) => .error ⟨legFailure l.1 ("circuit open: " ++ name), true⟩
  | .error (.failed error _ _) => .error ⟨legFailure l.1 error.message, false⟩

def bufferedTrace (l : LegCase) : CallTrace := (bufferLeg l.1 l.2).2

def streamingTry : LegCase → Except LegFault CommittedStream
  | (leg, none) => .error ⟨legFailure leg (unbuiltMessage leg), false⟩
  | (leg, some p) =>
    match (commitOneLeg p).1 with
    | .ok s => .ok ⟨leg.provider, leg.model, s.items⟩
    | .error (.circuitOpen name) => .error ⟨legFailure leg ("circuit open: " ++ name), true⟩
    | .error (.exhausted e) => .error ⟨legFailure leg e.intoLegError.message, false⟩

def streamingTrace : LegCase → CallTrace
  | (_, none) => {}
  | (_, some p) => (commitOneLeg p).2

section
variable {β : Type} {route : String} (attempt : LegCase → Except LegFault β) (trace : LegCase → CallTrace)

def concluded (route : String) (failures : List LegFailure) (allCircuitOpen : Bool) :
    Except (List LegFault) β → Except GatewayError β
  | .ok b => .ok b
  | .error faults =>
    .error (noneServed route (allCircuitOpen && faults.all (·.circuitOpen)) (failures ++ faults.map (·.failure)))

theorem concluded_mapError (failures : List LegFailure) (allCircuitOpen : Bool) (e : LegFault)
    (r : Except (List LegFault) β) :
    concluded route failures allCircuitOpen (r.mapError (e :: ·)) =
      concluded route (failures ++ [e.failure]) (allCircuitOpen && e.circuitOpen) r := by
  cases r with
  | ok b => rfl
  | error faults => simp [concluded, Except.mapError, Bool.and_assoc]

/-- One round of a walk of the source, `walk` being the rest of the loop. -/
def round (walk : List LegFailure → Bool → List CallTrace → Except GatewayError β × List CallTrace)
    (failures : List LegFailure) (allOpen : Bool) (traces : List CallTrace) (l : LegCase) :
    Except GatewayError β × List CallTrace :=
  match attempt l with
  | .ok b => (.ok b, traces ++ [trace l])
  | .error e => walk (failures ++ [e.failure]) (allOpen && e.circuitOpen) (traces ++ [trace l])

theorem walk_eq
    (walk : List LegCase → List LegFailure → Bool → List CallTrace → Except GatewayError β × List CallTrace)
    (hnil : ∀ failures allOpen traces, walk [] failures allOpen traces =
      (.error (noneServed route allOpen failures), traces))
    (hcons : ∀ l legs failures allOpen traces, walk (l :: legs) failures allOpen traces =
      round attempt trace (walk legs) failures allOpen traces l)
    (legs : List LegCase) (failures : List LegFailure) (allOpen : Bool) (traces : List CallTrace) :
    walk legs failures allOpen traces =
      (concluded route failures allOpen (firstOk attempt legs), traces ++ (tried attempt legs).map trace) := by
  induction legs generalizing failures allOpen traces with
  | nil => simp [hnil, firstOk, tried, concluded]
  | cons l legs ih =>
    rw [hcons, round, firstOk, tried]
    cases attempt l with
    | ok b => rfl
    | error e =>
      simp only [ih, concluded_mapError, List.map_cons, List.append_assoc, List.singleton_append]

end

theorem bufferedWalk_cons (route : String) (l : LegCase) (legs : List LegCase) (failures : List LegFailure)
    (allOpen : Bool) (traces : List CallTrace) :
    bufferedWalk route failures allOpen traces (l :: legs) =
      round bufferedTry bufferedTrace (fun fs o ts => bufferedWalk route fs o ts legs) failures allOpen traces l := by
  obtain ⟨leg, provider⟩ := l
  rw [bufferedWalk, round, bufferedTry, bufferedTrace]
  rcases bufferLeg leg provider with ⟨(⟨name⟩ | ⟨error, kind, status⟩) | c, trace⟩
  · simp
  · simp
  · rfl

theorem streamingWalk_cons (route : String) (l : LegCase) (legs : List LegCase) (failures : List LegFailure)
    (allOpen : Bool) (traces : List CallTrace) :
    streamingWalk route failures allOpen traces (l :: legs) =
      round streamingTry streamingTrace (fun fs o ts => streamingWalk route fs o ts legs) failures allOpen traces l := by
  obtain ⟨leg, _ | p⟩ := l
  · simp [streamingWalk, round, streamingTry, streamingTrace]
  · rw [streamingWalk, round, streamingTry, streamingTrace]
    rcases commitOneLeg p with ⟨(⟨name⟩ | ⟨e⟩) | s, trace⟩
    · simp
    · simp
    · rfl

theorem executeBuffered_eq (route : String) (legs : List LegCase) :
    executeBufferedWithTimeouts route legs =
      (concluded route [] true (firstOk bufferedTry legs), (tried bufferedTry legs).map bufferedTrace) :=
  walk_eq bufferedTry bufferedTrace (fun legs fs o ts => bufferedWalk route fs o ts legs) (fun _ _ _ => rfl)
    (bufferedWalk_cons route) legs [] true []

theorem executeStreaming_eq (route : String) (legs : List LegCase) :
    executeStreamingWithTimeouts route legs =
      (concluded route [] true (firstOk streamingTry legs), (tried streamingTry legs).map streamingTrace) :=
  walk_eq streamingTry streamingTrace (fun legs fs o ts => streamingWalk route fs o ts legs) (fun _ _ _ => rfl)
    (streamingWalk_cons route) legs [] true []

/-! ## What becomes of a leg -/

theorem maxAttempts_pos (profile : Profile) : 1 ≤ profile.policy.maxAttempts := by
  cases profile <;> decide

inductive StartOutcome (p : BuiltProvider) : Except (ResilienceError StartError) OpenedStream × CallTrace → Prop
  | refused (name : String) (h : p.refused = some name) : StartOutcome p (.error (.circuitOpen name), {})
  | failed (e : StartError) (n : Nat) (h : p.refused = none)
      (hr : Retried StartError.isRetryable p.attempt p.profile.policy.maxAttempts (.error e, n)) :
      StartOutcome p (.error (.exhausted e), ⟨n, [false]⟩)
  | opened (s : OpenedStream) (n : Nat) (h : p.refused = none)
      (hr : Retried StartError.isRetryable p.attempt p.profile.policy.maxAttempts (.ok s, n)) :
      StartOutcome p (.ok s, ⟨n, [true]⟩)

theorem commitOneLeg_outcome (p : BuiltProvider) : StartOutcome p (commitOneLeg p) := by
  unfold commitOneLeg runWithClassifier
  cases h : p.refused with
  | some name => exact .refused name h
  | none =>
    have hr := retry_retried StartError.isRetryable p.attempt (p.profile.policy.maxAttempts - 1)
    rw [Nat.sub_add_cancel (maxAttempts_pos p.profile)] at hr
    rcases hretry : retry StartError.isRetryable p.attempt (p.profile.policy.maxAttempts - 1) 0 with ⟨e | s, n⟩
    · exact .failed e n h (hretry ▸ hr)
    · exact .opened s n h (hretry ▸ hr)

/-- A drained stream names its leg in the completion, or fails after the start. -/
def DrainResult (provider model : String) : Except BufferedLegError Completion → Prop
  | .ok c => c.provider = provider ∧ c.model = model
  | .error e => ∃ error kind status, e = .failed error kind status

theorem drained_result (provider model : String) (acc : Accumulator) :
    DrainResult provider model (drained provider model acc) := by
  unfold drained
  by_cases h : acc.gotDone
  · rw [if_pos h]
    exact ⟨rfl, rfl⟩
  · rw [if_neg h]
    exact ⟨_, _, _, rfl⟩

theorem drain_result (provider model : String) (acc : Accumulator) (chunks : List Chunk) :
    DrainResult provider model (drain provider model acc chunks) := by
  induction chunks generalizing acc with
  | nil => exact drained_result provider model acc
  | cons c chunks ih =>
    cases c with
    | idleTimeout => exact ⟨_, _, _, rfl⟩
    | item r =>
      cases r with
      | error e => exact ⟨_, _, _, rfl⟩
      | ok item => exact ih (acc.push item)
    | finished => exact drained_result provider model acc

theorem bufferLeg_opened (leg : ChainLeg) {p : BuiltProvider} {s : OpenedStream} {n : Nat}
    (hcall : commitOneLeg p = (.ok s, ⟨n, [true]⟩)) :
    (∃ c, c.provider = leg.provider ∧ c.model = leg.model ∧ bufferLeg leg (some p) = (.ok c, ⟨n, [true]⟩)) ∨
    ∃ error kind status, bufferLeg leg (some p) = (.error (.failed error kind status), ⟨n, [true, false]⟩) := by
  have hd := drain_result leg.provider leg.model {} (waits s.items (s.stall.map (· + 1)))
  unfold bufferLeg
  simp only [hcall]
  generalize drain leg.provider leg.model {} (waits s.items (s.stall.map (· + 1))) = r at hd
  cases r with
  | ok c => exact .inl ⟨c, hd.1, hd.2, rfl⟩
  | error e =>
    obtain ⟨error, kind, status, rfl⟩ := hd
    exact .inr ⟨error, kind, status, rfl⟩

inductive LegOutcome (l : LegCase) : Prop
  | unbuilt (h : l.2 = none)
  | refused (p : BuiltProvider) (name : String) (h : l.2 = some p) (hname : p.refused = some name)
      (hcall : commitOneLeg p = (.error (.circuitOpen name), {}))
  | failed (p : BuiltProvider) (e : StartError) (n : Nat) (h : l.2 = some p) (hnone : p.refused = none)
      (hcall : commitOneLeg p = (.error (.exhausted e), ⟨n, [false]⟩))
  | opened (p : BuiltProvider) (s : OpenedStream) (n : Nat) (h : l.2 = some p) (hnone : p.refused = none)
      (hcall : commitOneLeg p = (.ok s, ⟨n, [true]⟩))

theorem legOutcome (l : LegCase) : LegOutcome l := by
  obtain ⟨leg, _ | p⟩ := l
  · exact .unbuilt rfl
  · have h := commitOneLeg_outcome p
    generalize hcall : commitOneLeg p = r at h
    cases h with
    | refused name h => exact .refused p name rfl h hcall
    | failed e n h hr => exact .failed p e n rfl h hcall
    | opened s n h hr => exact .opened p s n rfl h hcall

/-! ## What each walk owes -/

def LegCompletes (l : LegCase) (c : Completion) : Prop := (bufferLeg l.1 l.2).1 = .ok c

def LegYields (l : LegCase) (s : CommittedStream) : Prop :=
  ∃ p opened, l.2 = some p ∧ (commitOneLeg p).1 = .ok opened ∧ s = ⟨l.1.provider, l.1.model, opened.items⟩

def CircuitOpen (l : LegCase) : Prop := ∃ p name, l.2 = some p ∧ p.refused = some name

theorem bufferedTry_eq_ok {l : LegCase} {c : Completion} : bufferedTry l = .ok c ↔ LegCompletes l c := by
  unfold bufferedTry LegCompletes
  rcases (bufferLeg l.1 l.2).1 with (⟨name⟩ | ⟨error, kind, status⟩) | c' <;> simp

theorem streamingTry_eq_ok {l : LegCase} {s : CommittedStream} : streamingTry l = .ok s ↔ LegYields l s := by
  obtain ⟨leg, _ | p⟩ := l
  · simp [streamingTry, LegYields]
  · rw [streamingTry]
    unfold LegYields
    rcases h : (commitOneLeg p).1 with (⟨name⟩ | ⟨e⟩) | opened
    · simp [h]
    · simp [h]
    · simp [h, eq_comm]

/-- A fault names its leg, and says whether the leg's circuit is open. -/
def Names (l : LegCase) (e : LegFault) : Prop :=
  e.failure.provider = l.1.provider ∧ e.failure.model = l.1.model ∧ (e.circuitOpen = true ↔ CircuitOpen l)

theorem bufferedTry_error {l : LegCase} {e : LegFault} (h : bufferedTry l = .error e) : Names l e := by
  obtain ⟨leg, provider⟩ := l
  unfold bufferedTry at h
  unfold Names CircuitOpen
  cases legOutcome (leg, provider) with
  | unbuilt hp =>
    obtain rfl : provider = none := hp
    cases h
    simp [legFailure]
  | refused p name hp hname hcall =>
    obtain rfl : provider = some p := hp
    simp only [bufferLeg, hcall] at h
    cases h
    simp [legFailure, hname]
  | failed p e n hp hnone hcall =>
    obtain rfl : provider = some p := hp
    simp only [bufferLeg, hcall] at h
    cases h
    simp [legFailure, hnone]
  | opened p s n hp hnone hcall =>
    obtain rfl : provider = some p := hp
    rcases bufferLeg_opened leg hcall with ⟨c, -, -, hleg⟩ | ⟨error, kind, status, hleg⟩
    · simp only [hleg] at h
      cases h
    · simp only [hleg] at h
      cases h
      simp [legFailure, hnone]

theorem streamingTry_error {l : LegCase} {e : LegFault} (h : streamingTry l = .error e) : Names l e := by
  obtain ⟨leg, provider⟩ := l
  unfold Names CircuitOpen
  cases legOutcome (leg, provider) with
  | unbuilt hp =>
    obtain rfl : provider = none := hp
    cases h
    simp [legFailure]
  | refused p name hp hname hcall =>
    obtain rfl : provider = some p := hp
    simp only [streamingTry, hcall] at h
    cases h
    simp [legFailure, hname]
  | failed p e n hp hnone hcall =>
    obtain rfl : provider = some p := hp
    simp only [streamingTry, hcall] at h
    cases h
    simp [legFailure, hnone]
  | opened p s n hp hnone hcall =>
    obtain rfl : provider = some p := hp
    simp only [streamingTry, hcall] at h
    cases h

/-- What a walk owes where `succeeds l b` says that the leg `l` gives `b`. -/
structure Walks {β : Type} (route : String) (succeeds : LegCase → β → Prop) (trace : LegCase → CallTrace)
    (legs : List LegCase) (r : Except GatewayError β × List CallTrace) : Prop where
  found : ∀ pre leg post b, legs = pre ++ leg :: post → (∀ l ∈ pre, ∀ b, ¬ succeeds l b) → succeeds leg b →
    r = (.ok b, (pre ++ [leg]).map trace)
  allOpen : (∀ l ∈ legs, ∀ b, ¬ succeeds l b) →
    (r.1 = .error (.allCircuitsOpen route) ↔ legs ≠ [] ∧ ∀ l ∈ legs, CircuitOpen l)
  failed : (∀ l ∈ legs, ∀ b, ¬ succeeds l b) → r.2 = legs.map trace ∧
    (r.1 = .error (.allCircuitsOpen route) ∨ ∃ failures, r.1 = .error (.allLegsFailed route failures) ∧
      failures.map (fun f => (f.provider, f.model)) = legs.map fun l => (l.1.provider, l.1.model))

section
variable {β : Type} {route : String} {attempt : LegCase → Except LegFault β}

theorem faults_names {legs : List LegCase} {faults : List LegFault}
    (hnames : ∀ l e, attempt l = .error e → Names l e)
    (h : List.Forall₂ (fun l e => attempt l = .error e) legs faults) :
    (faults.map (·.failure)).map (fun f => (f.provider, f.model)) =
        legs.map (fun l => (l.1.provider, l.1.model)) ∧
      (faults.all (·.circuitOpen) = true ↔ ∀ l ∈ legs, CircuitOpen l) := by
  induction h with
  | nil => simp
  | cons hl _ ih =>
    obtain ⟨hp, hm, hopen⟩ := hnames _ _ hl
    simp only [List.map_cons, List.all_cons, Bool.and_eq_true, List.forall_mem_cons, hp, hm, hopen, ih.1, ih.2, true_and]

theorem all_fail {succeeds : LegCase → β → Prop} (hok : ∀ l b, attempt l = .ok b ↔ succeeds l b)
    {legs : List LegCase} (h : ∀ l ∈ legs, ∀ b, ¬ succeeds l b) :
    ∃ faults, List.Forall₂ (fun l e => attempt l = .error e) legs faults := by
  rcases ok_or_errors attempt legs with ⟨pre, l, post, b, rfl, -, hb⟩ | hfaults
  · exact absurd ((hok l b).mp hb) (h l List.mem_append_cons_self b)
  · exact hfaults

theorem noneServed_faults {legs : List LegCase} {faults : List LegFault}
    (h : List.Forall₂ (fun l e => attempt l = .error e) legs faults) :
    noneServed route (faults.all (·.circuitOpen)) (faults.map (·.failure)) =
      if legs ≠ [] ∧ faults.all (·.circuitOpen) = true then .allCircuitsOpen route
      else .allLegsFailed route (faults.map (·.failure)) := by
  unfold noneServed
  cases h with
  | nil => rfl
  | cons hl hrest => simp

theorem walks {succeeds : LegCase → β → Prop} (hok : ∀ l b, attempt l = .ok b ↔ succeeds l b)
    (hnames : ∀ l e, attempt l = .error e → Names l e) (trace : LegCase → CallTrace) (legs : List LegCase) :
    Walks route succeeds trace legs
      (concluded route [] true (firstOk attempt legs), (tried attempt legs).map trace) where
  found := by
    rintro pre leg post b rfl hpre hb
    have hfails : ∀ l ∈ pre, ∃ e, attempt l = .error e := by
      intro l hl
      cases h : attempt l with
      | ok b => exact absurd ((hok l b).mp h) (hpre l hl b)
      | error e => exact ⟨e, rfl⟩
    obtain ⟨hfirst, htried⟩ := firstOk_of_ok post hfails ((hok leg b).mpr hb)
    rw [hfirst, htried]
    rfl
  allOpen h := by
    obtain ⟨faults, hfaults⟩ := all_fail hok h
    obtain ⟨-, hopen⟩ := faults_names hnames hfaults
    rw [(firstOk_of_errors hfaults).1, ← hopen]
    show Except.error (noneServed route (faults.all (·.circuitOpen)) (faults.map (·.failure))) = _ ↔ _
    rw [noneServed_faults hfaults]
    by_cases hall : legs ≠ [] ∧ faults.all (·.circuitOpen) = true
    · rw [if_pos hall]
      exact ⟨fun _ => hall, fun _ => rfl⟩
    · rw [if_neg hall]
      exact ⟨fun heq => (nomatch heq), fun h => absurd h hall⟩
  failed h := by
    obtain ⟨faults, hfaults⟩ := all_fail hok h
    obtain ⟨hnamed, -⟩ := faults_names hnames hfaults
    obtain ⟨hfirst, htried⟩ := firstOk_of_errors hfaults
    rw [hfirst, htried]
    refine ⟨rfl, ?_⟩
    show Except.error (noneServed route (faults.all (·.circuitOpen)) (faults.map (·.failure))) = _ ∨
      ∃ failures, Except.error (noneServed route (faults.all (·.circuitOpen)) (faults.map (·.failure))) = _ ∧ _
    rw [noneServed_faults hfaults]
    by_cases hall : legs ≠ [] ∧ faults.all (·.circuitOpen) = true
    · exact .inl (by rw [if_pos hall])
    · exact .inr ⟨_, by rw [if_neg hall], hnamed⟩

end

/-! ## Where the two walks meet -/

/-- The same leg, at the same place of the list, or the same error. -/
def SameOutcome (b : Except GatewayError Completion × List CallTrace)
    (s : Except GatewayError CommittedStream × List CallTrace) : Prop :=
  match b.1, s.1 with
  | .ok c, .ok t => b.2.length = s.2.length ∧ c.provider = t.provider ∧ c.model = t.model
  | .error e, .error e' => e = e'
  | _, _ => False

/-- A leg that starts also completes. -/
def LegSettles (l : LegCase) : Prop := ∀ s, LegYields l s → ∃ c, LegCompletes l c

theorem streamingTry_of_bufferedTry_error {l : LegCase} {e : LegFault} (hs : LegSettles l) (h : bufferedTry l = .error e) :
    ∃ e', streamingTry l = .error e' ∧ e'.circuitOpen = e.circuitOpen ∧ (e.failure = e'.failure ↔ l.2 ≠ none) := by
  obtain ⟨leg, provider⟩ := l
  cases legOutcome (leg, provider) with
  | unbuilt hp =>
    obtain rfl : provider = none := hp
    cases h
    refine ⟨_, rfl, rfl, ?_⟩
    simp [legFailure, LegError.message]
  | refused p name hp hname hcall =>
    obtain rfl : provider = some p := hp
    simp only [bufferedTry, bufferLeg, hcall] at h
    cases h
    refine ⟨⟨legFailure leg ("circuit open: " ++ name), true⟩, ?_, rfl, by simp⟩
    simp only [streamingTry, hcall]
  | failed p e n hp hnone hcall =>
    obtain rfl : provider = some p := hp
    simp only [bufferedTry, bufferLeg, hcall] at h
    cases h
    refine ⟨⟨legFailure leg e.intoLegError.message, false⟩, ?_, rfl, by simp⟩
    simp only [streamingTry, hcall]
  | opened p s n hp hnone hcall =>
    obtain rfl : provider = some p := hp
    obtain ⟨c, hc⟩ := hs ⟨leg.provider, leg.model, s.items⟩ ⟨p, s, rfl, by rw [hcall], rfl⟩
    rw [bufferedTry_eq_ok.mpr hc] at h
    cases h

theorem streamingTry_of_completes {l : LegCase} {c : Completion} (h : LegCompletes l c) :
    ∃ s, streamingTry l = .ok s ∧ c.provider = s.provider ∧ c.model = s.model := by
  obtain ⟨leg, provider⟩ := l
  unfold LegCompletes at h
  cases legOutcome (leg, provider) with
  | unbuilt hp =>
    obtain rfl : provider = none := hp
    cases h
  | refused p name hp hname hcall =>
    obtain rfl : provider = some p := hp
    simp only [bufferLeg, hcall] at h
    cases h
  | failed p e n hp hnone hcall =>
    obtain rfl : provider = some p := hp
    simp only [bufferLeg, hcall] at h
    cases h
  | opened p s n hp hnone hcall =>
    obtain rfl : provider = some p := hp
    refine ⟨⟨leg.provider, leg.model, s.items⟩, by simp only [streamingTry, hcall], ?_⟩
    rcases bufferLeg_opened leg hcall with ⟨c', hprov, hmodel, hleg⟩ | ⟨error, kind, status, hleg⟩
    · rw [hleg] at h
      cases h
      exact ⟨hprov, hmodel⟩
    · rw [hleg] at h
      cases h

theorem faults_agree {legs : List LegCase} {faults : List LegFault} (hs : ∀ l ∈ legs, LegSettles l)
    (h : List.Forall₂ (fun l e => bufferedTry l = .error e) legs faults) :
    ∃ faults', List.Forall₂ (fun l e => streamingTry l = .error e) legs faults' ∧
      faults'.all (·.circuitOpen) = faults.all (·.circuitOpen) ∧
      (faults.map (·.failure) = faults'.map (·.failure) ↔ ∀ l ∈ legs, l.2 ≠ none) := by
  induction h with
  | nil => exact ⟨[], .nil, rfl, by simp⟩
  | cons hl hrest ih =>
    rw [List.forall_mem_cons] at hs
    obtain ⟨e', he', hopen, hmsg⟩ := streamingTry_of_bufferedTry_error hs.1 hl
    obtain ⟨faults', hfaults', hall, hmsgs⟩ := ih hs.2
    refine ⟨e' :: faults', .cons he' hfaults', ?_, ?_⟩
    · rw [List.all_cons, List.all_cons, hopen, hall]
    · rw [List.map_cons, List.map_cons, List.cons_eq_cons, List.forall_mem_cons, hmsg, hmsgs]

theorem sameOutcome_iff (route : String) {legs : List LegCase} (hs : ∀ l ∈ legs, LegSettles l) :
    SameOutcome (executeBufferedWithTimeouts route legs) (executeStreamingWithTimeouts route legs) ↔
      (∃ l ∈ legs, ∃ c, LegCompletes l c) ∨ ∀ l ∈ legs, l.2 ≠ none := by
  rw [executeBuffered_eq, executeStreaming_eq]
  rcases ok_or_errors bufferedTry legs with ⟨pre, l, post, c, rfl, hpre, hc⟩ | ⟨faults, hfaults⟩
  · have hcomplete : LegCompletes l c := bufferedTry_eq_ok.mp hc
    obtain ⟨s, hyield, hprov, hmodel⟩ := streamingTry_of_completes hcomplete
    have hpre' : ∀ x ∈ pre, ∃ e, streamingTry x = .error e := by
      intro x hx
      obtain ⟨e, he⟩ := hpre x hx
      obtain ⟨e', he', -⟩ := streamingTry_of_bufferedTry_error (hs x (List.mem_append_left _ hx)) he
      exact ⟨e', he'⟩
    obtain ⟨hb, hbt⟩ := firstOk_of_ok post hpre hc
    obtain ⟨ht, htt⟩ := firstOk_of_ok post hpre' hyield
    rw [hb, hbt, ht, htt]
    refine iff_of_true ⟨by simp, hprov, hmodel⟩ (.inl ⟨l, List.mem_append_cons_self, c, hcomplete⟩)
  · obtain ⟨faults', hfaults', hall, hmsgs⟩ := faults_agree hs hfaults
    have hnone : ¬ ∃ l ∈ legs, ∃ c, LegCompletes l c := by
      rintro ⟨l, hl, c, hc⟩
      obtain ⟨e, he⟩ := error_of_mem hfaults hl
      rw [bufferedTry_eq_ok.mpr hc] at he
      cases he
    rw [(firstOk_of_errors hfaults).1, (firstOk_of_errors hfaults').1, or_iff_right hnone, ← hmsgs]
    show noneServed route (faults.all (·.circuitOpen)) (faults.map (·.failure)) =
      noneServed route (faults'.all (·.circuitOpen)) (faults'.map (·.failure)) ↔ _
    constructor
    · intro heq
      rw [noneServed_faults hfaults, noneServed_faults hfaults', hall] at heq
      by_cases hopen : legs ≠ [] ∧ faults.all (·.circuitOpen) = true
      · -- a leg whose circuit is open has a provider
        rw [hmsgs]
        intro l hl
        obtain ⟨p, -, hp, -⟩ := (faults_names (fun _ _ => bufferedTry_error) hfaults).2.mp hopen.2 l hl
        simp [hp]
      · rw [if_neg hopen, if_neg hopen] at heq
        injection heq
    · intro heq
      rw [hall, heq]

/-! ## The attempts and reports of a leg -/

/-- What a leg with a provider does upstream and tells the breaker: nothing
where the circuit is open; else one report for the start, and on the buffered
walk a failure where the opened stream does not complete. -/
def Conducts (leg : ChainLeg) (p : BuiltProvider) : Prop :=
  match p.refused with
  | some _ => streamingTrace (leg, some p) = ⟨0, []⟩ ∧ bufferedTrace (leg, some p) = ⟨0, []⟩
  | none =>
    ∃ result attempts, Retried StartError.isRetryable p.attempt p.profile.policy.maxAttempts (result, attempts) ∧
      streamingTrace (leg, some p) = ⟨attempts, [result.isOk]⟩ ∧
      ((∃ s, result = .ok s ∧ ¬ ∃ c, LegCompletes (leg, some p) c) ∧
          bufferedTrace (leg, some p) = ⟨attempts, [true, false]⟩ ∨
        (¬ ∃ s, result = .ok s ∧ ¬ ∃ c, LegCompletes (leg, some p) c) ∧
          bufferedTrace (leg, some p) = ⟨attempts, [result.isOk]⟩)

theorem conducts (leg : ChainLeg) (p : BuiltProvider) : Conducts leg p := by
  have h := commitOneLeg_outcome p
  unfold Conducts LegCompletes
  generalize hcall : commitOneLeg p = r at h
  cases h with
  | refused name hname =>
    rw [hname]
    simp only [streamingTrace, bufferedTrace, bufferLeg, hcall, and_self]
  | failed e n hnone hr =>
    rw [hnone]
    refine ⟨.error e, n, hr, by simp only [streamingTrace, hcall, Except.isOk, Except.toBool], .inr ⟨?_, ?_⟩⟩
    · rintro ⟨s, hs, -⟩
      cases hs
    · simp only [bufferedTrace, bufferLeg, hcall, Except.isOk, Except.toBool]
  | opened s n hnone hr =>
    rw [hnone]
    refine ⟨.ok s, n, hr, by simp only [streamingTrace, hcall, Except.isOk, Except.toBool], ?_⟩
    rcases bufferLeg_opened leg hcall with ⟨c, -, -, hleg⟩ | ⟨error, kind, status, hleg⟩
    · refine .inr ⟨?_, by rw [bufferedTrace, hleg]; rfl⟩
      rintro ⟨_, -, hc⟩
      exact hc ⟨c, by rw [hleg]⟩
    · refine .inl ⟨⟨s, rfl, ?_⟩, by rw [bufferedTrace, hleg]⟩
      rintro ⟨c, hc⟩
      rw [hleg] at hc
      cases hc

/-- The walk without its calls is the buffered chat's. -/
def legCall : Option BuiltProvider → LegCall
  | none => .unbuilt
  | some p =>
    match (commitOneLeg p).1 with
    | .ok s => .committed s.items (s.stall.map (· + 1))
    | .error (.circuitOpen name) => .circuitOpen name
    | .error (.exhausted e) => .startFailed e

theorem bufferLeg_result (leg : ChainLeg) (provider : Option BuiltProvider) :
    (bufferLeg leg provider).1 = bufferOneLegTimed leg (legCall provider) := by
  cases provider with
  | none => rfl
  | some p =>
    rcases hcall : commitOneLeg p with ⟨(⟨name⟩ | ⟨e⟩) | s, trace⟩
    · simp only [bufferLeg, legCall, hcall, bufferOneLegTimed]
    · simp only [bufferLeg, legCall, hcall, bufferOneLegTimed]
    · simp only [bufferLeg, legCall, hcall, bufferOneLegTimed]
      cases drain leg.provider leg.model {} (waits s.items (s.stall.map (· + 1))) with
      | ok c => rfl
      | error e => rfl

theorem bufferedWalk_result (route : String) (legs : List LegCase) (failures : List LegFailure) (allOpen : Bool)
    (traces : List CallTrace) : (bufferedWalk route failures allOpen traces legs).1 =
      executeBufferedFrom route failures allOpen (legs.map fun l => (l.1, legCall l.2)) := by
  induction legs generalizing failures allOpen traces with
  | nil =>
    simp only [bufferedWalk, executeBufferedFrom, noneServed, List.map_nil]
    split <;> rfl
  | cons l legs ih =>
    obtain ⟨leg, provider⟩ := l
    rw [bufferedWalk, List.map_cons, executeBufferedFrom, ← bufferLeg_result]
    rcases bufferLeg leg provider with ⟨(⟨name⟩ | ⟨error, kind, status⟩) | c, trace⟩
    · exact ih _ _ _
    · exact ih _ _ _
    · rfl

theorem executeBuffered_result (route : String) (legs : List LegCase) :
    (executeBufferedWithTimeouts route legs).1 = executeBuffered route (legs.map fun l => (l.1, legCall l.2)) :=
  bufferedWalk_result route legs [] true []

/-! ## The law of both walks -/

theorem chain_walk (route : String) (legs : List LegCase) :
    Walks route LegCompletes bufferedTrace legs (executeBufferedWithTimeouts route legs) ∧
    Walks route LegYields streamingTrace legs (executeStreamingWithTimeouts route legs) ∧
    (∀ (leg : ChainLeg) (p : BuiltProvider), Conducts leg p) ∧
    ((∀ l ∈ legs, LegSettles l) →
      (SameOutcome (executeBufferedWithTimeouts route legs) (executeStreamingWithTimeouts route legs) ↔
        (∃ l ∈ legs, ∃ c, LegCompletes l c) ∨ ∀ l ∈ legs, l.2 ≠ none)) := by
  refine ⟨?_, ?_, conducts, sameOutcome_iff route⟩
  · rw [executeBuffered_eq]
    exact walks (fun _ _ => bufferedTry_eq_ok) (fun _ _ => bufferedTry_error) bufferedTrace legs
  · rw [executeStreaming_eq]
    exact walks (fun _ _ => streamingTry_eq_ok) (fun _ _ => streamingTry_error) streamingTrace legs

/-- The first leg ends without an item, the second completes. -/
def secondServes : List LegCase := [
  (⟨"openai", "gpt-4o", none, none⟩, some ⟨none, .default, fun _ => .error .emptyStream⟩),
  (⟨"anthropic", "claude", none, none⟩,
    some ⟨none, .fast, fun _ => .ok ⟨.delta "hi".toList, [.ok (.done 1 1 .stop)], none⟩⟩)]

theorem chain_walk_second_serves :
    SameOutcome (executeBufferedWithTimeouts "chat" secondServes) (executeStreamingWithTimeouts "chat" secondServes) := by
  refine ((chain_walk "chat" secondServes).2.2.2 ?_).mpr (.inr ?_)
  · intro l hl s hs
    simp only [secondServes, List.mem_cons, List.not_mem_nil, or_false] at hl
    rcases hl with rfl | rfl
    · obtain ⟨p, opened, hp, hcall, -⟩ := hs
      cases hp
      cases hcall
    · exact ⟨_, rfl⟩
  · intro l hl
    simp only [secondServes, List.mem_cons, List.not_mem_nil, or_false] at hl
    rcases hl with rfl | rfl <;> simp

def unbuiltOnly : List LegCase := [(⟨"mistral", "large", none, none⟩, none)]

/-- The message of the buffered walk starts with `start: `. -/
theorem unbuilt_errors_differ : ¬ ∀ (route : String) (legs : List LegCase), (∀ l ∈ legs, LegSettles l) →
    SameOutcome (executeBufferedWithTimeouts route legs) (executeStreamingWithTimeouts route legs) := by
  intro h
  have hsettles : ∀ l ∈ unbuiltOnly, LegSettles l := by
    intro l hl s hs
    obtain rfl := List.mem_singleton.mp hl
    obtain ⟨p, _, hp, -⟩ := hs
    cases hp
  have hsame : GatewayError.allLegsFailed "chat" [⟨"mistral", "large", "start: unbuilt provider 'mistral'"⟩] =
      .allLegsFailed "chat" [⟨"mistral", "large", "unbuilt provider 'mistral'"⟩] := h "chat" unbuiltOnly hsettles
  exact absurd hsame (by decide)

end SynapseGateway
