import SynapseGateway.PassthroughSound

/-!
# What the rows of a passthrough call say

A leg's row is written by a guard that is dropped with the response, or at once
for a leg that fails. Rows are compared with what each attempted leg did, for a
response that is read to any point and then dropped.
-/

namespace SynapseGateway

open Utf8 (Text)

section
variable (serde : SerdeJson)

/-- The rows when the client drops the response after `n` polls. -/
def PassthroughRun.rowsAfter (r : PassthroughRun) (n : Nat) : List UsageEntry :=
  match r.out with
  | .streamed _ stream => r.rows ++ [(stream.polls serde n).guard.row]
  | _ => r.rows

end

/-- The next leg, if there is one, is asked after this answer. -/
def retried : Except GatewayError VertexReply → Bool
  | .error _ => true
  | .ok reply => !isSuccess reply.status && passthroughStatusRetryable reply.status

def GeminiCall.attempted (c : GeminiCall) (send : Nat → VertexCall → Except GatewayError VertexReply) :
    Nat → List ChainLeg → List (Nat × ChainLeg)
  | _, [] => []
  | i, leg :: legs => (i, leg) :: if retried (send i (c.ask leg)) then c.attempted send (i + 1) legs else []

def GeminiCall.streamsBody (c : GeminiCall) : Bool := c.streaming && c.altSse

/-- What the client was given of a body before it dropped the response. -/
def GeminiCall.delivered (c : GeminiCall) (n : Nat) (reply : VertexReply) : List (Except String Bytes) :=
  if c.streamsBody then reply.body.take n else reply.body

/-- A leg's answer was a success, and no upstream error came with its body. -/
def GeminiCall.legOk (c : GeminiCall) (n : Nat) : Except GatewayError VertexReply → Bool
  | .error _ => false
  | .ok reply => isSuccess reply.status && (c.delivered n reply).all (·.isOk)

/-- What the row of an attempted leg is to say. -/
def GeminiCall.tells (c : GeminiCall) (send : Nat → VertexCall → Except GatewayError VertexReply) (n : Nat)
    (x : Nat × ChainLeg) : String × String :=
  (x.2.model, if c.legOk n (send x.1 (c.ask x.2)) then "ok" else "error")

/-- One row for each attempted leg, in order, with its model and what became of it. -/
def RowsTell (serde : SerdeJson) (c : GeminiCall) (send : Nat → VertexCall → Except GatewayError VertexReply)
    (uuid : Nat → String) (legs : List ChainLeg) (n : Nat) : Prop :=
  ((c.forwardGeminiLegs serde send uuid 0 none legs).rowsAfter serde n).map (fun row => (row.model, row.status)) =
    (c.attempted send 0 legs).map (c.tells send n)

/-- A leg answered with a success, and the read of its body failed. -/
def GeminiCall.LosesBody (c : GeminiCall) (send : Nat → VertexCall → Except GatewayError VertexReply)
    (x : Nat × ChainLeg) : Prop :=
  ∃ reply, send x.1 (c.ask x.2) = .ok reply ∧ isSuccess reply.status = true ∧ ∃ e, readBytes reply.body = .error e

/-! ## A stream that is polled -/

section
variable (serde : SerdeJson)

theorem observeUsageMetadata_frame (u : PassthroughUsageGuard) (v : Json) :
    (u.observeUsageMetadata v).status = u.status ∧ (u.observeUsageMetadata v).model = u.model := ⟨rfl, rfl⟩

theorem observeSseLine_frame (u : PassthroughUsageGuard) (line : Text) :
    (u.observeSseLine serde line).status = u.status ∧ (u.observeSseLine serde line).model = u.model := by
  unfold PassthroughUsageGuard.observeSseLine
  split
  · exact ⟨rfl, rfl⟩
  · split
    · exact observeUsageMetadata_frame u _
    · exact ⟨rfl, rfl⟩

theorem observeLines_frame (u : PassthroughUsageGuard) (lines : List Text) :
    (u.observeLines serde lines).status = u.status ∧ (u.observeLines serde lines).model = u.model := by
  unfold PassthroughUsageGuard.observeLines
  induction lines generalizing u with
  | nil => exact ⟨rfl, rfl⟩
  | cons line lines ih =>
    obtain ⟨hs, hm⟩ := ih (u.observeSseLine serde (trimEnd line))
    obtain ⟨hs', hm'⟩ := observeSseLine_frame serde u (trimEnd line)
    exact ⟨hs.trans hs', hm.trans hm'⟩

theorem observeBody_frame (u : PassthroughUsageGuard) (bytes : Bytes) :
    (u.observeBody serde bytes).status = u.status ∧ (u.observeBody serde bytes).model = u.model := by
  unfold PassthroughUsageGuard.observeBody
  split
  · exact observeUsageMetadata_frame u _
  · exact ⟨rfl, rfl⟩

/-- The guard of a polled stream says `error` exactly when an item that was handed out is one. -/
theorem polls_guard (n : Nat) (s : MeteredSseStream) :
    (s.polls serde n).guard.status = (if (s.inner.take n).all (·.isOk) then s.guard.status else "error") ∧
      (s.polls serde n).guard.model = s.guard.model := by
  induction n generalizing s with
  | zero => exact ⟨rfl, rfl⟩
  | succ n ih =>
    obtain ⟨inner, guard, buf⟩ := s
    cases inner with
    | nil =>
      obtain ⟨hs, hm⟩ := observeSseLine_frame serde guard (trimEnd buf)
      obtain ⟨ih₁, ih₂⟩ := ih ⟨[], guard.observeSseLine serde (trimEnd buf), []⟩
      rw [List.take_nil] at ih₁
      exact ⟨ih₁.trans hs, ih₂.trans hm⟩
    | cons item inner =>
      cases item with
      | error e =>
        obtain ⟨ih₁, ih₂⟩ := ih ⟨inner, { guard with status := "error" }, buf⟩
        refine ⟨ih₁.trans ?_, ih₂⟩
        rw [ite_self]
        rfl
      | ok bytes =>
        have hframe := observeLines_frame serde guard (newline.drain (buf ++ fromUtf8Lossy bytes)).1
        obtain ⟨ih₁, ih₂⟩ := ih (MeteredSseStream.pollNext serde ⟨.ok bytes :: inner, guard, buf⟩).2
        refine ⟨ih₁.trans ?_, ih₂.trans hframe.2⟩
        exact congrArg (fun status => if (inner.take n).all (·.isOk) then status else "error") hframe.1

theorem readBytes_isOk (body : List (Except String Bytes)) :
    (∃ e, readBytes body = .error e) ↔ body.all (·.isOk) = false := by
  induction body with
  | nil => simp [readBytes]
  | cons item body ih =>
    cases item with
    | error e => simp [readBytes, Except.isOk, Except.toBool]
    | ok bytes =>
      rw [readBytes, List.all_cons, show (Except.ok bytes : Except String Bytes).isOk = true from rfl, Bool.true_and,
        ← ih]
      cases readBytes body with
      | error e => simp [Except.map]
      | ok bs => simp [Except.map]

/-! ## The legs -/

variable {serde}

theorem rowsAfter_cons (row : UsageEntry) (rows : List UsageEntry) (out : PassthroughOut) (n : Nat) :
    PassthroughRun.rowsAfter serde ⟨row :: rows, out⟩ n = row :: PassthroughRun.rowsAfter serde ⟨rows, out⟩ n := by
  cases out <;> rfl

section
variable {c : GeminiCall} {send : Nat → VertexCall → Except GatewayError VertexReply} {n : Nat}

theorem succeed_streamed (hs : c.streamsBody = true) (uuid : Nat → String) (i : Nat) (leg : ChainLeg)
    (reply : VertexReply) :
    (((c.succeed serde uuid i leg reply).rowsAfter serde n).map fun row => (row.model, row.status)) =
      [(leg.model, if (reply.body.take n).all (·.isOk) then "ok" else "error")] := by
  obtain ⟨hstatus, hmodel⟩ := polls_guard serde n ⟨reply.body, c.usageGuard (uuid i) leg.model, []⟩
  unfold GeminiCall.succeed
  rw [show (c.streaming && c.altSse) = true from hs]
  exact congrArg (fun x => [x]) (Prod.ext hmodel hstatus)

/-- Its guard is dropped with status `ok`, whether the read of the body fails or not. -/
theorem succeed_buffered (hs : c.streamsBody = false) (uuid : Nat → String) (i : Nat) (leg : ChainLeg)
    (reply : VertexReply) :
    (((c.succeed serde uuid i leg reply).rowsAfter serde n).map fun row => (row.model, row.status)) =
      [(leg.model, "ok")] := by
  unfold GeminiCall.succeed
  rw [show (c.streaming && c.altSse) = false from hs]
  simp only [Bool.false_eq_true, if_false]
  cases readBytes reply.body with
  | error e => rfl
  | ok bytes =>
    obtain ⟨hstatus, hmodel⟩ := observeBody_frame serde (c.usageGuard (uuid i) leg.model) bytes
    exact congrArg (fun x => [x]) (Prod.ext hmodel hstatus)

theorem attempted_retried {i : Nat} {leg : ChainLeg} {legs : List ChainLeg}
    (h : retried (send i (c.ask leg)) = true ∨ legs = []) :
    c.attempted send i (leg :: legs) = (i, leg) :: c.attempted send (i + 1) legs := by
  rw [GeminiCall.attempted]
  obtain h | rfl := h
  · rw [if_pos h]
  · split <;> rfl

theorem attempted_last {i : Nat} {leg : ChainLeg} {legs : List ChainLeg}
    (h : retried (send i (c.ask leg)) = false) : c.attempted send i (leg :: legs) = [(i, leg)] := by
  rw [GeminiCall.attempted, h]
  rfl

theorem losesBody_iff {i : Nat} {leg : ChainLeg} {reply : VertexReply} (hsend : send i (c.ask leg) = .ok reply)
    (hsucc : isSuccess reply.status = true) :
    c.LosesBody send (i, leg) ↔ reply.body.all (·.isOk) = false := by
  rw [← readBytes_isOk]
  constructor
  · intro h
    obtain ⟨r, hr, -, he⟩ := h
    rw [hsend] at hr
    cases hr
    exact he
  · intro h
    exact ⟨reply, hsend, hsucc, h⟩

theorem leg_failed {i : Nat} {leg : ChainLeg}
    (h : ∀ reply, send i (c.ask leg) = .ok reply → isSuccess reply.status = false) :
    c.legOk n (send i (c.ask leg)) = false ∧ ¬ c.LosesBody send (i, leg) := by
  refine ⟨?_, ?_⟩
  · cases hsend : send i (c.ask leg) with
    | error e => rfl
    | ok reply =>
      rw [GeminiCall.legOk, h reply hsend]
      rfl
  · intro hlost
    obtain ⟨reply, hsend, hsucc, -⟩ := hlost
    rw [h reply hsend] at hsucc
    cases hsucc

/-- A leg that succeeds writes the row it should, unless its body is read whole and cannot be. -/
theorem rows_succeed {uuid : Nat → String} {i : Nat} {leg : ChainLeg} {reply : VertexReply}
    (hsend : send i (c.ask leg) = .ok reply) (hsucc : isSuccess reply.status = true) :
    (((c.succeed serde uuid i leg reply).rowsAfter serde n).map fun row => (row.model, row.status)) =
        [c.tells send n (i, leg)] ↔ (c.streamsBody = false → ¬ c.LosesBody send (i, leg)) := by
  have htells : c.tells send n (i, leg) =
      (leg.model, if (c.delivered n reply).all (·.isOk) then "ok" else "error") := by
    unfold GeminiCall.tells GeminiCall.legOk
    simp only [hsend, hsucc, Bool.true_and]
  rw [losesBody_iff hsend hsucc, htells]
  unfold GeminiCall.delivered
  cases hs : c.streamsBody with
  | true =>
    rw [succeed_streamed hs]
    exact iff_of_true rfl (fun h => by cases h)
  | false =>
    rw [succeed_buffered hs]
    simp only [Bool.false_eq_true, if_false]
    cases reply.body.all (·.isOk) with
    | true => simp
    | false => simp

/-- A leg that fails writes the row it should; the rest is up to the legs after it. -/
theorem rows_errorRow (rest : PassthroughRun) {uuid : Nat → String} {i : Nat} {leg : ChainLeg}
    {xs : List (Nat × ChainLeg)}
    (h : ∀ reply, send i (c.ask leg) = .ok reply → isSuccess reply.status = false) :
    ((PassthroughRun.rowsAfter serde ⟨c.errorRow (uuid i) leg.model :: rest.rows, rest.out⟩ n).map
          (fun row => (row.model, row.status)) = ((i, leg) :: xs).map (c.tells send n) ↔
        (c.streamsBody = false → ∀ x ∈ (i, leg) :: xs, ¬ c.LosesBody send x)) ↔
      ((rest.rowsAfter serde n).map (fun row => (row.model, row.status)) = xs.map (c.tells send n) ↔
        (c.streamsBody = false → ∀ x ∈ xs, ¬ c.LosesBody send x)) := by
  obtain ⟨hok, hlost⟩ := leg_failed (n := n) h
  have hrow : c.tells send n (i, leg) =
      ((c.errorRow (uuid i) leg.model).model, (c.errorRow (uuid i) leg.model).status) := by
    unfold GeminiCall.tells
    simp only [hok]
    rfl
  rw [rowsAfter_cons, List.map_cons, List.map_cons, hrow, List.cons_inj_right, List.forall_mem_cons,
    and_iff_right hlost]

/-- An answer that is no success writes the leg's error row, and the next leg is
asked exactly after an answer that is retried. -/
theorem answered_failed {answer : Except GatewayError VertexReply} {last : Option (Nat × Bytes)} {i : Nat} {leg : ChainLeg}
    {more : Bool} (h : ∀ reply, answer = .ok reply → isSuccess reply.status = false) :
    (∃ failure, c.answered serde uuid i last leg more answer = ([c.errorRow (uuid i) leg.model], .next failure) ∧
        retried answer = true ∧ more = true) ∨
      ∃ out, (∀ head stream, out ≠ .streamed head stream) ∧
        c.answered serde uuid i last leg more answer = ([c.errorRow (uuid i) leg.model], .ends out) ∧
        (retried answer = false ∨ more = false) := by
  cases answer with
  | error e =>
    cases more with
    | true => exact .inl ⟨last, rfl, rfl, rfl⟩
    | false => exact .inr ⟨.failed e, by simp, rfl, .inr rfl⟩
  | ok reply =>
    have hfail := h reply rfl
    rw [answered_fail hfail, retried, hfail]
    cases hretry : passthroughStatusRetryable reply.status with
    | false => exact .inr ⟨_, by simp, rfl, .inl rfl⟩
    | true =>
      cases more with
      | true => exact .inl ⟨_, rfl, rfl, rfl⟩
      | false => exact .inr ⟨_, by simp, rfl, .inr rfl⟩

theorem rowsTell_from (uuid : Nat → String) (legs : List ChainLeg) (i : Nat) (last : Option (Nat × Bytes)) :
    ((c.forwardGeminiLegs serde send uuid i last legs).rowsAfter serde n).map (fun row => (row.model, row.status)) =
        (c.attempted send i legs).map (c.tells send n) ↔
      (c.streamsBody = false → ∀ x ∈ c.attempted send i legs, ¬ c.LosesBody send x) := by
  induction legs generalizing i last with
  | nil =>
    cases last <;>
      simp [GeminiCall.forwardGeminiLegs, GeminiCall.legSteps, exhausted, GeminiCall.attempted, PassthroughRun.rowsAfter]
  | cons leg legs ih =>
    by_cases hsucc : ∃ reply, send i (c.ask leg) = .ok reply ∧ isSuccess reply.status = true
    · obtain ⟨reply, hsend, hok⟩ := hsucc
      rw [forwardGeminiLegs_ends (by rw [hsend, answered_succeed hok]),
        attempted_last (by rw [hsend, retried, hok]; rfl), List.forall_mem_singleton]
      exact rows_succeed hsend hok
    · have hfails : ∀ reply, send i (c.ask leg) = .ok reply → isSuccess reply.status = false := by
        intro reply hr
        exact eq_false_of_ne_true fun hok => hsucc ⟨reply, hr, hok⟩
      obtain ⟨failure, hnext, hretry, -⟩ | ⟨out, hout, hends, hlast⟩ :=
        @answered_failed serde c uuid _ last i leg (!legs.isEmpty) hfails
      · rw [forwardGeminiLegs_next hnext, attempted_retried (.inl hretry)]
        exact (rows_errorRow _ hfails).mpr (ih (i + 1) failure)
      · have hdone : (PassthroughRun.rowsAfter serde ⟨[], out⟩ n).map (fun row => (row.model, row.status)) = [] := by
          cases out with
          | streamed head stream => exact absurd rfl (hout head stream)
          | _ => rfl
        have hattempted : c.attempted send i (leg :: legs) = [(i, leg)] := by
          rcases hlast with hretry | hmore
          · exact attempted_last hretry
          · have hnil : legs = [] := by simpa using hmore
            rw [attempted_retried (.inr hnil), hnil]
            rfl
        rw [forwardGeminiLegs_ends hends, hattempted]
        exact (rows_errorRow ⟨[], out⟩ hfails).mpr (by simp [hdone])

end

end

/-- The rows of a call tell what its legs did exactly when it streams, or the
body of no success was lost. -/
theorem rowsTell_iff (serde : SerdeJson) (c : GeminiCall) (send : Nat → VertexCall → Except GatewayError VertexReply)
    (uuid : Nat → String) (legs : List ChainLeg) (n : Nat) : RowsTell serde c send uuid legs n ↔
      (c.streamsBody = false → ∀ x ∈ c.attempted send 0 legs, ¬ c.LosesBody send x) :=
  rowsTell_from uuid legs 0 none

def bufferedCall : GeminiCall where
  gateway := flashGateway
  ctx := {}
  route := some "gemini-2.5-flash"
  action := "generateContent"
  streaming := false
  altSse := false
  body := .object []

def resetAnswer (_leg : Nat) (_call : VertexCall) : Except GatewayError VertexReply :=
  .ok ⟨200, none, [.error "connection reset"]⟩

/-- The client gets a 502 for a body that broke off, and the row says `ok`. -/
theorem lost_body_says_ok :
    (∃ row, bufferedCall.forwardGeminiLegs (tableSerde []) resetAnswer (fun _ => "req-1") 0 none [flashLeg] =
        ⟨[row], .failed (.upstream 502 "connection reset")⟩ ∧ row.model = "gemini-2.5-flash" ∧ row.status = "ok") ∧
      ¬ RowsTell (tableSerde []) bufferedCall resetAnswer (fun _ => "req-1") [flashLeg] 0 := by
  refine ⟨⟨_, rfl, rfl, rfl⟩, ?_⟩
  intro h
  unfold RowsTell at h
  exact absurd h (by decide +kernel)

end SynapseGateway
