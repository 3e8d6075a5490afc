import SynapseGateway.Chat
import SynapseGateway.Lib.Attempts

/-!
# The walks of the standard lane

The buffered walk takes the first leg whose stream drains to a completion, the
streaming walk the first that yields an item. `chain_walk`: what each returns,
calls and reports, and when the two return the same error.
-/

namespace SynapseGateway

open Attempts (retry Retried firstOk tried)

/-! ## Calls -/

structure OpenedStream where
  first : StreamItem
  rest : List (Except LegError StreamItem)
  /-- The items after the first before the idle bound passes. -/
  stall : Option Nat

def OpenedStream.items (s : OpenedStream) : List (Except LegError StreamItem) := .ok s.first :: s.rest

/-- A built provider as one leg meets it: the breaker's name where its guard
refuses the call, and what each attempt gives. -/
structure BuiltProvider where
  refused : Option String
  profile : Profile
  attempt : Nat → Except StartError OpenedStream

/-- A leg, and its provider if the catalog has it. -/
abbrev LegCase := ChainLeg × Option BuiltProvider

/-- The attempts upstream, and the results reported to the breaker. -/
structure CallTrace where
  attempts : Nat := 0
  reports : List Bool := []
deriving DecidableEq

inductive ResilienceError (ε : Type) where
  | circuitOpen (name : String)
  | exhausted (e : ε)

def runWithClassifier {ε β : Type} (op : Nat → Except ε β) (profile : Profile) (refused : Option String)
    (isRetryable : ε → Bool) : Except (ResilienceError ε) β × CallTrace :=
  match refused with
  | some name => (.error (.circuitOpen name), {})
  | none =>
    let (result, attempts) := retry isRetryable op (profile.policy.maxAttempts - 1) 0
    (result.mapError .exhausted, ⟨attempts, [result.isOk]⟩)

def commitOneLeg (p : BuiltProvider) : Except (ResilienceError StartError) OpenedStream × CallTrace :=
  runWithClassifier p.attempt p.profile p.refused StartError.isRetryable

def unbuiltMessage (leg : ChainLeg) : String := "unbuilt provider '" ++ leg.provider ++ "'"

/-- A failure after the stream is open is reported as well. -/
def bufferLeg (leg : ChainLeg) : Option BuiltProvider → Except BufferedLegError Completion × CallTrace
  | none => (.error (.failed (.start (unbuiltMessage leg)) "unbuilt_provider" none), {})
  | some p =>
    match commitOneLeg p with
    | (.error (.circuitOpen name), trace) => (.error (.circuitOpen name), trace)
    | (.error (.exhausted e), trace) => (.error (.failed e.intoLegError e.kind e.status), trace)
    | (.ok s, trace) =>
      match drain leg.provider leg.model {} (waits s.items (s.stall.map (· + 1))) with
      | .ok c => (.ok c, trace)
      | .error e => (.error e, { trace with reports := trace.reports ++ [false] })

/-! ## The walks -/

def legFailure (leg : ChainLeg) (message : String) : LegFailure := ⟨leg.provider, leg.model, message⟩

def noneServed (route : String) (allCircuitOpen : Bool) (failures : List LegFailure) : GatewayError :=
  if allCircuitOpen && !failures.isEmpty then .allCircuitsOpen route else .allLegsFailed route failures

def bufferedWalk (route : String) (failures : List LegFailure) (allCircuitOpen : Bool) (traces : List CallTrace) :
    List LegCase → Except GatewayError Completion × List CallTrace
  | [] => (.error (noneServed route allCircuitOpen failures), traces)
  | (leg, provider) :: legs =>
    match bufferLeg leg provider with
    | (.ok c, trace) => (.ok c, traces ++ [trace])
    | (.error (.circuitOpen name), trace) =>
      bufferedWalk route (failures ++ [legFailure leg ("circuit open: " ++ name)]) allCircuitOpen (traces ++ [trace]) legs
    | (.error (.failed error _ _), trace) =>
      bufferedWalk route (failures ++ [legFailure leg error.message]) false (traces ++ [trace]) legs

def executeBufferedWithTimeouts (route : String) (legs : List LegCase) :
    Except GatewayError Completion × List CallTrace :=
  bufferedWalk route [] true [] legs

def streamingWalk (route : String) (failures : List LegFailure) (allCircuitOpen : Bool) (traces : List CallTrace) :
    List LegCase → Except GatewayError CommittedStream × List CallTrace
  | [] => (.error (noneServed route allCircuitOpen failures), traces)
  | (leg, none) :: legs =>
    streamingWalk route (failures ++ [legFailure leg (unbuiltMessage leg)]) false (traces ++ [{}]) legs
  | (leg, some p) :: legs =>
    match commitOneLeg p with
    | (.ok s, trace) => (.ok ⟨leg.provider, leg.model, s.items⟩, traces ++ [trace])
    | (.error (.circuitOpen name), trace) =>
      streamingWalk route (failures ++ [legFailure leg ("circuit open: " ++ name)]) allCircuitOpen (traces ++ [trace]) legs
    | (.error (.exhausted e), trace) =>
      streamingWalk route (failures ++ [legFailure leg e.intoLegError.message]) false (traces ++ [trace]) legs

def executeStreamingWithTimeouts (route : String) (legs : List LegCase) :
    Except GatewayError CommittedStream × List CallTrace :=
  streamingWalk route [] true [] legs

end SynapseGateway
