import SynapseGateway.Lib.Channel
import SynapseGateway.Lib.Slots
import SynapseGateway.Lib.Steps

/-!
# The ledger queue

Callers put entries on a bounded channel and never wait. The background writer
takes one entry at a time and offers it to every sink; a sink that fails is
counted and does not hold up the others.
-/

namespace SynapseGateway

/-! ## The configured sinks -/

inductive LedgerBackend where
  | sqlite
  | postgres
  | pubsub
  | sns
deriving DecidableEq, Repr

def LedgerBackend.label : LedgerBackend → String
  | .sqlite => "sqlite"
  | .postgres => "postgres"
  | .pubsub => "pubsub"
  | .sns => "sns"

def LedgerBackend.named : String → Option LedgerBackend
  | "sqlite" => some .sqlite
  | "postgres" => some .postgres
  | "pubsub" => some .pubsub
  | "sns" => some .sns
  | _ => none

def addBackend (out : List LedgerBackend) (name : String) : Except String (List LedgerBackend) :=
  if name = "" then .ok out
  else
    match LedgerBackend.named name with
    | none => .error ("unknown ledger backend '" ++ name ++ "' (sqlite|postgres|pubsub|sns)")
    | some b =>
      if b ∈ out then .error ("duplicate ledger backend '" ++ name ++ "' in SYNAPSE_LEDGER_BACKENDS")
      else .ok (out ++ [b])

/-- The names between the commas, trimmed and in lower case. -/
def parseLedgerBackends (names : List String) : Except String (List LedgerBackend) := do
  let out ← names.foldlM addBackend []
  if out = [] then .error "SYNAPSE_LEDGER_BACKENDS resolved to an empty backend list" else .ok out

inductive LedgerStore where
  | noop
  | single (label : String)
  | fanout (labels : List String)
deriving DecidableEq, Repr

/-- `connects` says which backends could be reached at the start. -/
def buildStore (backends : List LedgerBackend) (connects : LedgerBackend → Bool) : LedgerStore :=
  match (backends.filter connects).map LedgerBackend.label with
  | [] => .noop
  | [label] => .single label
  | labels => .fanout labels

/-- Under which label the failures of each sink are counted: the fan-out counts
its own, the writer counts those of a store it calls directly. -/
def LedgerStore.labels : LedgerStore → List String
  | .noop => []
  | .single _ => ["writer"]
  | .fanout labels => labels

/-! ## The queue and its writer -/

inductive SinkPhase where
  | waiting
  | called
  | answered
deriving DecidableEq, Repr

structure Sink (α : Type) where
  label : String
  phase : SinkPhase := .answered
  offered : List α := []
  accepted : List α := []
  failures : Nat := 0

structure LedgerState (α : Type) where
  channel : Channel α
  writing : Option α := none
  taken : List α := []
  sinks : List (Sink α)
  ledgerDropped : Nat := 0
  ledgerErrors : String → Nat := fun _ => 0

inductive LedgerEvent (α : Type) where
  | enqueue (entry : α)
  | recv
  | call (sink : Nat)
  | answer (sink : Nat) (ok : Bool)
  | recorded
deriving DecidableEq, Repr

variable {α : Type}

/-- A channel of capacity 0 cannot be made. -/
def spawn (store : LedgerStore) (capacity : Nat) : Option (LedgerState α) :=
  if capacity = 0 then none
  else some { channel := .new capacity, sinks := store.labels.map ({ label := · }) }

def Sink.await (sink : Sink α) : Sink α := { sink with phase := .waiting }

def Sink.call (sink : Sink α) (entry : α) : Sink α := { sink with phase := .called, offered := sink.offered ++ [entry] }

def Sink.answer (sink : Sink α) (entry : α) : Bool → Sink α
  | true => { sink with phase := .answered, accepted := sink.accepted ++ [entry] }
  | false => { sink with phase := .answered, failures := sink.failures + 1 }

def LedgerState.enqueue (s : LedgerState α) (entry : α) : LedgerState α :=
  match s.channel.trySend entry with
  | some channel => { s with channel }
  | none => { s with ledgerDropped := s.ledgerDropped + 1 }

def LedgerState.take (s : LedgerState α) (entry : α) (channel : Channel α) : LedgerState α :=
  { s with channel, writing := some entry, taken := s.taken ++ [entry], sinks := s.sinks.map Sink.await }

def LedgerState.ledgerError (s : LedgerState α) (label : String) : String → Nat :=
  fun l => if l = label then s.ledgerErrors l + 1 else s.ledgerErrors l

def LedgerState.answer (s : LedgerState α) (i : Nat) (sink : Sink α) (entry : α) (ok : Bool) : LedgerState α :=
  { s with
    sinks := s.sinks.set i (sink.answer entry ok)
    ledgerErrors := if ok then s.ledgerErrors else s.ledgerError sink.label }

/-- One step of a producer, of the writer or of a sink; `none` where it cannot happen. -/
def LedgerState.step (s : LedgerState α) : LedgerEvent α → Option (LedgerState α)
  | .enqueue entry => some (s.enqueue entry)
  | .recv =>
    match s.writing with
    | some _ => none
    | none => s.channel.recv.map fun (entry, channel) => s.take entry channel
  | .call i =>
    match s.writing, s.sinks[i]? with
    | some entry, some sink =>
      if sink.phase = .waiting then some { s with sinks := s.sinks.set i (sink.call entry) } else none
    | _, _ => none
  | .answer i ok =>
    match s.writing, s.sinks[i]? with
    | some entry, some sink => if sink.phase = .called then some (s.answer i sink entry ok) else none
    | _, _ => none
  | .recorded =>
    match s.writing with
    | some _ => if s.sinks.all (·.phase == .answered) then some { s with writing := none } else none
    | none => none

def runLedger (s : LedgerState α) (evs : List (LedgerEvent α)) : Option (LedgerState α) :=
  evs.foldlM LedgerState.step s

end SynapseGateway
