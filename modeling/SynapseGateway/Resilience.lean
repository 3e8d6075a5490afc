/-!
# Retries and circuit breakers

Times are in milliseconds. A guard or a record of a breaker is one atomic step;
calls that share a breaker interleave between such steps.
-/

namespace SynapseGateway

inductive Profile where
  | default | fast | aggressive
deriving DecidableEq, Repr

structure ResiliencePolicy where
  maxAttempts : Nat
  breakerThreshold : Nat
  breakerOpenFor : Nat
deriving DecidableEq, Repr

def Profile.policy : Profile → ResiliencePolicy
  | .default => ⟨3, 5, 30000⟩
  | .fast => ⟨1, 10, 15000⟩
  | .aggressive => ⟨5, 10, 60000⟩

inductive BreakerState where
  | closed | opened | halfOpen
deriving DecidableEq, Repr

structure CircuitBreaker where
  name : String
  threshold : Nat
  openFor : Nat
  consecutiveFailures : Nat := 0
  state : BreakerState := .closed
  openedAt : Option Nat := none
deriving DecidableEq, Repr

def CircuitBreaker.new (name : String) (profile : Profile) : CircuitBreaker where
  name := name
  threshold := profile.policy.breakerThreshold
  openFor := profile.policy.breakerOpenFor

/-- Whether a call may go ahead at time `now`. An open breaker whose time is up
becomes half-open. -/
def CircuitBreaker.guard (b : CircuitBreaker) (now : Nat) : Bool × CircuitBreaker :=
  match b.state with
  | .closed | .halfOpen => (true, b)
  | .opened =>
    if now - b.openedAt.getD now ≥ b.openFor then (true, { b with state := .halfOpen })
    else (false, b)

def CircuitBreaker.record (b : CircuitBreaker) (ok : Bool) (now : Nat) : CircuitBreaker :=
  if ok then { b with consecutiveFailures := 0, state := .closed }
  else
    let n := b.consecutiveFailures + 1
    if n ≥ b.threshold then { b with consecutiveFailures := n, state := .opened, openedAt := some now }
    else { b with consecutiveFailures := n }

end SynapseGateway
