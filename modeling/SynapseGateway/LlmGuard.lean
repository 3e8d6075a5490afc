import SynapseGateway.Lib.Utf8

/-!
# The scanner crate

The gateway builds its scanners from the `llm_guard` crate, which is not part
of the repository. `LlmGuard` is the part of it that the gateway calls; the
development is about every such crate, and a result that relies on what the
crate documents says so in a hypothesis.
-/

namespace SynapseGateway

open Utf8 (Text)

inductive Severity where
  | info | warn | block
deriving DecidableEq, Repr

inductive Confidence where
  | low | medium | high
deriving DecidableEq, Repr

structure Match where
  scanner : String
  pattern : String
  severity : Severity
  start : Nat
  stop : Nat
deriving DecidableEq, Repr

structure Scanner where
  name : String
  scan : Text → List Match

structure RegexPattern where
  id : String
  pat : String
  severity : Severity
  confidence : Confidence
deriving DecidableEq, Repr

structure LlmGuard where
  /-- `Pipeline::new(PipelineMode::All)` with these scanners, scanning a text. -/
  pipelineScan : List Scanner → Text → List Match
  regexScan : String → List RegexPattern → Text → List Match
  piiPatterns : Scanner
  invisibleText : Scanner
  roleOverride : Scanner
  scriptMix : Nat → Scanner
  tokenLimit : Nat → Scanner
  banSubstrings : String → List String → Severity → Scanner
  commonInjectionPatterns : List String

end SynapseGateway
