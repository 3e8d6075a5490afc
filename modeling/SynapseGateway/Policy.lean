import Mathlib.Data.Rat.Defs
import SynapseGateway.LlmGuard

/-!
# Guardrail policies and their startup checks
-/

namespace SynapseGateway

inductive PolicyMode where
  | block | observe
deriving DecidableEq, Repr

inductive Action where
  | block | mask | log
deriving DecidableEq, Repr

inductive OnError where
  | allow | block
deriving DecidableEq, Repr

structure ClassifierQuestion where
  instructions : String
  threshold : ℚ
  action : Option Action

structure ClassifierConfig where
  route : String
  onError : OnError
  questions : List (String × ClassifierQuestion)

structure DetailedScanner where
  kind : String
  substrings : List String := []
  severity : Option String := none
  maxChars : Option Nat := none
  threshold : Option Nat := none
  action : Option Action := none

inductive ScannerSpec where
  | named (name : String)
  | detailed (d : DetailedScanner)

def ScannerSpec.kind : ScannerSpec → String
  | .named n => n
  | .detailed d => d.kind

def ScannerSpec.action : ScannerSpec → Option Action
  | .named _ => none
  | .detailed d => d.action

structure Policy where
  mode : PolicyMode := .block
  scanners : List ScannerSpec
  classifier : Option ClassifierConfig := none
  outputScanners : List ScannerSpec := []
  outputHoldbackChars : Nat := 256

structure GuardrailsConfig where
  guardrails : List (String × Policy)

def maskable : List String := ["secrets", "pii", "ban_substrings"]

/-- Scanners `output_scanners` rejects, with the reason shown in the error. -/
def inputOnly : List (String × String) :=
  [("token_limit", ""), ("role_override", ""), ("prompt_injection", " (it includes role_override)")]

def checkMasks (policy key : String) (specs : List ScannerSpec) : Except String Unit :=
  match specs.find? fun s => s.action == some .mask && !maskable.contains s.kind with
  | some s => .error ("policy '" ++ policy ++ "': " ++ key ++ " scanner '" ++ s.kind ++
      "' cannot use action \"mask\" (only secrets, pii, ban_substrings)")
  | none => .ok ()

def checkPolicy (name : String) (p : Policy) : Except String Unit := do
  checkMasks name "scanners" p.scanners
  checkMasks name "output_scanners" p.outputScanners
  match p.outputScanners.findSome? fun s => inputOnly.find? fun k => k.1 == s.kind with
  | some (kind, why) =>
    .error ("policy '" ++ name ++ "': output_scanners cannot list '" ++ kind ++ "'" ++ why)
  | none => .ok ()
  if p.outputHoldbackChars = 0 then
    .error ("policy '" ++ name ++ "': output_holdback_chars must be at least 1")
  else .ok ()

/-! ## What a checked policy promises -/

theorem checkMasks_ok {policy key : String} {specs : List ScannerSpec} (h : checkMasks policy key specs = .ok ())
    {s : ScannerSpec} (hs : s ∈ specs) (hm : s.action = some .mask) : s.kind ∈ maskable := by
  unfold checkMasks at h
  cases hf : specs.find? fun s => s.action == some .mask && !maskable.contains s.kind with
  | some bad => rw [hf] at h; cases h
  | none =>
    have := List.find?_eq_none.mp hf s hs
    simpa [hm] using this

theorem checkPolicy_ok {name : String} {p : Policy} (h : checkPolicy name p = .ok ()) :
    checkMasks name "scanners" p.scanners = .ok () ∧
      checkMasks name "output_scanners" p.outputScanners = .ok () ∧ 0 < p.outputHoldbackChars := by
  unfold checkPolicy at h
  cases h1 : checkMasks name "scanners" p.scanners with
  | error e => rw [h1] at h; cases h
  | ok _ =>
    cases h2 : checkMasks name "output_scanners" p.outputScanners with
    | error e => rw [h1, h2] at h; cases h
    | ok _ =>
      refine ⟨rfl, rfl, Nat.pos_of_ne_zero fun h0 => ?_⟩
      rw [h1, h2] at h
      cases h3 : p.outputScanners.findSome? fun s => inputOnly.find? fun k => k.1 == s.kind with
      | some k => rw [h3] at h; cases h
      | none => rw [h3, h0] at h; cases h

end SynapseGateway
