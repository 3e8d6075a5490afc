import SynapseGateway.Policy

/-!
# The scanner registry

`buildScanners` turns a spec into scanners of the crate, `compile` a list of
specs into a pipeline with each reported scanner's action and position.
-/

namespace SynapseGateway

open String (utf8Len)
open Utf8

def parseSeverity (s : String) : Except String Severity :=
  match s.toLower with
  | "block" => .ok .block
  | "warn" => .ok .warn
  | "info" => .ok .info
  | other => .error ("unknown severity '" ++ other ++ "' (expected block|warn|info)")

def blockPattern (id pat : String) : RegexPattern := ⟨id, pat, .block, .high⟩

def secretPattern (id pat : String) (confidence : Confidence) : RegexPattern := ⟨id, pat, .block, confidence⟩

/-! ## Credentials -/

def secretPatterns : List RegexPattern := [
  secretPattern "openai_key" "\\bsk-(?:proj-|ant-)?[A-Za-z0-9_-]\x7b20,\x7d\\b" .high,
  secretPattern "aws_access_key" "\\b(?:AKIA|ASIA|AGPA|AIDA|AROA|AIPA|ANPA|ANVA)[A-Z0-9]\x7b16\x7d\\b" .high,
  secretPattern "aws_secret_key"
    "(?i:aws_?secret_?(?:access_?)?key|secret_?access_?key)[\"']?\\s*[:=]\\s*[\"']?[A-Za-z0-9/+]\x7b40\x7d" .high,
  secretPattern "github_token" "\\bgh[psoru]_[A-Za-z0-9]\x7b36,\x7d\\b" .high,
  secretPattern "slack_token" "\\bxox[abprs]-[A-Za-z0-9-]\x7b10,\x7d\\b" .high,
  secretPattern "stripe_key" "\\b(?:sk|rk)_(?:live|test)_[A-Za-z0-9]\x7b16,\x7d\\b" .high,
  secretPattern "pem_private_key" "-----BEGIN (?:RSA |EC |DSA |OPENSSH |PGP )?PRIVATE KEY-----" .high,
  secretPattern "jwt" "\\beyJ[A-Za-z0-9_-]\x7b10,\x7d\\.[A-Za-z0-9_-]\x7b10,\x7d\\.[A-Za-z0-9_-]\x7b10,\x7d\\b" .medium]

def PRESIGNED_KEY_ID_PREFIX : Text := "x-amz-credential=".toList

/-- A presigned URL carries the key ID, never the secret key. -/
def inPresignedUrl (input : Text) (m : Match) : Bool :=
  let before := takeBytes m.start input
  m.pattern == "aws_access_key" && PRESIGNED_KEY_ID_PREFIX.length ≤ before.length &&
    (before.drop (before.length - PRESIGNED_KEY_ID_PREFIX.length)).map Char.toLower == PRESIGNED_KEY_ID_PREFIX

/-- The regex stops at 40 characters; a longer run is some other value. -/
def longerThanASecretKey (input : Text) (m : Match) : Bool :=
  m.pattern == "aws_secret_key" &&
    (dropBytes m.stop input).head?.any fun c => c.isAlphanum || c == '/' || c == '+'

variable (llm : LlmGuard)

/-- `llm-guard`'s `Secrets` patterns, except that an AWS key ID counts only
outside a presigned URL and a labelled AWS secret access key is added. -/
def secretsScan : Scanner where
  name := "secrets"
  scan input := (llm.regexScan "secrets" secretPatterns input).filter fun m =>
    !inPresignedUrl input m && !longerThanASecretKey input m

/-! ## The registry -/

def isolationBypassScanner : Scanner :=
  ⟨"isolation_bypass", llm.regexScan "isolation_bypass" [
    blockPattern "forged_identity_header"
      ("(?i)(?:^|[^a-z0-9-])x-(?:tenant|workspace|user|agent)-id(?:[\"']?\\s*[:=]|[\"']\\s*\\]\\s*=)|" ++
        "\\b(?:set|append|add|put|insert|header|setheader|set_header|add_header)\\s*\\(\\s*" ++
        "[\"']x-(?:tenant|workspace|user|agent)-id[\"']\\s*,"),
    blockPattern "internal_host" "(?i)[a-z0-9.-]+\\.svc\\.cluster(?:set)?\\.local",
    blockPattern "direct_internal_call" "(?i)\\b(?:curl|wget)\\b[^\\n]*\\.svc\\.cluster(?:set)?\\.local"]⟩

def dataExfilScanner : Scanner :=
  ⟨"data_exfil", llm.regexScan "data_exfil" [
    blockPattern "recursive_listing"
      ("(?is)/fs/ls\\b.*?recursive[\"'\\s]*[:=]\\s*[\"']?true\\b|" ++
        "recursive[\"'\\s]*[:=]\\s*[\"']?true\\b.*?/fs/ls\\b"),
    blockPattern "root_scope" "(?m)cortex://[^/\\s\"']+/[^/\\s\"']+/(?:[^A-Za-z0-9._~%-]|$)"]⟩

def build (name : String) (d : Option DetailedScanner) : Except String (List Scanner) :=
  match name with
  | "secrets" => .ok [secretsScan llm]
  | "pii" => .ok [llm.piiPatterns]
  | "isolation_bypass" => .ok [isolationBypassScanner llm]
  | "data_exfil" => .ok [dataExfilScanner llm]
  | "invisible_text" => .ok [llm.invisibleText]
  | "role_override" => .ok [llm.roleOverride]
  | "script_mix" => .ok [llm.scriptMix ((d.bind (·.threshold)).getD 2)]
  | "token_limit" =>
    match d.bind (·.maxChars) with
    | none => .error "scanner 'token_limit' requires 'max_chars'"
    | some n => .ok [llm.tokenLimit n]
  | "ban_substrings" =>
    match d with
    | none => .error "scanner 'ban_substrings' requires a table with 'substrings'"
    | some d =>
      if d.substrings.isEmpty then .error "scanner 'ban_substrings' requires a non-empty 'substrings' list"
      else do
        let severity ← match d.severity with
          | some s => parseSeverity s
          | none => .ok .block
        .ok [llm.banSubstrings "ban_substrings" d.substrings severity]
  | "prompt_injection" => .ok [llm.banSubstrings "injection" llm.commonInjectionPatterns .block, llm.roleOverride]
  | other => .error ("unknown scanner '" ++ other ++ "'")

def buildScanners : ScannerSpec → Except String (List Scanner)
  | .named name => build llm name none
  | .detailed d => build llm d.kind (some d)

structure CompiledScanners where
  pipeline : List Scanner
  actions : List (String × Action)
  order : List (String × Nat)

structure Compiling where
  out : CompiledScanners
  configured : List (String × Option Action)

def addScanner (policy : String) (i : Nat) (action : Option Action) (c : Compiling) (s : Scanner) :
    Except String Compiling :=
  if (c.configured.lookup s.name).any (· != action) then
    .error ("policy '" ++ policy ++ "': scanner '" ++ s.name ++ "' is configured with two different actions")
  else
    .ok {
      configured := (s.name, action) :: c.configured
      out := {
        pipeline := c.out.pipeline ++ [s]
        actions := match action with
          | some a => (s.name, a) :: c.out.actions
          | none => c.out.actions
        order := if (c.out.order.lookup s.name).isSome then c.out.order else (s.name, i) :: c.out.order } }

def compileFrom (policy : String) : Nat → List ScannerSpec → Compiling → Except String Compiling
  | _, [], c => .ok c
  | i, spec :: specs, c => do
    let scanners ← buildScanners llm spec
    let c ← scanners.foldlM (addScanner policy i spec.action) c
    compileFrom policy (i + 1) specs c

/-- Errors when one reported scanner name is configured in several tables with
different actions; an unset action differs from every explicit one. -/
def CompiledScanners.compile (policy : String) (specs : List ScannerSpec) : Except String CompiledScanners :=
  (compileFrom llm policy 0 specs ⟨⟨[], [], []⟩, []⟩).map (·.out)

end SynapseGateway
