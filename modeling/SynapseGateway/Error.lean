/-!
# Gateway errors
-/

namespace SynapseGateway

structure LegFailure where
  provider : String
  model : String
  message : String
deriving DecidableEq, Repr

inductive GatewayError where
  | unknownModel (model : String)
  | nativeFeatureUnsupported (feature route : String)
  | badRequest (message : String)
  | allLegsFailed (route : String) (failures : List LegFailure)
  | allCircuitsOpen (route : String)
  | upstreamTimeout
  | upstream (status : Nat) (body : String)
  | contentBlocked (policy : String) (scanners patterns : List String)
  | guardUnavailable (policy : String)
  | harnessMismatch (expected requested : String)
  | sessionBusy (session : String)
  | modelUnavailable (message : String)
  | harnessUnavailable (message : String)
deriving DecidableEq, Repr

def GatewayError.message : GatewayError → String
  | .unknownModel model => "unknown model alias '" ++ model ++ "'"
  | .nativeFeatureUnsupported feature route => "native feature '" ++ feature ++ "' is not available on route '" ++ route ++ "'"
  | .badRequest message => "invalid request: " ++ message
  | .allLegsFailed route _ => "all legs of route '" ++ route ++ "' failed"
  | .allCircuitsOpen route => "all providers for route '" ++ route ++ "' are unavailable"
  | .upstreamTimeout => "upstream timed out"
  | .upstream status body => "upstream error " ++ toString status ++ ": " ++ body
  | .contentBlocked policy _ _ => "request blocked by content policy '" ++ policy ++ "'"
  | .guardUnavailable policy => "guard classifier for policy '" ++ policy ++ "' is unavailable"
  | .harnessMismatch expected requested =>
    "session belongs to harness '" ++ expected ++ "', cannot switch to '" ++ requested ++ "'"
  | .sessionBusy session => "session '" ++ session ++ "' already has an in-flight turn"
  | .modelUnavailable message => "model unavailable: " ++ message
  | .harnessUnavailable message => "harness unavailable: " ++ message

end SynapseGateway
