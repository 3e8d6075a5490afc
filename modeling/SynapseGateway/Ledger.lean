/-!
# Usage rows
-/

namespace SynapseGateway

structure Attribution where
  workspace : Option String := none
  user : Option String := none
  thread : Option String := none
  message : Option String := none
  userTaskType : Option String := none
  aiTaskType : String := "simple"
deriving DecidableEq, Repr

structure UsageEntry where
  tenant : String
  attribution : Attribution
  route : String
  provider : String
  model : String
  lane : String
  inputTokens : Nat
  outputTokens : Nat
  requestId : String
  status : String
  op : String
  tier : Option String := none
  outcome : Option String := none
deriving DecidableEq, Repr

/-- Who a call is for, and how its row is told apart. -/
structure RequestCtx where
  tenant : Option String := none
  workspace : Option String := none
  user : Option String := none
  thread : Option String := none
  message : Option String := none
  userTaskType : Option String := none
  aiTaskType : Option String := none
  requestId : Option String := none
deriving DecidableEq, Repr

def RequestCtx.resolvedRequestId (ctx : RequestCtx) : Option String := (ctx.requestId.or ctx.message).filter (· != "")

/-- The caller's task type if it gives one, else the one configured for the alias. -/
def RequestCtx.aiTaskTypeOf (ctx : RequestCtx) (configured : String → String) (routeAlias : String) : String :=
  (ctx.aiTaskType.filter (· != "")).getD (configured routeAlias)

def RequestCtx.attributionOf (ctx : RequestCtx) (configured : String → String) (routeAlias : String) : Attribution where
  workspace := ctx.workspace
  user := ctx.user
  thread := ctx.thread
  message := ctx.message
  userTaskType := ctx.userTaskType
  aiTaskType := ctx.aiTaskTypeOf configured routeAlias

end SynapseGateway
