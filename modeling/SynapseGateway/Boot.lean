import Mathlib.Data.Finset.Sort
import SynapseGateway.AiTaskType
import SynapseGateway.Embeddings
import SynapseGateway.GuardClassifier
import SynapseGateway.Lib.Fallible

/-!
# Starting the gateway

The environment and the files decide what a gateway serves: the tables are pruned
where that is allowed, the guard is checked against them, and every provider they
name is built.
-/

namespace SynapseGateway

open Fallible (refuseIf okOr)

/-! ## The environment -/

abbrev Env := String → Option String

def trimmed (s : String) : String := String.ofList (trim s.toList)

def Env.get (env : Env) (key : String) : Option String := (env key).filter fun v => !isBlank v

def Env.trimmed (env : Env) (key : String) : Option String :=
  ((env key).map SynapseGateway.trimmed).filter fun v => v != ""

def Env.lowered (env : Env) (key : String) : Option String :=
  (env key).map fun v => String.ofList ((trim v.toList).map Char.toLower)

def vertexProjectFromEnv (env : Env) : Option String := ["VERTEX_PROJECT_ID", "VERTEX_PROJECT"].findSome? env.trimmed

inductive ProviderValidation where
  | strict | lenient
deriving DecidableEq, Repr

def ProviderValidation.fromEnv (env : Env) : ProviderValidation :=
  if env.lowered "SYNAPSE_PROVIDER_VALIDATION" = some "lenient" then .lenient else .strict

inductive GuardrailsMode where
  | required | optional
deriving DecidableEq, Repr

def GuardrailsMode.fromEnv (env : Env) : GuardrailsMode :=
  if env.lowered "SYNAPSE_GUARDRAILS" = some "optional" then .optional else .required

/-- The order in which the providers of a set are met. -/
structure HashOrder where
  iter : Finset String → List String
  mem_iter : ∀ s p, p ∈ iter s ↔ p ∈ s

/-! ## What cannot be satisfied -/

inductive Unsatisfiable where
  | missingCredential (provider required : String)
  | unknownProvider (provider : String)
deriving DecidableEq

def Unsatisfiable.provider : Unsatisfiable → String
  | .missingCredential provider _ | .unknownProvider provider => provider

def Unsatisfiable.message : Unsatisfiable → String
  | .missingCredential provider required => "provider '" ++ provider ++ "' needs " ++ required ++ ", which is unset"
  | .unknownProvider provider => "provider '" ++ provider ++ "' is not recognised by this build"

def needsKey (env : Env) (provider key : String) : Option Unsatisfiable :=
  if (env.get key).isSome then none else some (.missingCredential provider key)

def unsatisfiable (env : Env) (id : String) : Option Unsatisfiable :=
  match id with
  | "vertex" =>
    if (vertexProjectFromEnv env).isNone then some (.missingCredential id "VERTEX_PROJECT_ID") else none
  | "qwen" => needsKey env id "DASHSCOPE_API_KEY"
  | "openai" => needsKey env id "OPENAI_API_KEY"
  | "typesafe" => needsKey env id "TYPESAFE_API_KEY"
  | "oai_compat" => needsKey env id "OAI_COMPAT_BASE_URL"
  | _ => some (.unknownProvider id)

def unsatisfiableProviders (order : HashOrder) (env : Env) (referenced : Finset String) : List Unsatisfiable :=
  ((order.iter referenced).filterMap (unsatisfiable env)).insertionSort fun a b => a.provider ≤ b.provider

/-! ## The catalog -/

/-- The client of a provider, with what it is built from. -/
inductive BuiltClient where
  | vertex (project region : String)
  | openaiCompat (id endpoint apiKey : String)
deriving DecidableEq

def deriveOpenaiCompatEndpoint (baseUrl : String) : String :=
  String.ofList ((baseUrl.toList.reverse.dropWhile (· == '/')).reverse ++ ['/'])

def openaiCompat (id baseUrl apiKey : String) : BuiltClient :=
  .openaiCompat id (deriveOpenaiCompatEndpoint baseUrl) apiKey

def unsetMessage (kind id key : String) : BootError := [kind ++ " references provider '" ++ id ++ "' but " ++ key]

/-- The client of a referenced provider. `typesafe` has none, but needs its key. -/
def buildClient (env : Env) (id : String) : Except BootError (Option BuiltClient) :=
  match id with
  | "vertex" =>
    (okOr (vertexProjectFromEnv env) (unsetMessage "route" id "VERTEX_PROJECT_ID and VERTEX_PROJECT are unset")).map
      fun project => some (.vertex project "global")
  | "qwen" =>
    (okOr (env.get "DASHSCOPE_API_KEY") (unsetMessage "route" id "DASHSCOPE_API_KEY is unset")).map fun key =>
      some (openaiCompat id ((env.get "DASHSCOPE_BASE_URL").getD "https://dashscope-intl.aliyuncs.com/compatible-mode/v1")
        key)
  | "openai" =>
    (okOr (env.get "OPENAI_API_KEY") (unsetMessage "route" id "OPENAI_API_KEY is unset")).map fun key =>
      some (openaiCompat id ((env.get "OPENAI_BASE_URL").getD "https://api.openai.com/v1") key)
  | "typesafe" => (okOr (env.get "TYPESAFE_API_KEY") (unsetMessage "route" id "TYPESAFE_API_KEY is unset")).map fun _ => none
  | "oai_compat" =>
    (okOr (env.get "OAI_COMPAT_BASE_URL") (unsetMessage "route" id "OAI_COMPAT_BASE_URL is unset")).map fun url =>
      some (openaiCompat id url ((env.get "OAI_COMPAT_API_KEY").getD "not-needed"))
  | _ => .error ["unknown provider id in route table: '" ++ id ++ "'"]

abbrev Catalog := List (String × BuiltClient)

def Catalog.build (env : Env) (referenced : List String) : Except BootError Catalog :=
  (referenced.mapM fun id => (buildClient env id).map fun client => client.map (id, ·)).map (·.filterMap id)

/-! ## Embedding aliases -/

structure EmbeddingsFile where
  embeddings : List (String × EmbeddingEntry)
  nodup : (embeddings.map (·.1)).Nodup

structure EmbeddingRouteTable where
  routes : List (String × EmbeddingEntry)

def checkEmbedding (name : String) (e : EmbeddingEntry) : Except BootError Unit := do
  refuseIf (e.dimensions = 0) ["embedding alias '" ++ name ++ "' has dimensions = 0"]
  refuseIf (e.legs = []) ["embedding alias '" ++ name ++ "' has no legs"]

def EmbeddingRouteTable.fromFile (file : EmbeddingsFile) : Except BootError EmbeddingRouteTable :=
  (file.embeddings.mapM fun e => checkEmbedding e.1 e.2).map fun _ => ⟨file.embeddings⟩

def EmbeddingRouteTable.entry (t : EmbeddingRouteTable) (name : String) : Option EmbeddingEntry := t.routes.lookup name

def EmbeddingRouteTable.withoutProviders (t : EmbeddingRouteTable) (drop : Finset String) : EmbeddingRouteTable :=
  ⟨(t.routes.map fun e => (e.1, { e.2 with legs := e.2.legs.filter (·.provider ∉ drop) })).filter (!·.2.legs.isEmpty)⟩

def EmbeddingRouteTable.referencedProviders (t : EmbeddingRouteTable) : Finset String :=
  (t.routes.flatMap fun e => e.2.legs.map (·.provider)).toFinset

def RouteTable.referencedProviders (t : RouteTable) : Finset String :=
  (t.routes.flatMap (fun e => e.2.map (·.provider)) ++ (if t.jev.isEmpty then [] else ["typesafe"])).toFinset

inductive BuiltEmbedder where
  | vertex (project location : String)
  | openai (baseUrl apiKey : String)
deriving DecidableEq

def vertexLocation (env : Env) : String := (env.trimmed "VERTEX_LOCATION").getD "global"

def buildEmbedder (env : Env) (id : String) : Except BootError BuiltEmbedder :=
  match id with
  | "vertex" =>
    (okOr (vertexProjectFromEnv env)
      (unsetMessage "embedding alias" id "VERTEX_PROJECT_ID and VERTEX_PROJECT are unset")).map
      fun project => .vertex project (vertexLocation env)
  | "openai" =>
    (okOr (env.get "OPENAI_API_KEY") (unsetMessage "embedding alias" id "OPENAI_API_KEY is unset")).map
      fun key => .openai ((env.get "OPENAI_BASE_URL").getD "https://api.openai.com/v1") key
  | _ => .error ["embedding provider '" ++ id ++ "' not supported"]

def buildEmbedders (env : Env) (referenced : List String) : Except BootError (List (String × BuiltEmbedder)) :=
  referenced.mapM fun id => (buildEmbedder env id).map (id, ·)

/-! ## The guard -/

def mentioned (kind : String) (policies : List (String × String)) : List (String × String × String) :=
  (policies.insertionSort fun a b => a.1 ≤ b.1).map fun e => (kind, e.1, e.2)

def EmbeddingRouteTable.policies (t : EmbeddingRouteTable) : List (String × String) :=
  t.routes.filterMap fun e => e.2.policy.map (e.1, ·)

def checkClassifier (policy : String) (c : ClassifierConfig) (routes : RouteTable) : Except BootError Unit := do
  let legs ← okOr (routes.legs c.route) ["policy '" ++ policy ++ "': classifier route '" ++ c.route ++ "' is not defined"]
  refuseIf ((legs.any (·.provider == "typesafe")) = false)
    ["policy '" ++ policy ++ "': classifier route '" ++ c.route ++ "' has no typesafe leg"]
  refuseIf (c.questions = []) ["policy '" ++ policy ++ "': classifier needs at least one entry in questions"]
  c.questions.forM fun q => do
    refuseIf (¬ (0 ≤ q.2.threshold ∧ q.2.threshold ≤ 1))
      ["policy '" ++ policy ++ "': classifier question '" ++ q.1 ++ "' threshold must be within 0..1"]
    refuseIf (q.2.action = some .mask)
      ["policy '" ++ policy ++ "': classifier question '" ++ q.1 ++ "' cannot use action \"mask\""]

def validatePolicyKeys (cfg : GuardrailsConfig) (routes : RouteTable) : Except BootError Unit :=
  cfg.guardrails.forM fun e => do
    (checkPolicy e.1 e.2).mapError ([·])
    match e.2.classifier with
    | none => .ok ()
    | some c => checkClassifier e.1 c routes

/-- The policies that are named and not there, each with who names it. -/
def undefinedPolicies (cfg : GuardrailsConfig) (routes : RouteTable) (embeds : EmbeddingRouteTable) :
    List (String × String × String) :=
  (mentioned "route" routes.policies ++ mentioned "embedding" embeds.policies).filter fun m =>
    (cfg.guardrails.lookup m.2.2).isNone

def validateGuardrails (mode : GuardrailsMode) (path : String) (guardrails : Option GuardrailsConfig) (routes : RouteTable)
    (embeds : EmbeddingRouteTable) : Except BootError Unit :=
  match guardrails with
  | none => refuseIf (mode = .required)
      ["guardrails file '" ++ path ++ "' not found; set SYNAPSE_GUARDRAILS=optional to run without guardrails"]
  | some cfg => do
    validatePolicyKeys cfg routes
    refuseIf (mode = .required ∧ undefinedPolicies cfg routes embeds ≠ [])
      ["; ".intercalate ((undefinedPolicies cfg routes embeds).map fun m =>
        m.1 ++ " '" ++ m.2.1 ++ "' names undefined policy '" ++ m.2.2 ++ "'") ++ " in '" ++ path ++
          "'; define them or set SYNAPSE_GUARDRAILS=optional"]

section
variable (llm : LlmGuard) (w : ClassifierOutside)

def GuardEngine.wire (eng : GuardEngine) (policy : String) (c : Classifier) : GuardEngine :=
  ⟨eng.policies.map fun e => if e.1 == policy then (e.1, { e.2 with classifier := some c }) else e⟩

def GuardEngine.withClassifiers (cfg : GuardrailsConfig) (routes : RouteTable) (jev : Bool) (eng : GuardEngine) :
    Except BootError GuardEngine :=
  cfg.guardrails.foldlM (fun eng e =>
    match e.2.classifier with
    | none => .ok eng
    | some c => do
      refuseIf (jev = false) ["policy '" ++ e.1 ++ "': a classifier requires TYPESAFE_API_KEY"]
      let k ← (GuardClassifier.new c routes).mapError (("policy '" ++ e.1 ++ "'") :: ·)
      .ok (eng.wire e.1 (k.asked w))) eng

def buildGuard (guardrails : Option GuardrailsConfig) (routes : RouteTable) (jev : Bool) : Except BootError GuardEngine :=
  match guardrails with
  | none => .ok ⟨[]⟩
  | some cfg => do
    validatePolicyKeys cfg routes
    let eng ← (GuardEngine.fromConfig llm cfg).mapError ([·])
    eng.withClassifiers w cfg routes jev

/-! ## The start -/

/-- The files of a start. Of the price list and of the A2A seed only the failure to
read or to take them matters. -/
structure BootFiles where
  routes : RoutesFile
  embeddings : EmbeddingsFile
  pricing : Except BootError Unit := .ok ()
  aiTaskTypes : Option AiTaskTypesFile := none
  guardrailsPath : String := "config/guardrails.toml"
  guardrails : Option GuardrailsConfig
  a2aSeed : Except BootError Unit := .ok ()

/-- Without the file every alias has the default task type. -/
def BootFiles.taskTypes (files : BootFiles) : Except BootError AiTaskTypeTable :=
  match files.aiTaskTypes with
  | none => .ok {}
  | some file => (AiTaskTypeTable.fromFile file).mapError ([·])

structure JevNative where
  apiKey : String
  baseUrl : String
deriving DecidableEq

def JevNative.fromEnv (env : Env) : Option JevNative :=
  (env.trimmed "TYPESAFE_API_KEY").map fun key =>
    ⟨key, (env.trimmed "TYPESAFE_BASE_URL").getD "https://api.typesafe.ai"⟩

structure VertexNative where
  project : String
  location : String
deriving DecidableEq

structure BootedGateway where
  routes : RouteTable
  embedRoutes : EmbeddingRouteTable
  aiTaskTypes : AiTaskTypeTable
  catalog : Catalog
  jevNative : Option JevNative
  vertexNative : Option VertexNative
  embedders : List (String × BuiltEmbedder)
  guard : GuardEngine

def dropped (order : HashOrder) (env : Env) (routes : RouteTable) (embeds : EmbeddingRouteTable) : Finset String :=
  ((unsatisfiableProviders order env (routes.referencedProviders ∪ embeds.referencedProviders)).map
    (·.provider)).toFinset

/-- The tables that are served. -/
def servedTables (order : HashOrder) (env : Env) (routes : RouteTable) (embeds : EmbeddingRouteTable) :
    RouteTable × EmbeddingRouteTable :=
  match ProviderValidation.fromEnv env with
  | .strict => (routes, embeds)
  | .lenient =>
    let drop := dropped order env routes embeds
    (routes.withoutProviders drop, embeds.withoutProviders drop)

def boot (order : HashOrder) (env : Env) (files : BootFiles) : Except BootError BootedGateway := do
  let routes ← (RouteTable.fromFile files.routes).mapError ([·])
  let embeds ← EmbeddingRouteTable.fromFile files.embeddings
  let tables := servedTables order env routes embeds
  files.pricing
  let taskTypes ← files.taskTypes
  validateGuardrails (GuardrailsMode.fromEnv env) files.guardrailsPath files.guardrails tables.1 tables.2
  let catalog ← Catalog.build env (order.iter tables.1.referencedProviders)
  let embedders ← buildEmbedders env (order.iter tables.2.referencedProviders)
  let guard ← buildGuard llm w files.guardrails tables.1 (JevNative.fromEnv env).isSome
  files.a2aSeed
  .ok {
    routes := tables.1
    embedRoutes := tables.2
    aiTaskTypes := taskTypes
    catalog := catalog
    jevNative := JevNative.fromEnv env
    vertexNative := (vertexProjectFromEnv env).map fun project => ⟨project, vertexLocation env⟩
    embedders := embedders
    guard := guard }

end

end SynapseGateway
