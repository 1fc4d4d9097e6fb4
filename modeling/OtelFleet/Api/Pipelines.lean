import OtelFleet.Api.Scope
import OtelFleet.Pipelines.Service

/-! # Pipeline handlers -/

namespace OtelFleet.Api

open Data Store Semantics Pipelines

abbrev HandlerM := Eff World ApiError

structure VersionResponse where
  version : Nat
  valid : Bool
  active : Bool
  createdBy : Option String
  createdAt : Int
  graph : Graph
  renderedYaml : YamlNode
  configHash : String

structure ValidationResponse where
  valid : Bool
  errors : List (String × Option String)
  renderedYaml : Option YamlNode

structure RolloutResponse where
  activeVersion : Nat
  state : String
  detail : String

/-- Graphs leaving the backend are redacted. -/
def toVersion (version : PipelineVersion) : Except String VersionResponse :=
  match parseGraph version.row.graph with
  | .error msg => .error msg
  | .ok graph => .ok
    { version := version.row.version, valid := version.row.valid, active := version.active
      createdBy := version.createdByEmail, createdAt := version.row.createdAt
      graph := redactGraphSecrets graph, renderedYaml := version.row.renderedYAML
      configHash := version.row.configHash }

def toValidationResult (res : Result) : ValidationResponse :=
  ⟨res.valid, res.issues.map fun issue => (issue.message, issue.path), res.renderedYAML⟩

inductive CreateVersionResponse where
  | invalid (res : ValidationResponse)
  | created (version : VersionResponse)

def notFoundOr (msg : String) : ServiceError → ApiError
  | .store .notFound => .notFound msg
  | _ => .internal

def activateError : ServiceError → ApiError
  | .store .conflict => .badRequest "version is not valid and cannot be activated"
  | err => notFoundOr "version not found" err

def callService {α : Type} (answer : ServiceError → ApiError) (call : ServiceM α) : HandlerM α := do
  match ← call.attempt with
  | .ok value => return value
  | .error err => Eff.throw (answer err)

variable (env : ServiceEnv) (principal : Option Principal) (pipelineID : Uuid)

/-- `requirePipelineAccess`: a failed load passes, for the handler's own load to
    report. -/
def requirePipelineAccess : HandlerM Unit := do
  match customerScope principal with
  | none => return ()
  | some _ =>
    match ← (query env fun db => db.getPipeline pipelineID).attempt with
    | .error _ => return ()
    | .ok pipe => Eff.ofExcept (requireCustomerAccess principal (some pipe.customerID))

def deletePipelineHandler [PrintTable] : HandlerM Unit := do
  requirePipelineAccess env principal pipelineID
  callService (notFoundOr "pipeline not found") (deletePipeline env pipelineID)

def versionResponse (created : CreatedVersion) : Except ApiError CreateVersionResponse :=
  match created with
  | .invalid res => .ok (.invalid (toValidationResult res))
  | .created version =>
    match toVersion version with
    | .error _ => .error .internal
    | .ok response => .ok (.created response)

def createVersionResponse [PrintTable] (graph : Graph) : HandlerM CreateVersionResponse := do
  let created ← callService (notFoundOr "pipeline not found") (createVersion env pipelineID graph)
  Eff.ofExcept (versionResponse created)

def createPipelineVersionHandler [PrintTable] (graph : Graph) :
    HandlerM CreateVersionResponse := do
  requirePipelineAccess env principal pipelineID
  createVersionResponse env pipelineID graph

def getPipelineVersionHandler (version : Nat) : HandlerM VersionResponse := do
  requirePipelineAccess env principal pipelineID
  let found ← callService (notFoundOr "version not found")
    (query env fun db => db.getPipelineVersion pipelineID version)
  Eff.ofExcept ((toVersion found).mapError fun _ => .internal)

def activatePipelineVersionHandler [PrintTable] (version : Nat) :
    HandlerM RolloutResponse := do
  requirePipelineAccess env principal pipelineID
  let (_, rollout) ← callService activateError (activate env pipelineID version)
  return ⟨version, rollout.state, rollout.detail⟩

end OtelFleet.Api
