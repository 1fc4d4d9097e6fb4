import OtelFleet.Pipelines.Distribute
import OtelFleet.Pipelines.Secrets
import OtelFleet.Semantics.Effect
import OtelFleet.Store.Pipelines

/-! # The pipeline service

Validation, versioning, activation and distribution.  A request runs on a world
that consists of the database and of what was handed to the distributor and to
the edge notifier so far; each of its store calls may fail with a transient
error, which is how the request's environment numbers them.
-/

namespace OtelFleet.Pipelines

open Data Store Semantics

inductive ServiceError where
  | store (err : StoreError)
  | other (msg : String)

structure World where
  db : PipelineTables
  calls : Nat
  distributed : List YamlNode
  notified : List Uuid

/-- What a request is run with: the wiring of the service and the outcomes of
    everything outside the repository. -/
structure ServiceEnv where
  /-- The transient error of each store call that fails, by its number. -/
  faults : Nat → Option String
  validator : Validator
  cipher : Option Cipher
  entropy : Entropy
  distributor : YamlNode → Except String Rollout
  edge : Option (Uuid → Except String Unit)
  listAgents : Uuid → Nat × Nat
  /-- The text of a number in `encoding/json`. -/
  format : ℚ → String
  /-- The hex text of `sha256.Sum256`. -/
  sha256 : YamlNode → String
  actor : Option Uuid
  newID : Uuid
  now : Int

abbrev ServiceM := Eff World ServiceError

variable (env : ServiceEnv)

def storeCall {α : Type} (run : PipelineTables → Except StoreError (α × PipelineTables)) : ServiceM α where
  run world :=
    let counted := { world with calls := world.calls + 1 }
    match env.faults world.calls with
    | some msg => (.error (.store (.other msg)), counted)
    | none =>
      match run world.db with
      | .error err => (.error (.store err), counted)
      | .ok (value, db) => (.ok value, { counted with db })

def query {α : Type} (run : PipelineTables → Except StoreError α) : ServiceM α :=
  storeCall env fun db => (run db).map fun value => (value, db)

def liftError {α : Type} (res : Except String α) : ServiceM α :=
  Eff.ofExcept (res.mapError ServiceError.other)

/-- `toRender` decrypts the stored secrets of an active pipeline. -/
def toRender (cipher : Option Cipher) (ap : ActivePipeline) : Except String RenderPipeline :=
  let wrap (msg : String) := "pipeline " ++ ap.pipelineID.toText ++ ": " ++ msg
  match parseGraph ap.graph with
  | .error msg => .error (wrap msg)
  | .ok graph =>
    match decryptGraphSecrets graph cipher with
    | .error msg => .error (wrap msg)
    | .ok graph => .ok ⟨ap.customerSlug, ap.clientID, pipelineSlug ap.pipelineName, graph⟩

def renderInputs (cipher : Option Cipher) (exclude : Option Uuid) :
    List ActivePipeline → Except String (List RenderPipeline)
  | [] => .ok []
  | ap :: rest =>
    if exclude = some ap.pipelineID then renderInputs cipher exclude rest
    else do
      let input ← toRender cipher ap
      let inputs ← renderInputs cipher exclude rest
      return input :: inputs

def activeRenderPipelines (targetClass : TargetClass) (customerID exclude : Option Uuid) :
    ServiceM (List RenderPipeline) := do
  let aps ← query env fun db => .ok (db.listActivePipelines targetClass customerID)
  liftError (renderInputs env.cipher exclude aps)

def renderCurrent [PrintTable] : ServiceM YamlNode := do
  let inputs ← activeRenderPipelines env .forwarding none none
  liftError (renderForwardingConfig inputs)

def renderEdgeCurrent [PrintTable] (customerID : Uuid) : ServiceM YamlNode := do
  let inputs ← activeRenderPipelines env .edge (some customerID) none
  liftError (renderEdgeConfig inputs)

/-- The outcome of `prepare`: the findings, or the version to insert. -/
inductive Prepared where
  | invalid (res : Result)
  | ready (version : VersionRow)

variable (pipe : Pipeline)

def candidateOf (graph : Graph) : RenderPipeline :=
  ⟨pipe.customerSlug, pipe.clientID, pipelineSlug pipe.name, graph⟩

/-- The insert payload of a validated version; the persisted fragment is rendered
    from the redacted graph. -/
def versionRow (stored : Graph) (fragment : YamlNode) (issues : List Issue) : VersionRow :=
  { id := env.newID, pipelineID := pipe.id, version := 0, graph := marshalGraph env.format stored
    renderedYAML := fragment, configHash := env.sha256 fragment, valid := true
    validationOutput := if issues = [] then none
      else some (String.intercalate "\n" (issues.map Issue.message))
    createdBy := env.actor, createdAt := env.now }

/-- Edge configs are rendered per customer. -/
def scopeOf : Option Uuid :=
  if pipe.targetClass = .edge then some pipe.customerID else none

/-- The second half of `prepare`: validation runs on the plaintext graph. -/
def validateStored [PrintTable] (stored : Graph) : ServiceM Prepared := do
  let plain ← liftError (decryptGraphSecrets stored env.cipher)
  let others ← activeRenderPipelines env pipe.targetClass (scopeOf pipe) (some pipe.id)
  let res := env.validator.validate pipe.targetClass (candidateOf pipe plain) others
  if res.valid then
    let fragment ← liftError
      (renderFragmentFor pipe.targetClass (candidateOf pipe (redactGraphSecrets stored)))
    return .ready (versionRow env pipe stored fragment res.issues)
  else return .invalid res

def prepare [PrintTable] (graph : Graph) (prev : Option Graph) : ServiceM Prepared := do
  match ← liftError (encryptGraphSecrets graph env.cipher env.entropy prev) with
  | .error issues => return .invalid { valid := false, issues }
  | .ok stored => validateStored env pipe stored

inductive CreatedVersion where
  | invalid (res : Result)
  | created (version : PipelineVersion)

/-- The graph that sentinels resolve against: the latest stored version. -/
def previousGraph : ServiceM (Option Graph) :=
  match pipe.latestVersion with
  | none => return none
  | some latest => do
    let version ← query env fun db => db.getPipelineVersion pipe.id latest
    let graph ← liftError (parseGraph version.row.graph)
    return some graph

variable (pipelineID : Uuid)

def insertVersion (pipe : Pipeline) : Prepared → ServiceM CreatedVersion
  | .invalid res => return .invalid res
  | .ready version => do
    let entry : AuditEntry :=
      { actorUserID := env.actor, action := "pipeline_version.create", entityType := "pipeline_version"
        entityID := version.id.toText, customerID := some pipe.customerID
        payload := .obj [("pipeline", .str pipelineID.toText)] }
    let created ← storeCall env fun db => db.createPipelineVersion version [entry]
    return .created created

def createVersion [PrintTable] (graph : Graph) : ServiceM CreatedVersion := do
  let pipe ← query env fun db => db.getPipeline pipelineID
  let prev ← previousGraph env pipe
  let prepared ← prepare env pipe graph prev
  insertVersion env pipelineID pipe prepared

def distribute [PrintTable] : ServiceM Rollout := do
  let full ← renderCurrent env
  Eff.modify fun world => { world with distributed := world.distributed ++ [full] }
  liftError (env.distributor full)

/-- The agents of a customer by whether they are connected; a store error yields
    zeros. -/
def countEdgeAgents (customerID : Uuid) : ServiceM (Nat × Nat) := do
  match ← (query env fun _ => .ok (env.listAgents customerID)).attempt with
  | .ok counts => return counts
  | .error _ => return (0, 0)

/-- `EdgeConfigChanged` of the notifier, if one is attached. -/
def edgeConfigChanged (customerID : Uuid) : ServiceM Unit :=
  match env.edge with
  | none => return ()
  | some changed => do
    Eff.modify fun world => { world with notified := world.notified ++ [customerID] }
    liftError (changed customerID)

def notifyEdge (customerID : Uuid) : ServiceM Rollout := do
  edgeConfigChanged env customerID
  let counts ← countEdgeAgents env customerID
  return ⟨stateApplied, "rollout queued: " ++ toString counts.1 ++
    " connected agent(s) update now, " ++ toString counts.2 ++ " offline update on reconnect"⟩

def rollOut [PrintTable] : ServiceM Rollout :=
  if pipe.targetClass = .edge then notifyEdge env pipe.customerID else distribute env

def activate [PrintTable] (version : Nat) : ServiceM (Pipeline × Rollout) := do
  let entry : AuditEntry :=
    { actorUserID := env.actor, action := "pipeline_version.activate", entityType := "pipeline"
      entityID := pipelineID.toText, payload := .obj [("version", .num (.int version))] }
  let pipe ← storeCall env fun db => db.activatePipelineVersion pipelineID version [entry]
  match ← (rollOut env pipe).attempt with
  | .ok rollout => return (pipe, rollout)
  | .error _ => Eff.throw (.other ("version " ++ toString version ++
      " activated, but distributing the config failed"))

def deletePipeline [PrintTable] : ServiceM Unit := do
  let pipe ← query env fun db => db.getPipeline pipelineID
  let entry : AuditEntry :=
    { actorUserID := env.actor, action := "pipeline.delete", entityType := "pipeline"
      entityID := pipelineID.toText, customerID := some pipe.customerID
      payload := .obj [("name", .str pipe.name)] }
  storeCall env fun db => db.deletePipeline pipelineID [entry]
  -- a failed rollout is logged only
  if pipe.activeVersionID.isSome then
    let _ ← ((rollOut env pipe).attempt : ServiceM (Except ServiceError Rollout))

end OtelFleet.Pipelines
