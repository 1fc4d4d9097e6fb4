import OtelFleet.Data.Sorting
import OtelFleet.Pipelines.Validate
import OtelFleet.Store.Base

/-! # Customers, pipelines and versions -/

namespace OtelFleet.Store

open Data Pipelines

inductive CustomerStatus where
  | active
  | suspended
  | deleted
deriving DecidableEq

structure Customer where
  id : Uuid
  slug : String
  name : String
  clientID : String
  status : CustomerStatus

structure PipelineRow where
  id : Uuid
  customerID : Uuid
  name : String
  targetClass : TargetClass
  activeVersionID : Option Uuid
  createdAt : Int

/-- A row of `pipeline_versions`; `valid` is its validation status, and the hash
    is kept as hex text. -/
structure VersionRow where
  id : Uuid
  pipelineID : Uuid
  version : Nat
  graph : Payload
  renderedYAML : YamlNode
  configHash : String
  valid : Bool
  validationOutput : Option String
  createdBy : Option Uuid
  createdAt : Int

structure PipelineTables where
  customers : List Customer
  pipelines : List PipelineRow
  versions : List VersionRow
  /-- The `email` column of `users`. -/
  emails : List (Uuid × String)
  auditLog : List AuditEntry

structure Pipeline where
  id : Uuid
  customerID : Uuid
  customerName : String
  customerSlug : String
  clientID : String
  name : String
  targetClass : TargetClass
  activeVersionID : Option Uuid
  activeVersion : Option Nat
  latestVersion : Option Nat
  createdAt : Int

structure PipelineVersion where
  row : VersionRow
  createdByEmail : Option String
  active : Bool

structure ActivePipeline where
  pipelineID : Uuid
  pipelineName : String
  customerID : Uuid
  customerSlug : String
  clientID : String
  graph : Payload

namespace PipelineTables

variable (db : PipelineTables)

def customer (id : Uuid) : Option Customer := db.customers.find? fun customer => customer.id = id

def versionByID (id : Uuid) : Option VersionRow := db.versions.find? fun version => version.id = id

def latestVersion (pipelineID : Uuid) : Option Nat :=
  ((db.versions.filter fun version => version.pipelineID = pipelineID).map VersionRow.version).max?

def joinPipeline (row : PipelineRow) : Option Pipeline :=
  (db.customer row.customerID).map fun customer =>
    { id := row.id, customerID := row.customerID, customerName := customer.name
      customerSlug := customer.slug, clientID := customer.clientID, name := row.name
      targetClass := row.targetClass, activeVersionID := row.activeVersionID
      activeVersion := (row.activeVersionID.bind db.versionByID).map VersionRow.version
      latestVersion := db.latestVersion row.id, createdAt := row.createdAt }

def joinVersion (version : VersionRow) : Option PipelineVersion :=
  (db.pipelines.find? fun row => row.id = version.pipelineID).map fun row =>
    { row := version, createdByEmail := version.createdBy.bind fun user => db.emails.lookup user
      active := row.activeVersionID = some version.id }

def getPipeline (id : Uuid) : Except StoreError Pipeline :=
  match (db.pipelines.find? fun row => row.id = id).bind db.joinPipeline with
  | some pipeline => .ok pipeline
  | none => .error .notFound

def getPipelineVersion (pipelineID : Uuid) (version : Nat) : Except StoreError PipelineVersion :=
  match (db.versions.find? fun row => row.pipelineID = pipelineID && row.version = version).bind
    db.joinVersion with
  | some version => .ok version
  | none => .error .notFound

def listedRow (row : PipelineRow) : Option Pipeline := do
  let customer ← db.customer row.customerID
  if customer.status = .deleted then none else db.joinPipeline row

/-- The pipelines of one customer or of all, by `c.slug, p.name, p.id`. -/
def listPipelines (customerID : Option Uuid) : List Pipeline :=
  ((db.pipelines.filter fun row => customerID.all fun id => row.customerID = id).filterMap db.listedRow).insertionSort
    (byThen Pipeline.customerSlug (byThen Pipeline.name fun a b => a.id.bits.toNat ≤ b.id.bits.toNat))

def rowBefore (a b : ActivePipeline) : Bool :=
  a.customerSlug < b.customerSlug || a.customerSlug = b.customerSlug &&
    (a.pipelineName < b.pipelineName || a.pipelineName = b.pipelineName &&
      a.pipelineID.bits ≤ b.pipelineID.bits)

/-- The row of a pipeline in the renderer's view: it has an active version and
    belongs to an active customer. -/
def activeRow (row : PipelineRow) : Option ActivePipeline := do
  let customer ← db.customer row.customerID
  let version ← row.activeVersionID.bind db.versionByID
  if customer.status = .active then
    some ⟨row.id, row.name, row.customerID, customer.slug, customer.clientID, version.graph⟩
  else none

def listActivePipelines (targetClass : TargetClass) (customerID : Option Uuid) : List ActivePipeline :=
  ((db.pipelines.filter fun row => row.targetClass = targetClass &&
    customerID.all fun id => row.customerID = id).filterMap db.activeRow).insertionSort fun a b => rowBefore a b

def writeAudit (entries : List AuditEntry) : PipelineTables :=
  { db with auditLog := db.auditLog ++ entries }

/-- `DeletePipeline`; the versions cascade. -/
def deletePipeline (id : Uuid) (entries : List AuditEntry) : Except StoreError (Unit × PipelineTables) :=
  if ∃ row ∈ db.pipelines, row.id = id then
    .ok ((), { db with
      pipelines := db.pipelines.filter fun row => row.id ≠ id
      versions := db.versions.filter fun version => version.pipelineID ≠ id }.writeAudit entries)
  else .error .notFound

/-- `CreatePipelineVersion` assigns the next version number. -/
def createPipelineVersion (new : VersionRow) (entries : List AuditEntry) :
    Except StoreError (PipelineVersion × PipelineTables) :=
  if ∃ row ∈ db.pipelines, row.id = new.pipelineID then
    if ∃ version ∈ db.versions, version.id = new.id then .error (.other "insert pipeline version")
    else
      let version := { new with version := (db.latestVersion new.pipelineID).getD 0 + 1 }
      let db := { db with versions := db.versions ++ [version] }.writeAudit entries
      match db.joinVersion version with
      | some joined => .ok (joined, db)
      | none => .error .notFound
  else .error .notFound

def setActiveVersion (pipelineID versionID : Uuid) : PipelineTables :=
  { db with pipelines := db.pipelines.map fun row =>
      if row.id = pipelineID then { row with activeVersionID := some versionID } else row }

/-- `ActivatePipelineVersion`; a version that is not valid is a conflict. -/
def activatePipelineVersion (pipelineID : Uuid) (version : Nat) (entries : List AuditEntry) :
    Except StoreError (Pipeline × PipelineTables) :=
  match db.getPipelineVersion pipelineID version with
  | .error err => .error err
  | .ok found =>
    if ¬ found.row.valid then .error .conflict
    else
      let db := (db.setActiveVersion pipelineID found.row.id).writeAudit entries
      match db.getPipeline pipelineID with
      | .error _ => .error (.other "no rows in result set")
      | .ok pipeline => .ok (pipeline, db)

end PipelineTables

end OtelFleet.Store
