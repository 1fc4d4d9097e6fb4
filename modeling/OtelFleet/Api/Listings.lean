import OtelFleet.Api.Agents
import OtelFleet.Api.Scope
import OtelFleet.Stats.Usage
import OtelFleet.Store.Customers

/-! # Listings and figures, by scope

The endpoints that list or add up over all customers: each shows a tenant-scoped
principal the part of its customers.
-/

namespace OtelFleet.Store

open Data Stats

structure CustomerRecord extends CustomerRow where
  createdAt : Int

structure AgentRecord extends Agent where
  displayName : Option String := none
  labels : Option Json := none

/-- The tables that the endpoints read, with their unique columns; a pipeline's active
    version is one of its own. -/
structure FleetStore where
  customers : List CustomerRecord
  pipelines : List PipelineRow
  versions : List VersionRow
  agents : List AgentRecord
  customers_id : (customers.map fun customer => customer.id).Nodup
  customers_clientID : (customers.map fun customer => customer.clientID).Nodup
  versions_id : (versions.map VersionRow.id).Nodup
  active_own : ∀ row ∈ pipelines, ∀ versionID ∈ row.activeVersionID,
    ∃ version ∈ versions, version.id = versionID ∧ version.pipelineID = row.id

structure AgentFilter where
  agentClass : Option AgentClass := none
  customerID : Option Uuid := none
  connected : Option Bool := none

namespace FleetStore

variable (store : FleetStore)

def pipelineTables : PipelineTables where
  customers := store.customers.map fun customer => customer.toCustomer
  pipelines := store.pipelines
  versions := store.versions
  emails := []
  auditLog := []

def listCustomers (status : Option CustomerStatus) : List CustomerRecord :=
  (store.customers.filter fun customer => customer.status ≠ .deleted ∧ ∀ only ∈ status, customer.status = only).insertionSort
    (byThen CustomerRecord.createdAt fun a b => a.id.bits.toNat ≤ b.id.bits.toNat)

def customerName (agent : AgentRecord) : Option String :=
  agent.customerID.bind fun id => (store.customers.find? fun customer => customer.id = id).map fun customer => customer.name

def listAgents (filter : AgentFilter) : List (AgentRecord × Option String) :=
  ((store.agents.filter fun agent => (∀ only ∈ filter.agentClass, agent.agentClass = only) ∧
      (∀ only ∈ filter.customerID, agent.customerID = some only) ∧
      ∀ only ∈ filter.connected, agent.connected = only).insertionSort
    (byThen (fun agent => agent.createdAt) fun a b => a.id.bits.toNat ≤ b.id.bits.toNat)).map fun agent =>
      (agent, store.customerName agent)

def countActiveCustomers : Nat := store.customers.countP fun customer => customer.status = .active

def listCustomerRefs : List CustomerRef := store.customers.map fun customer => ⟨customer.id, customer.name, customer.clientID⟩

def statsStore : StatsStore := ⟨.ok store.countActiveCustomers, .ok store.listCustomerRefs⟩

end FleetStore

end OtelFleet.Store

namespace OtelFleet.Api

open Data Stats Store

structure CustomerView where
  id : Uuid
  slug : String
  name : String
  tenantId : String
  status : CustomerStatus
  region : String
  rateLimitItemsPerSec : Option Int
  retentionDays : Option Int
  createdAt : Int

def toCustomer (customer : CustomerRecord) : CustomerView where
  id := customer.id
  slug := customer.slug
  name := customer.name
  tenantId := customer.clientID
  status := customer.status
  region := customer.region
  rateLimitItemsPerSec := customer.rateLimitItemsPerSec
  retentionDays := customer.retentionDays
  createdAt := customer.createdAt

structure PipelineView where
  id : Uuid
  customerId : Uuid
  customerName : String
  name : String
  targetClass : Pipelines.TargetClass
  activeVersion : Option Nat
  latestVersion : Option Nat
  createdAt : Int

def toPipeline (pipeline : Pipeline) : PipelineView where
  id := pipeline.id
  customerId := pipeline.customerID
  customerName := pipeline.customerName
  name := pipeline.name
  targetClass := pipeline.targetClass
  activeVersion := pipeline.activeVersion
  latestVersion := pipeline.latestVersion
  createdAt := pipeline.createdAt

def agentLabels (labels : Option Json) : List (String × String) :=
  match labels with
  | some (.obj fields) => fields.map fun (key, value) => (key, match value with | .str text => text | _ => "")
  | _ => []

structure ListedAgent extends AgentView where
  customerName : Option String
  displayName : Option String
  labels : List (String × String)

def toListedAgent (listed : AgentRecord × Option String) : ListedAgent where
  toAgentView := toAgent listed.1.toAgent
  customerName := listed.2
  displayName := listed.1.displayName
  labels := agentLabels listed.1.labels

structure Totals where
  logs : Int64
  traces : Int64
  metrics : Int64

structure OverviewView where
  activeCustomers : Nat
  refusedRequests : Int64
  totals : Totals
  topCustomers : List TopCustomer

def toOverview (overview : Overview) : OverviewView where
  activeCustomers := overview.activeCustomers
  refusedRequests := overview.refusedRequests
  totals := ⟨overview.totals "logs", overview.totals "traces", overview.totals "metrics"⟩
  topCustomers := overview.topCustomers

inductive StatsReply where
  | badRequest (msg : String)
  | upstream (msg : String)
  | internal

def StatsReply.of : StatsError → StatsReply
  | .upstreamUnavailable _ => .upstream "stats backend unavailable"
  | .store _ _ => .internal

variable (store : FleetStore) (principal : Option Principal)

/-- Whether the caller's scope has the customer; what has none is for unscoped callers. -/
def shows (customerID : Option Uuid) : Bool :=
  (customerScope principal).all fun allowed => customerID.any fun id => allowed.contains id

def listCustomers (status : Option CustomerStatus) : List CustomerView :=
  ((store.listCustomers status).filter fun customer => shows principal (some customer.id)).map toCustomer

def listPipelines : List PipelineView :=
  ((store.pipelineTables.listPipelines none).filter fun pipeline => shows principal (some pipeline.customerID)).map toPipeline

def listAgents (filter : AgentFilter) : List ListedAgent :=
  ((store.listAgents filter).filter fun listed => shows principal listed.1.customerID).map toListedAgent

variable {σ : Type} (reg : Registry) (servers : Servers σ)

def getStatsOverview (sorter : Sorter TopCustomer.before) (refusedFromVM : String → Int64) (start stop : Int) :
    Except StatsReply OverviewView :=
  if ¬ start < stop then .error (.badRequest "'to' must be after 'from'")
  else ((getOverview reg servers store.statsStore sorter refusedFromVM start stop (customerScope principal)).mapError .of).map
    toOverview

def getCostStats (sorter : Sorter CustomerCost.before) (start stop : Int) : Except StatsReply (List CustomerCost) :=
  if ¬ start < stop then .error (.badRequest "'to' must be after 'from'")
  else ((getCost reg servers store.statsStore sorter start stop).mapError .of).map
    (·.filter fun cost => shows principal (some cost.customerID))

end OtelFleet.Api
