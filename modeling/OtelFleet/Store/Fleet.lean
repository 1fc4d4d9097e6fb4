import OtelFleet.Store.Pipelines

/-! # Agents and bootstrap tokens

The tables of the edge fleet with their keys, and the store calls of the OpAMP
tier.  A call runs in one transaction: it changes the tables as a whole or not at
all.
-/

namespace OtelFleet.Store

open Data

abbrev Bytes := List UInt8

def Uuid.nil : Uuid := ⟨0⟩

inductive AgentClass where
  | gateway
  | edge
deriving DecidableEq

inductive RemoteConfigStatus where
  | unset
  | applying
  | applied
  | failed
deriving DecidableEq

inductive AgentEventType where
  | enrolled
  | connected
  | disconnected
  | configApplied
  | configFailed
  | healthy
  | unhealthy
deriving DecidableEq

/-- The columns of an agent that are written once, when it is enrolled. -/
structure AgentKey where
  id : Uuid
  instanceUID : Bytes
  customerID : Option Uuid
  agentClass : AgentClass
  enrolledVia : Option Uuid
  createdAt : Int

/-- The columns that are written again and again. -/
structure AgentStatus where
  name : Option String := none
  agentVersion : Option String := none
  description : Option Json := none
  capabilities : Option UInt64 := none
  assignedConfigHash : Option Bytes := none
  reportedConfigHash : Option Bytes := none
  ackedConfigHash : Option Bytes := none
  reportedConfigYAML : Option String := none
  remoteConfigStatus : RemoteConfigStatus := .unset
  remoteConfigError : Option String := none
  health : Option Json := none
  healthy : Option Bool := none
  connected : Bool := false
  lastSeenAt : Option Int := none
  tokenPrefix : Option String := none
  tokenHash : Option Bytes := none
  tokenIssuedAt : Option Int := none

structure Agent extends AgentKey, AgentStatus

structure BootstrapToken where
  id : Uuid
  customerID : Uuid
  name : String
  tokenPrefix : String
  tokenHash : Bytes
  /-- 0 means unlimited. -/
  maxUses : Nat
  usedCount : Nat
  expiresAt : Int
  revokedAt : Option Int

structure AgentEvent where
  agentID : Uuid
  type : AgentEventType
  detail : Option Json

/-- The tables, with their keys and the foreign key of `enrolled_via`. -/
structure FleetTables where
  customers : List Customer
  tokens : List BootstrapToken
  agents : List Agent
  events : List AgentEvent
  tokens_id : (tokens.map BootstrapToken.id).Nodup
  agents_id : (agents.map fun agent => agent.id).Nodup
  agents_uid : (agents.map fun agent => agent.instanceUID).Nodup
  agents_token : ∀ agent ∈ agents, ∀ tokenID ∈ agent.enrolledVia, ∃ token ∈ tokens, token.id = tokenID

namespace FleetTables

variable (db : FleetTables) (id : Uuid)

def getAgent : Except StoreError Agent :=
  match db.agents.find? fun agent => agent.id = id with
  | some agent => .ok agent
  | none => .error .notFound

def getAgentByInstanceUID (uid : Bytes) : Except StoreError Agent :=
  match db.agents.find? fun agent => agent.instanceUID = uid with
  | some agent => .ok agent
  | none => .error .notFound

def customerStatus : Option CustomerStatus :=
  (db.customers.find? fun customer => customer.id = id).map Customer.status

structure EnrollToken where
  tokenID : Uuid
  customerID : Uuid
  tokenHash : Bytes
  maxUses : Nat
  usedCount : Nat
  expiresAt : Int
  customerStatus : CustomerStatus

def enrollToken (token : BootstrapToken) : Option EnrollToken :=
  (db.customerStatus token.customerID).map fun status =>
    ⟨token.id, token.customerID, token.tokenHash, token.maxUses, token.usedCount, token.expiresAt, status⟩

def activeBootstrapTokensByPrefix (tokenPrefix : String) : List EnrollToken :=
  (db.tokens.filter fun token => token.tokenPrefix = tokenPrefix ∧ token.revokedAt = none).filterMap db.enrollToken

structure AgentAuth where
  agentID : Uuid
  customerID : Uuid
  tokenHash : Option Bytes
  customerStatus : CustomerStatus

def agentsByTokenPrefix (tokenPrefix : String) : List AgentAuth :=
  (db.agents.filter fun agent => agent.tokenPrefix = some tokenPrefix).filterMap fun agent => do
    let customerID ← agent.customerID
    let status ← db.customerStatus customerID
    if status = .deleted then none else some ⟨agent.id, customerID, agent.tokenHash, status⟩

def offlineAgents (customerID : Uuid) : List Agent :=
  db.agents.filter fun agent => agent.agentClass = .edge ∧ agent.customerID = some customerID ∧ ¬ agent.connected

def changed (change : AgentStatus → AgentStatus) (agent : Agent) : Agent :=
  if agent.id = id then { agent with toAgentStatus := change agent.toAgentStatus } else agent

@[simp] theorem changed_key (change : AgentStatus → AgentStatus) (agent : Agent) :
    (changed id change agent).toAgentKey = agent.toAgentKey := by
  unfold changed
  split <;> rfl

def setStatus (change : AgentStatus → AgentStatus) (events : List AgentEvent) : FleetTables where
  customers := db.customers
  tokens := db.tokens
  agents := db.agents.map (changed id change)
  events := db.events ++ events
  tokens_id := db.tokens_id
  agents_id := by simpa [Function.comp_def] using db.agents_id
  agents_uid := by simpa [Function.comp_def] using db.agents_uid
  agents_token agent mem tokenID enrolled := by
    obtain ⟨old, oldMember, rfl⟩ := List.mem_map.mp mem
    rw [changed_key] at enrolled
    exact db.agents_token old oldMember tokenID enrolled

/-- `UPDATE agents … WHERE id = $1` and the events of the transition; no row is
    `ErrNotFound`. -/
def updateAgent (change : AgentStatus → AgentStatus) (events : List AgentEvent) :
    Except StoreError (Unit × FleetTables) :=
  if ∃ agent ∈ db.agents, agent.id = id then .ok ((), db.setStatus id change events) else .error .notFound

/-- `GREATEST(COALESCE(last_seen_at, 'epoch'), at)`. -/
def latest (lastSeenAt : Option Int) (at' : Int) : Option Int := some (max (lastSeenAt.getD 0) at')

def setAgentToken (tokenPrefix : String) (hash : Bytes) (at' : Int) :
    Except StoreError (Unit × FleetTables) :=
  .ok ((), db.setStatus id (fun agent =>
    { agent with tokenPrefix := some tokenPrefix, tokenHash := some hash, tokenIssuedAt := some at' }) [])

def updateAgentDescription (name agentVersion : Option String) (description : Option Json)
    (capabilities : Option UInt64) : Except StoreError (Unit × FleetTables) :=
  db.updateAgent id (fun agent =>
    { agent with name, agentVersion, description, capabilities := capabilities.orElse fun _ => agent.capabilities }) []

def setAgentConnected (connected : Bool) (at' : Int) : Except StoreError (Unit × FleetTables) :=
  db.updateAgent id (fun agent => { agent with connected, lastSeenAt := latest agent.lastSeenAt at' })
    [⟨id, if connected then .connected else .disconnected, none⟩]

def setAgentAssignedConfig (hash : Bytes) : Except StoreError (Unit × FleetTables) :=
  db.updateAgent id (fun agent => { agent with assignedConfigHash := some hash }) []

def setAgentAckedConfig (hash : Option Bytes) : Except StoreError (Unit × FleetTables) :=
  db.updateAgent id (fun agent => { agent with ackedConfigHash := hash }) []

def setAgentEffectiveConfig (yaml : String) (hash : Bytes) : Except StoreError (Unit × FleetTables) :=
  db.updateAgent id (fun agent => { agent with reportedConfigYAML := some yaml, reportedConfigHash := some hash }) []

def setAgentRemoteConfigStatus (status : RemoteConfigStatus) (errorMessage : Option String)
    (event : Option AgentEventType) (detail : Json) : Except StoreError (Unit × FleetTables) :=
  db.updateAgent id (fun agent => { agent with remoteConfigStatus := status, remoteConfigError := errorMessage })
    (event.toList.map fun type => ⟨id, type, some detail⟩)

def setAgentHealth (health : Json) (healthy : Bool) (flip : Option AgentEventType) :
    Except StoreError (Unit × FleetTables) :=
  db.updateAgent id (fun agent => { agent with health := some health, healthy := some healthy })
    (flip.toList.map fun type => ⟨id, type, none⟩)

structure NewAgent where
  id : Uuid
  instanceUID : Bytes
  customerID : Uuid
  name : Option String
  agentVersion : Option String
  description : Option Json
  capabilities : UInt64
  enrolledVia : Uuid

def NewAgent.row (agent : NewAgent) (now : Int) : Agent where
  id := agent.id
  instanceUID := agent.instanceUID
  customerID := some agent.customerID
  agentClass := .edge
  enrolledVia := some agent.enrolledVia
  createdAt := now
  name := agent.name
  agentVersion := agent.agentVersion
  description := agent.description
  capabilities := some agent.capabilities
  lastSeenAt := some now

def counted (tokenID : Uuid) (token : BootstrapToken) : BootstrapToken :=
  if token.id = tokenID then { token with usedCount := token.usedCount + 1 } else token

@[simp] theorem counted_id (tokenID : Uuid) (token : BootstrapToken) : (counted tokenID token).id = token.id := by
  unfold counted
  split <;> rfl

theorem token_counted {tokens : List BootstrapToken} {tokenID id : Uuid} (found : ∃ token ∈ tokens, token.id = id) :
    ∃ token ∈ tokens.map (counted tokenID), token.id = id := by
  obtain ⟨token, mem, same⟩ := found
  exact ⟨_, List.mem_map_of_mem mem, by rw [counted_id, same]⟩

theorem nodup_append_fresh {α β : Type} {key : α → β} {rows : List α} {row : α} (nodup : (rows.map key).Nodup)
    (fresh : key row ∉ rows.map key) : ((rows ++ [row]).map key).Nodup := by
  rw [List.map_append]
  exact List.nodup_append_comm.mp (List.nodup_cons.mpr ⟨fresh, nodup⟩)

def enrolled (agent : NewAgent) (now : Int) (freshID : agent.id ∉ db.agents.map fun agent => agent.id)
    (freshUID : agent.instanceUID ∉ db.agents.map fun agent => agent.instanceUID)
    (token : ∃ token ∈ db.tokens, token.id = agent.enrolledVia) : FleetTables where
  customers := db.customers
  tokens := db.tokens.map (counted agent.enrolledVia)
  agents := db.agents ++ [agent.row now]
  events := db.events ++ [⟨agent.id, .enrolled, some (.obj [("token", .str agent.enrolledVia.toText)])⟩]
  tokens_id := by simpa [Function.comp_def] using db.tokens_id
  agents_id := nodup_append_fresh db.agents_id freshID
  agents_uid := nodup_append_fresh db.agents_uid freshUID
  agents_token other mem tokenID enrolledVia := by
    rcases List.mem_append.mp mem with old | new
    · exact token_counted (db.agents_token other old tokenID enrolledVia)
    · rw [List.mem_singleton] at new
      subst new
      cases enrolledVia
      exact token_counted token

/-- `EnrollAgent`.  A taken instance UID is `ErrConflict`; an unknown token violates
    the foreign key. -/
def enrollAgent (agent : NewAgent) (now : Int) : Except StoreError (Agent × FleetTables) :=
  if freshID : agent.id ∉ db.agents.map fun agent => agent.id then
    if freshUID : agent.instanceUID ∉ db.agents.map fun agent => agent.instanceUID then
      if token : ∃ token ∈ db.tokens, token.id = agent.enrolledVia then
        .ok (agent.row now, db.enrolled agent now freshID freshUID token)
      else .error (.other "insert agent: violates agents_enrolled_via_fkey")
    else .error .conflict
  else .error (.other "insert agent: duplicate key value violates unique constraint \"agents_pkey\"")

section

variable {db} {uid : Bytes}

theorem find_of_mem {agent : Agent} (mem : agent ∈ db.agents) :
    (db.agents.find? fun other => other.instanceUID = agent.instanceUID) = some agent := by
  cases search : db.agents.find? fun other => other.instanceUID = agent.instanceUID with
  | none => exact absurd (List.find?_eq_none.mp search agent mem) (by simp)
  | some other =>
    have sameUID : other.instanceUID = agent.instanceUID := by simpa using List.find?_some search
    rw [List.inj_on_of_nodup_map db.agents_uid (List.mem_of_find?_eq_some search) mem sameUID]

theorem find_fresh (fresh : uid ∉ db.agents.map fun agent => agent.instanceUID) :
    (db.agents.find? fun agent => agent.instanceUID = uid) = none := by
  rw [List.find?_eq_none]
  intro agent mem
  simp only [decide_eq_true_eq]
  exact fun same => fresh (List.mem_map.mpr ⟨agent, mem, same⟩)

theorem find_setStatus {id : Uuid} {change : AgentStatus → AgentStatus} {events : List AgentEvent} :
    ((db.setStatus id change events).agents.find? fun agent => agent.instanceUID = uid) =
      (db.agents.find? fun agent => agent.instanceUID = uid).map (changed id change) := by
  change (db.agents.map (changed id change)).find? _ = _
  rw [List.find?_map]
  simp only [Function.comp_def, changed_key]

theorem find_enrolled {agent : NewAgent} {now : Int} {freshID freshUID token} :
    ((db.enrolled agent now freshID freshUID token).agents.find? fun found => found.instanceUID = uid) =
      if uid = agent.instanceUID then some (agent.row now)
      else db.agents.find? fun found => found.instanceUID = uid := by
  change (db.agents ++ [agent.row now]).find? _ = _
  rw [List.find?_append]
  by_cases isUID : uid = agent.instanceUID
  · subst isUID
    rw [find_fresh freshUID]
    simp [NewAgent.row]
  · have notNew : ¬ agent.instanceUID = uid := fun same => isUID same.symm
    rw [if_neg isUID]
    simp [NewAgent.row, notNew]

theorem uid_of_id {other : Bytes} {agent agent' : Agent}
    (found : (db.agents.find? fun row => row.instanceUID = uid) = some agent)
    (found' : (db.agents.find? fun row => row.instanceUID = other) = some agent') (same : agent'.id = agent.id) :
    other = uid := by
  have isSame : agent' = agent := List.inj_on_of_nodup_map db.agents_id (List.mem_of_find?_eq_some found')
    (List.mem_of_find?_eq_some found) same
  have isOther : agent'.instanceUID = other := by simpa using List.find?_some found'
  have isUID : agent.instanceUID = uid := by simpa using List.find?_some found
  rw [← isOther, isSame, isUID]

end

def revoked (customerID tokenID : Uuid) (now : Int) (token : BootstrapToken) : BootstrapToken :=
  if token.id = tokenID ∧ token.customerID = customerID ∧ token.revokedAt = none then
    { token with revokedAt := some now }
  else token

@[simp] theorem revoked_id (customerID tokenID : Uuid) (now : Int) (token : BootstrapToken) :
    (revoked customerID tokenID now token).id = token.id := by
  unfold revoked
  split <;> rfl

def revokeBootstrapToken (customerID tokenID : Uuid) (now : Int) : Except StoreError (Unit × FleetTables) :=
  if ∃ token ∈ db.tokens, token.id = tokenID ∧ token.customerID = customerID then
    .ok ((), { db with
      tokens := db.tokens.map (revoked customerID tokenID now)
      tokens_id := by simpa [Function.comp_def] using db.tokens_id
      agents_token := fun agent mem id enrolledVia => by
        obtain ⟨token, isToken, same⟩ := db.agents_token agent mem id enrolledVia
        exact ⟨_, List.mem_map_of_mem isToken, by rw [revoked_id, same]⟩ })
  else .error .notFound

/-- The status of a customer in `UpdateCustomer` and `SoftDeleteCustomer`; a deleted
    one is not found. -/
def setCustomerStatus (status : CustomerStatus) : Except StoreError (Unit × FleetTables) :=
  if ∃ customer ∈ db.customers, customer.id = id ∧ customer.status ≠ .deleted then
    .ok ((), { db with
      customers := db.customers.map fun customer =>
        if customer.id = id ∧ customer.status ≠ .deleted then { customer with status := status } else customer })
  else .error .notFound

end FleetTables

end OtelFleet.Store
