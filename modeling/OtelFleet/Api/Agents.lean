import OtelFleet.OpAMP.Handler

/-! # Agents as the API shows them -/

namespace OtelFleet.Api

open Store OpAMP

def hexPtr (bytes : Option Bytes) : Option String :=
  match bytes.getD [] with
  | [] => none
  | hash => some (hexText hash)

def configInSync (assigned acked : Option Bytes) : Option Bool :=
  if assigned.getD [] = [] ∨ acked.getD [] = [] then none else some (assigned.getD [] = acked.getD [])

structure AgentView where
  id : Uuid
  instanceUid : String
  agentClass : AgentClass
  customerId : Option Uuid
  name : Option String
  agentVersion : Option String
  connected : Bool
  healthy : Option Bool
  lastSeenAt : Option Int
  remoteConfigStatus : RemoteConfigStatus
  remoteConfigError : Option String
  assignedConfigHash : Option String
  reportedConfigHash : Option String
  configInSync : Option Bool
  createdAt : Int

def toAgent (agent : Agent) : AgentView where
  id := agent.id
  instanceUid := hexText agent.instanceUID
  agentClass := agent.agentClass
  customerId := agent.customerID
  name := agent.name
  agentVersion := agent.agentVersion
  connected := agent.connected
  healthy := agent.healthy
  lastSeenAt := agent.lastSeenAt
  remoteConfigStatus := agent.remoteConfigStatus
  remoteConfigError := agent.remoteConfigError
  assignedConfigHash := hexPtr agent.assignedConfigHash
  reportedConfigHash := hexPtr agent.reportedConfigHash
  configInSync := configInSync agent.assignedConfigHash agent.ackedConfigHash
  createdAt := agent.createdAt

theorem configInSync_eq_true_iff {assigned acked : Option Bytes} :
    configInSync assigned acked = some true ↔ ∃ hash, hash ≠ [] ∧ assigned = some hash ∧ acked = some hash := by
  unfold configInSync
  constructor
  · intro inSync
    split at inSync
    · cases inSync
    · rename_i present
      obtain ⟨hasAssigned, hasAcked⟩ := not_or.mp present
      have same : assigned.getD [] = acked.getD [] := by simpa using inSync
      cases assigned with
      | none => exact absurd rfl hasAssigned
      | some hash =>
        cases acked with
        | none => exact absurd rfl hasAcked
        | some other =>
          have isSame : hash = other := same
          subst isSame
          exact ⟨hash, hasAssigned, rfl, rfl⟩
  · rintro ⟨hash, present, rfl, rfl⟩
    simp [present]

end OtelFleet.Api
