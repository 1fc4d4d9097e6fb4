import OtelFleet.Api.Pipelines
import OtelFleet.Store.Fleet

/-! # The config of an agent -/

namespace OtelFleet.Api

open Data Store Semantics Pipelines

/-- The config pair of the diff view.  `assignedYaml` is the rendered document;
    `none` is the empty text. -/
structure AgentConfigResponse where
  assignedYaml : Option YamlNode
  reportedYaml : String

/-- The config an agent is to run, rendered from the database.  Gateway replicas
    are managed outside OpAMP. -/
def assignedConfig [PrintTable] (env : ServiceEnv) (agent : Agent) : HandlerM (Option YamlNode) :=
  match agent.agentClass, agent.customerID with
  | .edge, some customerID => do
    let config ← callService (fun _ => .internal) (renderEdgeCurrent env customerID)
    return some config
  | _, _ => return none

def getAgentConfig [PrintTable] (env : ServiceEnv) (principal : Option Principal) (agents : FleetTables)
    (agentID : Uuid) : HandlerM AgentConfigResponse := do
  let agent ← callService (notFoundOr "agent not found") (query env fun _ => agents.getAgent agentID)
  Eff.ofExcept (requireCustomerAccess principal agent.customerID)
  let assigned ← assignedConfig env agent
  return ⟨assigned, agent.reportedConfigYAML.getD ""⟩

end OtelFleet.Api
