import OtelFleet.Store.Webhooks

/-! # The webhook dispatcher

Agent events are queued and fanned out to every enabled channel that subscribes
to their type.
-/

namespace OtelFleet.Webhooks

open Data Store

/-- The queue's bound; on overflow the oldest event is dropped. -/
def queueSize : Nat := 256

/-- One fleet event to fan out.  The nil UUID stands for no customer. -/
structure Event where
  type : String
  occurredAt : Int
  agentID : Uuid
  customerID : Uuid
  detail : List (String × Json) := []

structure Agent where
  name : Option String
  agentClass : String
  customerID : Option Uuid
  customerName : Option String

structure AgentInfo where
  id : Uuid
  name : Option String := none
  agentClass : String
  customerID : Option Uuid := none
  customerName : Option String := none

structure Payload where
  event : String
  occurredAt : Int
  agent : AgentInfo
  detail : List (String × Json)

def publish (event : Event) (queue : List Event) : List Event :=
  (if queue.length < queueSize then queue else queue.drop 1) ++ [event]

/-- `buildPayload`: a deleted agent is described by what the event has. -/
def buildPayload (getAgent : Uuid → Except StoreError Agent) (event : Event) : Payload where
  event := event.type
  occurredAt := event.occurredAt
  agent :=
    match getAgent event.agentID with
    | .ok agent => ⟨event.agentID, agent.name, agent.agentClass, agent.customerID, agent.customerName⟩
    | .error _ =>
      { id := event.agentID, agentClass := "edge"
        customerID := if event.customerID = ⟨0⟩ then none else some event.customerID }
  detail := event.detail

def matchedWebhooks (event : Event) (hooks : List Webhook) : List Webhook :=
  hooks.filter fun hook => hook.enabled && hook.events.contains event.type

/-- `dispatch`: the channels that the event is delivered to, with its payload. -/
def dispatch (getAgent : Uuid → Except StoreError Agent) (listWebhooks : Except StoreError (List Webhook))
    (event : Event) : List (Webhook × Payload) :=
  match listWebhooks with
  | .error _ => []
  | .ok hooks => (matchedWebhooks event hooks).map fun hook => (hook, buildPayload getAgent event)

/-- Where a call of `Publish` stands: at its send, at the receive after a send that
    found the queue full, or at its end. -/
inductive Phase where
  | sending
  | full
  | returned
  deriving DecidableEq

/-- An event that left the queue, with its call, and how many were queued then. -/
structure Removal where
  entry : Nat × Event
  waiting : Nat
  dropped : Bool

/-- The calls of `Publish` and the channel, with all that ever entered and left it. -/
structure Publishing where
  calls : List (Event × Phase) := []
  queue : List (Nat × Event) := []
  entered : List (Nat × Event) := []
  removed : List Removal := []

inductive Operation where
  | call (event : Event)
  | advance (call : Nat)
  | consume

namespace Publishing

variable (state : Publishing)

@[grind] def setPhase (call : Nat) (event : Event) (phase : Phase) : Publishing :=
  { state with calls := state.calls.set call (event, phase) }

@[grind] def send (entry : Nat × Event) : Publishing :=
  { state with queue := state.queue ++ [entry], entered := state.entered ++ [entry] }

def receive (dropped : Bool) : Option Publishing :=
  match state.queue with
  | [] => none
  | oldest :: rest =>
    some { state with queue := rest, removed := state.removed ++ [⟨oldest, rest.length + 1, dropped⟩] }

def perform : Operation → Option Publishing
  | .call event => some { state with calls := state.calls ++ [(event, .sending)] }
  | .advance call =>
    match state.calls[call]? with
    | some (event, .sending) =>
      if state.queue.length < queueSize then some ((state.send (call, event)).setPhase call event .returned)
      else some (state.setPhase call event .full)
    -- on an empty queue, a concurrent consumer already made room
    | some (event, .full) => some (((state.receive true).getD state).setPhase call event .sending)
    | _ => none
  | .consume => state.receive false

end Publishing

end OtelFleet.Webhooks
