import OtelFleet.Api.Webhooks
import OtelFleet.Webhooks.Dispatcher

/-! # Webhook requests and events together

The API and the dispatcher share the table of channels.  The system also records
who last set what of a channel, what was delivered and what was answered.
-/

namespace OtelFleet.Webhooks

open Api Semantics Store

/-- Who created a channel and who last set its URL, its events and its enabled flag. -/
structure Control where
  creator : Option Uuid := none
  url : Option Uuid := none
  events : Option Uuid := none
  enabled : Option Uuid := none
deriving DecidableEq

/-- The user created the channel or was the last to set one of the three. -/
def Control.HeldBy (control : Control) (user : Uuid) : Prop :=
  control.creator = some user ∨ control.url = some user ∨ control.events = some user ∨ control.enabled = some user

instance (control : Control) (user : Uuid) : Decidable (control.HeldBy user) :=
  inferInstanceAs (Decidable (_ ∨ _))

structure Delivery where
  event : Event
  webhook : Webhook
  control : Control
  payload : Payload

structure Exchange where
  request : WebhookRequest
  answer : WebhookAnswer
  before : List Webhook
  after : List Webhook

structure System where
  users : UserTables
  tables : WebhookTables
  queue : List Event := []
  control : Uuid → Control := fun _ => {}
  deliveries : List Delivery := []
  exchanges : List Exchange := []

inductive Action where
  | request (req : WebhookRequest)
  | publish (event : Event)
  /-- The worker takes an event; `fault` is the error of its `ListWebhooks`. -/
  | dispatch (fault : Option StoreError)

/-- Who controls what after an answered request of the user. -/
def controlAfter (user : Option Uuid) (route : WebhookRoute) (answer : WebhookAnswer) (control : Uuid → Control) :
    Uuid → Control :=
  match route, answer with
  | .create _, .answered (.ok (.created hook)) => Function.update control hook.id ⟨user, user, user, user⟩
  | .update id body, .answered (.ok (.updated _)) =>
    let held := control id
    Function.update control id
      { held with
        url := if body.url.isSome then user else held.url
        events := if body.events.isSome then user else held.events
        enabled := if body.enabled.isSome then user else held.enabled }
  | _, _ => control

variable (getAgent : Uuid → Except StoreError Agent) (system : System)

def serve (req : WebhookRequest) : System :=
  let (answer, tables) := serveWebhooks system.users req system.tables
  { system with
    tables := tables
    control := controlAfter req.sessionUser req.route answer system.control
    exchanges := system.exchanges ++ [⟨req, answer, system.tables.webhooks, tables.webhooks⟩] }

def work (fault : Option StoreError) : System :=
  match system.queue with
  | [] => system
  | event :: queue =>
    let hooks := fault.elim (.ok system.tables.listWebhooks) .error
    { system with
      queue := queue
      deliveries := system.deliveries ++ (dispatch getAgent hooks event).map fun (hook, payload) =>
        ⟨event, hook, system.control hook.id, payload⟩ }

def act : Action → System
  | .request req => serve system req
  | .publish event => { system with queue := publish event system.queue }
  | .dispatch fault => work getAgent system fault

def Step (state : System) (action : Action) (next : System) : Prop := act getAgent state action = next

end OtelFleet.Webhooks
