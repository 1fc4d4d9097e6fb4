import OtelFleet.Semantics.Transaction
import OtelFleet.Store.Base

/-! # Webhooks

The table `webhooks` of the notification channels and its transactions.
-/

namespace OtelFleet.Store

open Semantics

def webhookEventAgentOffline : String := "agent_offline"
def webhookEventAgentConfigFailed : String := "agent_config_failed"
def webhookEventAgentUnhealthy : String := "agent_unhealthy"

def webhookTypeGeneric : String := "webhook"
def webhookTypeSlack : String := "slack"
def webhookTypePagerDuty : String := "pagerduty"
def webhookTypeOpsgenie : String := "opsgenie"

def secretedWebhookType (type : String) : Bool := type = webhookTypePagerDuty || type = webhookTypeOpsgenie

/-- A notification channel.  Without `secretEnc` deliveries are unsigned. -/
structure Webhook where
  id : Uuid
  type : String
  name : String
  url : String
  events : List String
  secretEnc : Option String := none
  enabled : Bool
  createdBy : Option Uuid
  createdAt : Int
  updatedAt : Int

/-- The PATCH fields; `none` leaves the column as it is.  The secret is written
    when `secretSet` is, and removed by a missing `secretEnc`. -/
structure WebhookUpdate where
  type : Option String := none
  name : Option String := none
  url : Option String := none
  events : Option (List String) := none
  secretSet : Bool := false
  secretEnc : Option String := none
  enabled : Option Bool := none

structure WebhookTables where
  webhooks : List Webhook
  auditLog : List AuditEntry

namespace WebhookTables

variable (db : WebhookTables)

/-- `ORDER BY created_at, id`. -/
def listWebhooks : List Webhook :=
  db.webhooks.insertionSort fun a b =>
    a.createdAt < b.createdAt ∨ (a.createdAt = b.createdAt ∧ a.id.bits.toNat ≤ b.id.bits.toNat)

def getWebhook (id : Uuid) : Except StoreError Webhook :=
  match db.webhooks.find? fun hook => hook.id = id with
  | some hook => .ok hook
  | none => .error .notFound

def writeAudit (entry : AuditEntry) : WebhookTables := { db with auditLog := db.auditLog ++ [entry] }

def insertWebhook (hook : Webhook) : Except StoreError WebhookTables :=
  if ∃ other ∈ db.webhooks, other.id = hook.id then
    .error (.other "insert webhook: duplicate key value violates unique constraint \"webhooks_pkey\"")
  else .ok { db with webhooks := db.webhooks ++ [hook] }

def patched (upd : WebhookUpdate) (now : Int) (hook : Webhook) : Webhook :=
  { hook with
    type := upd.type.getD hook.type
    name := upd.name.getD hook.name
    url := upd.url.getD hook.url
    events := upd.events.getD hook.events
    secretEnc := if upd.secretSet then upd.secretEnc else hook.secretEnc
    enabled := upd.enabled.getD hook.enabled
    updatedAt := now }

def patchWebhook (id : Uuid) (upd : WebhookUpdate) (now : Int) : Except StoreError WebhookTables :=
  if ∃ hook ∈ db.webhooks, hook.id = id then
    .ok { db with webhooks := db.webhooks.map fun hook => if hook.id = id then patched upd now hook else hook }
  else .error .notFound

def removeWebhook (id : Uuid) : Except StoreError WebhookTables :=
  if ∃ hook ∈ db.webhooks, hook.id = id then
    .ok { db with webhooks := db.webhooks.filter fun hook => hook.id ≠ id }
  else .error .notFound

end WebhookTables

open WebhookTables

def createWebhook (faults : Faults StoreError) (hook : Webhook) (entry : AuditEntry) (db : WebhookTables) :
    Except StoreError Webhook × WebhookTables :=
  match inTx faults [fun db => db.insertWebhook hook, fun db => .ok (db.writeAudit entry)] db with
  | (.ok (), db) => (.ok hook, db)
  | (.error err, db) => (.error err, db)

def updateWebhook (faults : Faults StoreError) (id : Uuid) (upd : WebhookUpdate) (now : Int) (entry : AuditEntry)
    (db : WebhookTables) : Except StoreError Webhook × WebhookTables :=
  match inTx faults [fun db => db.patchWebhook id upd now, fun db => .ok (db.writeAudit entry)] db with
  | (.ok (), db) => (db.getWebhook id, db)
  | (.error err, db) => (.error err, db)

def deleteWebhook (faults : Faults StoreError) (id : Uuid) (entry : AuditEntry) (db : WebhookTables) :
    Except StoreError Unit × WebhookTables :=
  inTx faults [fun db => db.removeWebhook id, fun db => .ok (db.writeAudit entry)] db

end OtelFleet.Store
