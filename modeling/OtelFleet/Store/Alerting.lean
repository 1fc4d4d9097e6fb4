import OtelFleet.Data.Rows
import OtelFleet.Store.Pipelines
import OtelFleet.Store.Webhooks

/-! # Alert rules and maintenance windows

The tables that the alert evaluator reads, and the calls that change them.  A call is
one transaction; what it returns besides the tables is left out.  `V` is the type of
the numbers, with the source's own comparison of them.
-/

namespace OtelFleet.Store

open Data

def alertMetricIngestItems : String := "ingest_items"
def alertMetricErrorLogs : String := "error_logs"
def alertMetricPromQL : String := "promql"
def alertComparisonBelow : String := "below"
def alertComparisonAbove : String := "above"
def alertSeverityWarning : String := "warning"
def alertSeverityCritical : String := "critical"

structure AlertRule (V : Type) where
  id : Uuid
  name : String
  metric : String
  query : String := ""
  comparison : String
  threshold : V
  windowSeconds : Int
  severity : String := alertSeverityWarning
  customerID : Option Uuid := none
  channelIDs : List Uuid
  enabled : Bool := true
  createdAt : Int := 0

structure AlertRuleUpdate (V : Type) where
  name : Option String := none
  metric : Option String := none
  query : Option String := none
  comparison : Option String := none
  threshold : Option V := none
  windowSeconds : Option Int := none
  severity : Option String := none
  channelIDs : Option (List Uuid) := none
  enabled : Option Bool := none

/-- Silences all alerts from `startsAt` until before `endsAt`. -/
structure MaintenanceWindow where
  id : Uuid
  name : String
  startsAt : Int
  endsAt : Int

structure CustomerRef where
  id : Uuid
  name : String
  clientID : String

structure AlertTables (V : Type) where
  rules : List (AlertRule V) := []
  rules_id : (rules.map fun rule => rule.id).Nodup := by decide
  customers : List Customer := []
  customers_id : (customers.map fun customer => customer.id).Nodup := by decide
  webhooks : List Webhook := []
  windows : List MaintenanceWindow := []

namespace AlertTables

variable {V : Type} (db : AlertTables V)

/-- `ORDER BY created_at, id`. -/
def listEnabledAlertRules : List (AlertRule V) :=
  (db.rules.filter fun rule => rule.enabled).insertionSort fun a b =>
    a.createdAt < b.createdAt ∨ (a.createdAt = b.createdAt ∧ a.id.bits.toNat ≤ b.id.bits.toNat)

/-- All customers, whatever their status. -/
def listCustomerRefs : List CustomerRef := db.customers.map fun customer => ⟨customer.id, customer.name, customer.clientID⟩

def listActiveMaintenanceWindows (now : Int) : List MaintenanceWindow :=
  db.windows.filter fun window => window.startsAt ≤ now ∧ now < window.endsAt

theorem mem_listEnabledAlertRules {rule : AlertRule V} :
    rule ∈ db.listEnabledAlertRules ↔ rule ∈ db.rules ∧ rule.enabled = true := by
  rw [listEnabledAlertRules, (List.perm_insertionSort _ _).mem_iff, List.mem_filter]

theorem nodup_listEnabledAlertRules : (db.listEnabledAlertRules.map fun rule => rule.id).Nodup :=
  ((List.perm_insertionSort _ _).map _).nodup_iff.mpr (nodup_filter_rows _ db.rules_id)

theorem nodup_listCustomerRefs : (db.listCustomerRefs.map fun ref => ref.id).Nodup := by
  rw [listCustomerRefs, List.map_map]
  exact db.customers_id

def createAlertRule (rule : AlertRule V) : Except StoreError (AlertTables V) :=
  if fresh : ∀ other ∈ db.rules, other.id ≠ rule.id then
    if rule.customerID.all fun id => db.customers.any fun customer => customer.id = id then
      .ok { db with rules := db.rules ++ [rule], rules_id := nodup_append_row db.rules_id fresh }
    else .error .notFound
  else .error (.other "insert alert rule: duplicate key value violates unique constraint \"alert_rules_pkey\"")

def updatedRule (upd : AlertRuleUpdate V) (rule : AlertRule V) : AlertRule V :=
  { rule with
    name := upd.name.getD rule.name
    metric := upd.metric.getD rule.metric
    query := upd.query.getD rule.query
    comparison := upd.comparison.getD rule.comparison
    threshold := upd.threshold.getD rule.threshold
    windowSeconds := upd.windowSeconds.getD rule.windowSeconds
    severity := upd.severity.getD rule.severity
    channelIDs := upd.channelIDs.getD rule.channelIDs
    enabled := upd.enabled.getD rule.enabled }

def updateAlertRule (id : Uuid) (upd : AlertRuleUpdate V) : Except StoreError (AlertTables V) :=
  if ∃ rule ∈ db.rules, rule.id = id then
    .ok { db with
      rules := db.rules.map fun rule => if rule.id = id then updatedRule upd rule else rule
      rules_id := nodup_map_rows (fun rule => by split <;> rfl) db.rules_id }
  else .error .notFound

def deleteAlertRule (id : Uuid) : Except StoreError (AlertTables V) :=
  if ∃ rule ∈ db.rules, rule.id = id then
    .ok { db with
      rules := db.rules.filter fun rule => rule.id ≠ id
      rules_id := nodup_filter_rows _ db.rules_id }
  else .error .notFound

/-- The row stays, so its customer is still listed. -/
def softDeleteCustomer (id : Uuid) : Except StoreError (AlertTables V) :=
  if ∃ customer ∈ db.customers, customer.id = id ∧ customer.status ≠ .deleted then
    .ok { db with
      customers := db.customers.map fun customer =>
        if customer.id = id then { customer with status := .deleted } else customer
      customers_id := nodup_map_rows (fun customer => by split <;> rfl) db.customers_id }
  else .error .notFound

def createMaintenanceWindow (window : MaintenanceWindow) : Except StoreError (AlertTables V) :=
  if ∃ other ∈ db.windows, other.id = window.id then
    .error (.other "insert maintenance window: duplicate key value violates unique constraint \"alert_maintenance_windows_pkey\"")
  else .ok { db with windows := db.windows ++ [window] }

def deleteMaintenanceWindow (id : Uuid) : Except StoreError (AlertTables V) :=
  if ∃ window ∈ db.windows, window.id = id then
    .ok { db with windows := db.windows.filter fun window => window.id ≠ id }
  else .error .notFound

end AlertTables

end OtelFleet.Store
