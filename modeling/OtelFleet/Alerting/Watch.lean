import OtelFleet.Alerting.Evaluator
import OtelFleet.Semantics.Run

/-! # The evaluator over tables that change

Passes of one service, without query errors, between changes of the rules, the customers
and the maintenance windows.
-/

namespace OtelFleet.Alerting

open Semantics Store

structure Values (V : Type) where
  now : Int
  metric : AlertRule V → String → Option V
  query : AlertRule V → String → Option V

def tablesPass {V : Type} (db : AlertTables V) (values : Values V) : Pass V where
  now := values.now
  windows := .ok (db.listActiveMaintenanceWindows values.now)
  rules := .ok ⟨db.listEnabledAlertRules, db.nodup_listEnabledAlertRules⟩
  refs := .ok ⟨db.listCustomerRefs, db.nodup_listCustomerRefs⟩
  hooks := .ok db.webhooks
  metric rule := .ok (values.metric rule)
  query rule region := .ok (values.query rule region)

inductive AdminChange (V : Type) where
  | createRule (rule : AlertRule V)
  | updateRule (id : Uuid) (upd : AlertRuleUpdate V)
  | deleteRule (id : Uuid)
  | deleteCustomer (id : Uuid)
  | createWindow (window : MaintenanceWindow)
  | deleteWindow (id : Uuid)

def AdminChange.apply {V : Type} (db : AlertTables V) : AdminChange V → Except StoreError (AlertTables V)
  | .createRule rule => db.createAlertRule rule
  | .updateRule id upd => db.updateAlertRule id upd
  | .deleteRule id => db.deleteAlertRule id
  | .deleteCustomer id => db.softDeleteCustomer id
  | .createWindow window => db.createMaintenanceWindow window
  | .deleteWindow id => db.deleteMaintenanceWindow id

structure Watch (V : Type) where
  db : AlertTables V
  firing : Key → Bool := fun _ => false
  sent : List (PendingNotify V) := []

inductive WatchEvent (V : Type) where
  | change (change : AdminChange V)
  | evaluate (values : Values V)

namespace Watch

variable {V : Type} [Zero V] [LT V] [DecidableLT V]

def evaluate (settings : Settings) (watch : Watch V) (values : Values V) : Watch V :=
  let evaluated := Alerting.evaluate settings (tablesPass watch.db values) watch.firing
  { watch with firing := evaluated.firing, sent := watch.sent ++ evaluated.sent }

/-- A change that fails leaves the tables as they are. -/
def perform (settings : Settings) (watch : Watch V) : WatchEvent V → Watch V
  | .change change =>
    match change.apply watch.db with
    | .ok db => { watch with db := db }
    | .error _ => watch
  | .evaluate values => watch.evaluate settings values

def Step (settings : Settings) (watch : Watch V) (event : WatchEvent V) (next : Watch V) : Prop :=
  watch.perform settings event = next

end Watch

end OtelFleet.Alerting
