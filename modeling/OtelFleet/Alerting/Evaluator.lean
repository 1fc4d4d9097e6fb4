import OtelFleet.Data.Edges
import OtelFleet.Store.Alerting

/-! # The alert evaluator

`Evaluate` runs one pass over the enabled rules.  A rule on a customer metric is
evaluated for each customer in its scope, a PromQL rule for each region.  The pass
updates the map of firing pairs, collects the transitions and then sends those that no
active critical rule inhibits.
-/

namespace OtelFleet.Alerting

open Data Store

/-- What an alert is about: a customer, or a region for PromQL rules. -/
inductive Scope where
  | customer (id : Uuid)
  | region (name : String)
deriving DecidableEq

def Scope.text : Scope → String
  | .customer id => id.toText
  | .region name => "region:" ++ name

/-- A pair of a rule and a scope, which the map of firing pairs is keyed by. -/
structure Key where
  rule : Uuid
  scope : Scope
deriving DecidableEq

def Key.text (key : Key) : String :=
  match key.scope with
  | .customer id => key.rule.toText ++ "|" ++ id.toText
  | .region name => key.rule.toText ++ "|promql|" ++ name

def alertFiring : String := "alert.firing"
def alertResolved : String := "alert.resolved"

inductive DetailValue (V : Type) where
  | text (value : String)
  | number (value : V)
  | seconds (value : Int)

structure AlertPayload (V : Type) where
  event : String
  occurredAt : Int
  detail : List (String × DetailValue V)

/-- A transition of the pair `key`, held until the whole pass is evaluated. -/
structure PendingNotify (V : Type) where
  key : Key
  channels : List Webhook
  payload : AlertPayload V
  firing : Bool
  severity : String

def PendingNotify.scope {V : Type} (notify : PendingNotify V) : Scope := notify.key.scope

/-- What one pass reads: the answers of the store, and the answers that the metric
    sources give when a rule is evaluated.  The ids of rules and of customers are
    primary keys. -/
structure Pass (V : Type) where
  now : Int
  windows : Except StoreError (List MaintenanceWindow)
  rules : Except StoreError { rules : List (AlertRule V) // (rules.map fun rule => rule.id).Nodup }
  refs : Except StoreError { refs : List CustomerRef // (refs.map fun ref => ref.id).Nodup }
  hooks : Except StoreError (List Webhook)
  metric : AlertRule V → Except String (String → Option V)
  query : AlertRule V → String → Except String (Option V)

/-- The settings of the evaluator.  Without `regions` no metrics store is configured. -/
structure Settings where
  regions : Option { regions : List String // regions.Nodup }
  inhibitLowerSeverity : Bool

structure Progress (V : Type) where
  firing : Key → Bool
  pending : List (PendingNotify V) := []
  criticalScopes : List Scope := []

variable {V : Type} [Zero V] [LT V] [DecidableLT V]

def breach (comparison : String) (value threshold : V) : Bool :=
  if comparison = alertComparisonBelow then value < threshold
  else if comparison = alertComparisonAbove then value > threshold
  else false

def channelsFor (hooks : List Webhook) (rule : AlertRule V) : List Webhook :=
  -- the map is filled in the order of the list, so the last webhook of an id counts
  rule.channelIDs.filterMap fun id => hooks.reverse.find? fun hook => hook.id = id

structure Observation (V : Type) where
  rule : AlertRule V
  scope : Scope
  breached : Bool
  detail : List (String × DetailValue V)

def Observation.key (seen : Observation V) : Key := ⟨seen.rule.id, seen.scope⟩

def Observation.notify (now : Int) (hooks : List Webhook) (seen : Observation V) : PendingNotify V where
  key := seen.key
  channels := channelsFor hooks seen.rule
  payload := ⟨if seen.breached then alertFiring else alertResolved, now, seen.detail⟩
  firing := seen.breached
  severity := seen.rule.severity

/-- What both loops do with an observation: record the state, mark the scope of a firing
    critical rule and hold the transition. -/
def record (now : Int) (hooks : List Webhook) (progress : Progress V) (seen : Observation V) : Progress V where
  firing := Function.update progress.firing seen.key seen.breached
  criticalScopes :=
    if seen.breached ∧ seen.rule.severity = alertSeverityCritical then seen.scope :: progress.criticalScopes
    else progress.criticalScopes
  pending :=
    if seen.breached = progress.firing seen.key then progress.pending
    else progress.pending ++ [seen.notify now hooks]

/-- The value of a customer's metric against the threshold; a missing tenant counts as 0. -/
def observeCustomer (perTenant : String → Option V) (rule : AlertRule V) (ref : CustomerRef) : Observation V :=
  let value := (perTenant ref.clientID).getD 0
  { rule := rule, scope := .customer ref.id
    breached := breach rule.comparison value rule.threshold
    detail :=
      [("rule", .text rule.name), ("severity", .text rule.severity), ("customer", .text ref.name),
        ("metric", .text rule.metric), ("comparison", .text rule.comparison), ("threshold", .number rule.threshold),
        ("observed", .number value), ("windowSeconds", .seconds rule.windowSeconds)] }

/-- The value of a region's query against the threshold; no data is not a breach. -/
def observeRegion (result : Option V) (rule : AlertRule V) (region : String) : Observation V where
  rule := rule
  scope := .region region
  breached := result.any fun value => breach rule.comparison value rule.threshold
  detail :=
    [("rule", .text rule.name), ("severity", .text rule.severity), ("metric", .text alertMetricPromQL),
      ("region", .text region), ("query", .text rule.query), ("comparison", .text rule.comparison),
      ("threshold", .number rule.threshold), ("observed", .number (result.getD 0))]

variable (settings : Settings) (pass : Pass V)

/-- `evalPromQL`: one region's failing query does not block the others. -/
def evalPromQL (hooks : List Webhook) (rule : AlertRule V) (progress : Progress V) : Progress V :=
  match settings.regions with
  | none => progress
  | some regions => regions.1.foldl (fun progress region =>
    match pass.query rule region with
    | .error _ => progress
    | .ok result => record pass.now hooks progress (observeRegion result rule region)) progress

/-- In-scope customers: a single pinned customer, or all of them. -/
def inScope (refs : List CustomerRef) (rule : AlertRule V) : List CustomerRef :=
  match rule.customerID with
  | some id => (refs.find? fun ref => ref.id = id).toList
  | none => refs

def evalRule (refs : List CustomerRef) (hooks : List Webhook) (rule : AlertRule V) (progress : Progress V) :
    Except String (Progress V) :=
  if rule.metric = alertMetricPromQL then .ok (evalPromQL settings pass hooks rule progress)
  else do
    let perTenant ← pass.metric rule
    return (inScope refs rule).foldl (fun progress ref =>
      record pass.now hooks progress (observeCustomer perTenant rule ref)) progress

def evalRules (rules : List (AlertRule V)) (refs : List CustomerRef) (hooks : List Webhook) (progress : Progress V) :
    Progress V :=
  rules.foldl (fun progress rule =>
    match evalRule settings pass refs hooks rule progress with
    | .error _ => progress
    | .ok progress => progress) progress

/-- What is handed to `SendToChannels`, which skips the disabled ones among its channels. -/
def dispatch (progress : Progress V) : List (PendingNotify V) :=
  progress.pending.filter fun notify =>
    !(settings.inhibitLowerSeverity && notify.firing && decide (notify.severity ≠ alertSeverityCritical) &&
      progress.criticalScopes.contains notify.scope) && !notify.channels.isEmpty

structure Evaluated (V : Type) where
  result : Except StoreError Unit
  firing : Key → Bool
  sent : List (PendingNotify V)

def evaluate (firing : Key → Bool) : Evaluated V :=
  match pass.windows with
  | .error err => ⟨.error err, firing, []⟩
  | .ok (_ :: _) => ⟨.ok (), firing, []⟩
  | .ok [] =>
    match pass.rules with
    | .error err => ⟨.error err, firing, []⟩
    | .ok rules =>
      if rules.1.isEmpty then ⟨.ok (), firing, []⟩
      else
        match pass.refs with
        | .error err => ⟨.error err, firing, []⟩
        | .ok refs =>
          match pass.hooks with
          | .error err => ⟨.error err, firing, []⟩
          | .ok hooks =>
            let progress := evalRules settings pass rules.1 refs.1 hooks { firing := firing }
            ⟨.ok (), progress.firing, dispatch settings progress⟩

end OtelFleet.Alerting
