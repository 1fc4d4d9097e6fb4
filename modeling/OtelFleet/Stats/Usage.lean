import OtelFleet.Data.Aggregate
import OtelFleet.Data.Decimal
import OtelFleet.Stats.Regions
import OtelFleet.Store.Alerting
import Mathlib.Algebra.Group.Prod
import Mathlib.Data.List.Dedup
import Mathlib.Data.Prod.Lex

/-! # Usage figures

The fleet-wide figures: the overview, the cost per customer with the priced statement,
and the metrics of alert rules.  Each goes through the ClickHouse of every region and adds
up what it finds by tenant, in `int64` or, for the metrics, in `float64`.
-/

namespace OtelFleet.Stats

open Data Store

structure IngestCount where
  tenantID : String
  signal : String
  minute : Int
  items : Nat
  bytes : Nat := 0

structure LogRow where
  tenantID : String
  timestamp : Int
  severityNumber : Int

structure ClickHouse where
  counts : List IngestCount := []
  logs : List LogRow := []

/-- The servers: which database an address and a name lead to, what it holds or why it
    cannot be queried, and its `toDate`. -/
structure Servers (σ : Type) where
  locate : String × String → σ
  tables : σ → Except String ClickHouse
  toDate : Int → Int

variable {σ : Type} (reg : Registry) (servers : Servers σ)

/-- Run a query on every region in turn and put the results together; the first failure
    ends it. -/
def fanOut {ε ρ : Type} (failed : String → String → ε) (query : ClickHouse → List ρ) : List String → Except ε (List ρ)
  | [] => .ok []
  | region :: regions =>
    match servers.tables (servers.locate (reg.clickHouse region)) with
    | .error err => .error (failed region err)
    | .ok tables => (fanOut failed query regions).map (query tables ++ ·)

inductive StatsError where
  | upstreamUnavailable (msg : String)
  | store (context : String) (err : StoreError)

def clickHouseFailed (region err : String) : StatsError :=
  .upstreamUnavailable ("upstream unavailable: clickhouse (region " ++ region ++ "): " ++ err)

structure StatsStore where
  countActiveCustomers : Except StoreError Nat
  listCustomerRefs : Except StoreError (List CustomerRef)

def inContext {α : Type} (context : String) (answer : Except StoreError α) : Except StatsError α :=
  answer.mapError (.store context)

/-- The customer of a tenant id.  The map is filled in order, so the last one counts. -/
def byClientID (refs : List CustomerRef) (tenantID : String) : Option CustomerRef :=
  refs.reverse.find? fun ref => ref.clientID = tenantID

variable (db : StatsStore)

theorem rank_lt_iff (amount amount' : Int64) (name name' : String) :
    (if amount ≠ amount' then amount > amount' else name < name') ↔
      toLex (OrderDual.toDual amount.toInt, name) < toLex (OrderDual.toDual amount'.toInt, name') := by
  rw [Prod.Lex.toLex_lt_toLex]
  by_cases same : amount = amount'
  · simp [same]
  · simp [same, Int64.toInt_inj, Int64.lt_iff_toInt_lt]

structure TopCustomer where
  customerID : Uuid
  name : String
  items : Int64

/-- The order of the leaderboard: most items first, then by name. -/
def TopCustomer.before (a b : TopCustomer) : Prop :=
  if a.items ≠ b.items then a.items > b.items else a.name < b.name

def TopCustomer.rank (top : TopCustomer) : Lex (Intᵒᵈ × String) := toLex (OrderDual.toDual top.items.toInt, top.name)

theorem TopCustomer.before_iff (a b : TopCustomer) : a.before b ↔ a.rank < b.rank :=
  rank_lt_iff a.items b.items a.name b.name

structure Overview where
  activeCustomers : Nat
  totals : String → Int64
  refusedRequests : Int64
  topCustomers : List TopCustomer

def topCustomersLimit : Nat := 5

def inRange (start stop : Int) (row : IngestCount) : Bool := start ≤ row.minute ∧ row.minute < stop

def overviewEntries (start stop : Int) (tables : ClickHouse) : List ((String × String) × Nat) :=
  (tables.counts.filter (inRange start stop)).map fun row => ((row.tenantID, row.signal), row.items)

def overviewRows (start stop : Int) (tables : ClickHouse) : List ((String × String) × Int64) :=
  (tally (overviewEntries start stop tables)).map fun row => (row.1, toInt64 row.2)

def isAllowed (allowed : Option (List Uuid)) (id : Uuid) : Bool := allowed.all fun ids => ids.contains id

theorem isAllowed_iff {allowed : Option (List Uuid)} {id : Uuid} : isAllowed allowed id = true ↔ ∀ ids ∈ allowed, id ∈ ids := by
  cases allowed <;> simp [isAllowed]

def countedTenants (perTenantSignal : List ((String × String) × Int64)) (refs : List CustomerRef) (allowed : Option (List Uuid)) :
    List (CustomerRef × List (String × Int64)) :=
  (perTenantSignal.map fun entry => entry.1.1).dedup.filterMap fun tenantID =>
    (byClientID refs tenantID).bind fun ref =>
      if isAllowed allowed ref.id then
        some (ref, (perTenantSignal.filter fun entry => entry.1.1 = tenantID).map fun entry => (entry.1.2, entry.2))
      else none

def topCustomer (counted : CustomerRef × List (String × Int64)) : TopCustomer :=
  ⟨counted.1.id, counted.1.name, (counted.2.map Prod.snd).sum⟩

/-- Each VictoriaMetrics is asked once, however many regions share it. -/
def refusedRequests (refusedFromVM : String → Int64) (start stop : Int) : Int64 :=
  if stop - start ≤ 0 then 0
  else (((reg.names.map reg.vm).filter (· ≠ "")).dedup.map refusedFromVM).sum

def getOverview (sorter : Sorter TopCustomer.before) (refusedFromVM : String → Int64) (start stop : Int)
    (allowed : Option (List Uuid)) : Except StatsError Overview := do
  let rows ← fanOut reg servers clickHouseFailed (overviewRows start stop) reg.names
  let refs ← inContext "list customer refs" db.listCustomerRefs
  let counted := countedTenants (tally rows) refs allowed
  let totals (signal : String) := (counted.map fun tenant => sumWhere (· = signal) tenant.2).sum
  let top := (sorter.sort (counted.map topCustomer)).take topCustomersLimit
  match allowed with
  | some ids => return ⟨ids.dedup.length, totals, 0, top⟩
  | none =>
    let active ← inContext "count active customers" db.countActiveCustomers
    return ⟨active, totals, refusedRequests reg refusedFromVM start stop, top⟩

/-- One day of a customer; days without data are omitted. -/
structure CostDay where
  date : Int
  items : Int64
  bytes : Int64

structure CustomerCost where
  customerID : Uuid
  name : String
  items : Int64
  bytes : Int64
  days : List CostDay

/-- Most bytes first, then by name. -/
def CustomerCost.before (a b : CustomerCost) : Prop :=
  if a.bytes ≠ b.bytes then a.bytes > b.bytes else a.name < b.name

def CustomerCost.rank (cost : CustomerCost) : Lex (Intᵒᵈ × String) := toLex (OrderDual.toDual cost.bytes.toInt, cost.name)

theorem CustomerCost.before_iff (a b : CustomerCost) : a.before b ↔ a.rank < b.rank :=
  rank_lt_iff a.bytes b.bytes a.name b.name

def costEntries (toDate : Int → Int) (start stop : Int) (tables : ClickHouse) : List ((String × Int) × Nat × Nat) :=
  (tables.counts.filter (inRange start stop)).map fun row => ((row.tenantID, toDate row.minute), row.items, row.bytes)

/-- `ORDER BY TenantId, d`, as it is scanned. -/
def costRows (toDate : Int → Int) (start stop : Int) (tables : ClickHouse) : List ((String × Int) × Int64 × Int64) :=
  ((tally (costEntries toDate start stop tables)).insertionSort fun a b =>
    a.1.1 < b.1.1 ∨ (a.1.1 = b.1.1 ∧ a.1.2 ≤ b.1.2)).map fun row => (row.1, toInt64 row.2.1, toInt64 row.2.2)

def customerCost (rows : List ((String × Int) × Int64 × Int64)) (tenantID : String) (ref : CustomerRef) : CustomerCost :=
  let own := rows.filter fun row => row.1.1 = tenantID
  { customerID := ref.id
    name := ref.name
    items := (own.map fun row => row.2.1).sum
    bytes := (own.map fun row => row.2.2).sum
    days := own.map fun row => ⟨row.1.2, row.2.1, row.2.2⟩ }

def tenantOrder (rows : List ((String × Int) × Int64 × Int64)) : List String := (rows.map fun row => row.1.1).reverse.dedup.reverse

def getCost (sorter : Sorter CustomerCost.before) (start stop : Int) : Except StatsError (List CustomerCost) := do
  let rows ← fanOut reg servers clickHouseFailed (costRows servers.toDate start stop) reg.names
  let refs ← inContext "list customer refs" db.listCustomerRefs
  return sorter.sort ((tenantOrder rows).filterMap fun tenantID =>
    (byClientID refs tenantID).map (customerCost rows tenantID))

structure BillingSettings where
  currency : String
  pricePerGiBMicro : Int
  pricePerMillionItemsMicro : Int

structure BillingOverride where
  pricePerGiBMicro : Option Int := none
  pricePerMillionItemsMicro : Option Int := none

structure BillingLine where
  customerID : Uuid
  name : String
  items : Int64
  bytes : Int64
  bytesCostMicro : Int
  itemsCostMicro : Int
  totalMicro : Int
  overridden : Bool

structure Statement where
  month : String
  currency : String
  pricePerGiBMicro : Int
  pricePerMillionItemsMicro : Int
  lines : List BillingLine
  totalMicro : Int

def int64 (n : Int) : Int := n.bmod (2 ^ 64)

/-- The price of a quantity, rounded down.  The quotient is a big integer. -/
def mulDiv (price quantity divisor : Int) : Int :=
  if price ≤ 0 ∨ quantity ≤ 0 ∨ divisor ≤ 0 then 0 else int64 (price * quantity / divisor)

def billingLine (settings : BillingSettings) (overrides : Uuid → Option BillingOverride) (cost : CustomerCost) : BillingLine :=
  let gibPrice := ((overrides cost.customerID).bind fun override => override.pricePerGiBMicro)
  let itemsPrice := ((overrides cost.customerID).bind fun override => override.pricePerMillionItemsMicro)
  let bytesCost := mulDiv (gibPrice.getD settings.pricePerGiBMicro) cost.bytes.toInt (2 ^ 30)
  let itemsCost := mulDiv (itemsPrice.getD settings.pricePerMillionItemsMicro) cost.items.toInt 1000000
  { customerID := cost.customerID, name := cost.name, items := cost.items, bytes := cost.bytes
    bytesCostMicro := bytesCost, itemsCostMicro := itemsCost, totalMicro := int64 (bytesCost + itemsCost)
    overridden := gibPrice.isSome || itemsPrice.isSome }

/-- `Compute`: the lines by amount, then by name. -/
def computeStatement (month : String) (costs : List CustomerCost) (settings : BillingSettings)
    (overrides : Uuid → Option BillingOverride) : Statement :=
  let lines := costs.map (billingLine settings overrides)
  { month := month, currency := settings.currency, pricePerGiBMicro := settings.pricePerGiBMicro
    pricePerMillionItemsMicro := settings.pricePerMillionItemsMicro
    lines := lines.insertionSort fun a b => a.totalMicro > b.totalMicro ∨ (a.totalMicro = b.totalMicro ∧ a.name ≤ b.name)
    totalMicro := lines.foldl (fun total line => int64 (total + line.totalMicro)) 0 }

def metricEntries (metric : String) (since : Int) : Option (ClickHouse → List (String × Nat)) :=
  if metric = alertMetricIngestItems then
    some fun tables => (tables.counts.filter fun row => since ≤ row.minute).map fun row => (row.tenantID, row.items)
  else if metric = alertMetricErrorLogs then
    some fun tables => (tables.logs.filter fun row => since ≤ row.timestamp ∧ 17 ≤ row.severityNumber).map fun row => (row.tenantID, 1)
  else none

/-- `out[tenant] += float64(v)` for each row, scanned as a `uint64`. -/
def addFloats (rows : List (String × Nat)) (tenantID : String) : Option ℚ :=
  rows.foldl (fun value row =>
    if row.1 = tenantID then some (nearestFloat64 (value.getD 0 + nearestFloat64 (row.2 % 2 ^ 64 : Nat))) else value) none

/-- `chSource.Metric`: a tenant without data is absent. -/
def metricSource [PrintTable] (metric : String) (since : Int) : Except String (String → Option ℚ) :=
  match metricEntries metric since with
  | none => .error ("unknown metric " ++ quote metric)
  | some entries => do
    let rows ← fanOut reg servers (fun _ err => "clickhouse " ++ metric ++ ": " ++ err)
      (fun tables => tally (entries tables)) reg.names
    return addFloats rows

end OtelFleet.Stats
