import OtelFleet.Semantics.Machine
import OtelFleet.Stats.CustomerReads

/-! # Telemetry of one tenant

The stores hold the telemetry of all tenants.  Every query of a call for a customer names its
tenant, so the call depends on and deletes the telemetry of that tenant only: the calls of
others, in any order, change nothing of what it returns.  What is assumed of ClickHouse and
VictoriaMetrics are the fields of `Stores`.  The stage statistics are left out: they read
series of the collectors.
-/

namespace OtelFleet.Verified.TenantReads

open Data Semantics Store Stats

/-- The query names the tenant: in one of the conditions that are joined by `AND`, or in an
    extra filter, as a literal. -/
def Confined (tenant : String) : TelemetryStatement → Prop
  | .select _ conditions | .delete _ conditions => .equals "TenantId" tenant ∈ conditions
  | .queryRange _ _ _ _ filters => ∃ literal, "\x7btenant_id=" ++ literal ++ "\x7d" ∈ filters ∧ unquote literal = some tenant
  | .query _ _ => False

/-- Stores with the contents `σ`, of which this is assumed: a query that names a tenant is
    answered from the telemetry of that tenant and changes no other. -/
structure Stores (σ V : Type) where
  answers : σ → TelemetryAnswers V
  submit : σ → TelemetryQuery → σ
  own : String → σ → σ
  reads_own : ∀ {tenant asked content content'}, Confined tenant asked.statement → own tenant content = own tenant content' →
    answers content asked = answers content' asked
  changes_own : ∀ {tenant asked content content'}, Confined tenant asked.statement → own tenant content = own tenant content' →
    own tenant (submit content asked) = own tenant (submit content' asked)
  keeps_others : ∀ {tenant other asked content}, Confined other asked.statement → other ≠ tenant →
    own tenant (submit content asked) = own tenant content

section

variable {σ V : Type} (stores : Stores σ V) {tenant other : String} {queries : List TelemetryQuery} {content content' : σ}

theorem submit_own (confined : ∀ asked ∈ queries, Confined tenant asked.statement)
    (same : stores.own tenant content = stores.own tenant content') :
    stores.own tenant (queries.foldl stores.submit content) = stores.own tenant (queries.foldl stores.submit content') := by
  induction queries generalizing content content' with
  | nil => exact same
  | cons asked queries ih =>
    rw [List.forall_mem_cons] at confined
    exact ih confined.2 (stores.changes_own confined.1 same)

theorem submit_other (confined : ∀ asked ∈ queries, Confined other asked.statement) (isOther : other ≠ tenant) :
    stores.own tenant (queries.foldl stores.submit content) = stores.own tenant content := by
  induction queries generalizing content with
  | nil => rfl
  | cons asked queries ih =>
    rw [List.forall_mem_cons] at confined
    exact (ih confined.2).trans (stores.keeps_others confined.1 isOther)

/-! ## Every query of a call names the tenant -/

def isStages : TelemetryCall → Bool
  | .stages _ _ _ _ => true
  | _ => false

variable [PrintTable] [Zero V] (reg : Registry) (round : V → Int) (customer : CustomerRow)
  {answers answers' : TelemetryAnswers V}

omit [PrintTable] [Zero V] in
theorem execAll_confined {ch : TelemetryStore} {statements : List (String × List Condition)} :
    ∀ asked ∈ (execAll answers ch tenant statements).1, Confined tenant asked.statement := by
  intro asked mem
  simp only [execAll, List.map_map, List.mem_map] at mem
  obtain ⟨statement, _, rfl⟩ := mem
  exact List.mem_cons_self

omit [PrintTable] [Zero V] in
theorem execAll_congr (agree : ∀ asked, Confined tenant asked.statement → answers asked = answers' asked)
    (ch : TelemetryStore) (statements : List (String × List Condition)) :
    execAll answers ch tenant statements = execAll answers' ch tenant statements := by
  have same : ∀ statement : String × List Condition,
      (answers ⟨ch, .delete statement.1 (.equals "TenantId" tenant :: statement.2)⟩ : Option String) =
        answers' ⟨ch, .delete statement.1 (.equals "TenantId" tenant :: statement.2)⟩ :=
    fun statement => agree _ List.mem_cons_self
  simp only [execAll, same]

theorem issued_confined (answers : TelemetryAnswers V) {call : TelemetryCall} (notStages : isStages call = false) :
    ∀ asked ∈ issued reg round answers customer call, Confined customer.clientID asked.statement := by
  cases call with
  | stages => cases notStages
  | logs q => simp [issued, respond, queryLogs, Confined]
  | traces q =>
    simp only [issued, respond, queryTraces]
    split <;> simp [Confined]
  | trace => simp [issued, respond, getTrace, Confined]
  | throughput => simp [issued, respond, getThroughput, Confined]
  | metrics =>
    simp only [issued, respond, queryRangeScoped, queryRange]
    split
    · simp
    · exact List.forall_mem_singleton.mpr ⟨_, List.mem_singleton.mpr rfl, unquote_quote _⟩
  | purge => exact execAll_confined
  | retention =>
    simp only [issued, respond]
    split
    · exact execAll_confined
    · simp

theorem respond_congr (agree : ∀ asked, Confined customer.clientID asked.statement → answers asked = answers' asked)
    {call : TelemetryCall} (notStages : isStages call = false) :
    respond reg round answers customer call = respond reg round answers' customer call := by
  cases call with
  | stages => cases notStages
  | logs q =>
    simp only [respond, queryLogs]
    rw [agree]
    simp [Confined]
  | traces q =>
    simp only [respond, queryTraces]
    rw [agree]
    · split
      · rfl
      · rfl
      · rw [agree]
        simp [Confined]
    · simp [Confined]
  | trace =>
    simp only [respond, getTrace]
    rw [agree]
    simp [Confined]
  | throughput =>
    simp only [respond, getThroughput]
    rw [agree]
    simp [Confined]
  | metrics =>
    simp only [respond, queryRangeScoped, queryRange]
    split
    · rfl
    · rw [agree]
      exact ⟨_, List.mem_singleton.mpr rfl, unquote_quote _⟩
  | purge => simp only [respond, purgeCustomer, execAll_congr agree]
  | retention => simp only [respond, applyCustomer, execAll_congr agree]

/-! ## Calls -/

/-- A call for the customer of this id, with the customers that it finds. -/
structure CustomerCall where
  db : Roster
  customerID : Uuid
  call : TelemetryCall

def isOf (tenant : String) (req : CustomerCall) : Bool :=
  (req.db.liveCustomer req.customerID).any fun customer => customer.clientID = tenant

def serve (content : σ) (req : CustomerCall) : Except ReadError (TelemetryResult V) × σ :=
  let (asked, res) := callFor reg round (stores.answers content) req.db req.customerID req.call
  (res, asked.foldl stores.submit content)

end

/-! ## A store of logs -/

/-- The conditions on tenant and time; the others are not needed here. -/
def meets (row : String × LogRecord) : Condition → Bool
  | .equals column value => column ≠ "TenantId" || row.1 = value
  | .atLeast column bound => column ≠ "Timestamp" || bound ≤ row.2.timestamp
  | .below column bound => column ≠ "Timestamp" || row.2.timestamp < bound
  | _ => true

def selectLogs (conditions : List Condition) (rows : List (String × LogRecord)) : List (String × LogRecord) :=
  rows.filter fun row => conditions.all (meets row)

def answerLogs (rows : List (String × LogRecord)) : TelemetryAnswers Int
  | ⟨_, .select (.logs _) conditions⟩ => .ok ((selectLogs conditions rows).map Prod.snd)
  | ⟨_, .select _ _⟩ => .ok []
  | ⟨_, .delete _ _⟩ => none
  | ⟨_, .queryRange ..⟩ => .unreachable
  | ⟨_, .query ..⟩ => none

def submitLogs (rows : List (String × LogRecord)) (asked : TelemetryQuery) : List (String × LogRecord) :=
  match asked.statement with
  | .delete table conditions => rows.filter fun row => table ≠ "otel_logs" || !conditions.all (meets row)
  | _ => rows

def ownLogs (tenant : String) (rows : List (String × LogRecord)) : List (String × LogRecord) := rows.filter (·.1 = tenant)

section

variable {tenant : String} {conditions : List Condition} (named : .equals "TenantId" tenant ∈ conditions)
include named

theorem tenant_of_meets {row : String × LogRecord} (all : conditions.all (meets row) = true) : row.1 = tenant := by
  simpa [meets] using List.all_eq_true.mp all _ named

theorem selectLogs_ownLogs (rows : List (String × LogRecord)) :
    selectLogs conditions (ownLogs tenant rows) = selectLogs conditions rows :=
  filter_filter_of_imp fun _ _ all => decide_eq_true (tenant_of_meets named all)

end

def logStores : Stores (List (String × LogRecord)) Int where
  answers := answerLogs
  submit := submitLogs
  own := ownLogs
  reads_own := by
    rintro tenant ⟨store, statement⟩ rows rows' confined same
    cases statement with
    | select what conditions =>
      cases what with
      | logs => simp only [answerLogs, ← selectLogs_ownLogs confined rows, same, selectLogs_ownLogs confined rows']
      | _ => rfl
    | _ => rfl
  changes_own := by
    rintro tenant ⟨store, statement⟩ rows rows' - same
    cases statement with
    | delete =>
      simp only [ownLogs, submitLogs] at same ⊢
      rw [List.filter_comm, same, List.filter_comm]
    | _ => exact same
  keeps_others := by
    rintro tenant other ⟨store, statement⟩ rows confined isOther
    cases statement with
    | delete table conditions =>
      simp only [ownLogs, submitLogs]
      rw [List.filter_comm]
      apply List.filter_eq_self.mpr
      intro row isOwn
      have differs : row.1 ≠ other := by
        rw [of_decide_eq_true (List.mem_filter.mp isOwn).2]
        exact isOther.symm
      simpa using Or.inr fun all => differs (tenant_of_meets confined (List.all_eq_true.mpr all))
    | _ => rfl

attribute [local instance] asciiPrintTable

def oneRegion : Registry where
  config := ⟨[⟨"eu", "eu-ch:9000", "otel", "http://eu-vm:8428"⟩], "eu"⟩
  distinct := by decide
  hasDefault := by decide

def twoCustomers : Roster where
  customers := [{ id := ⟨1⟩, slug := "acme", name := "Acme", clientID := "c1", status := .active, region := "eu" },
    { id := ⟨2⟩, slug := "globex", name := "Globex", clientID := "c2", status := .active, region := "eu" }]

def logOf (body : String) : LogRecord := ⟨5, "INFO", 9, "shop", body, "", "", []⟩

/-- Both tenants have a log; Acme lists its logs before and after Globex is purged. -/
def calls : List CustomerCall :=
  [⟨twoCustomers, ⟨1⟩, .logs ⟨0, 10, "", "", 0, 1, none⟩⟩, ⟨twoCustomers, ⟨2⟩, .purge⟩,
    ⟨twoCustomers, ⟨1⟩, .logs ⟨0, 10, "", "", 0, 1, none⟩⟩]

end OtelFleet.Verified.TenantReads
