import OtelFleet.Data.Aggregate
import OtelFleet.Data.Decimal
import OtelFleet.Stats.Regions
import OtelFleet.Store.Customers

/-! # Telemetry queries on behalf of one customer

The calls that read or delete the telemetry of one customer, each with the queries it sends
to the stores of the regions and what it makes of the answers.  All but the stage statistics
of a pipeline look the stores up by the region of the customer.  Times are in nanoseconds.
-/

namespace OtelFleet.Stats

open Data Store

inductive TelemetryStore where
  | clickHouse (addr database : String)
  | victoriaMetrics (url : String)
deriving DecidableEq

/-! ## Queries -/

/-- A condition of a `WHERE` clause, with the arguments bound to it. -/
inductive Condition where
  /-- `column = ?` -/
  | equals (column value : String)
  /-- `column = ''` -/
  | empty (column : String)
  /-- `positionCaseInsensitive(column, ?) > 0` -/
  | contains (column text : String)
  /-- `column >= ?` -/
  | atLeast (column : String) (bound : Int)
  /-- `column < ?` -/
  | below (column : String) (bound : Int)
  /-- `column IN (?)`, or without brackets -/
  | oneOf (column : String) (values : List String)
  /-- `column < now() - INTERVAL days DAY` -/
  | olderThan (column : String) (days : Int)
deriving DecidableEq

structure LogRecord where
  timestamp : Int
  severityText : String
  severityNumber : Int
  serviceName : String
  body : String
  traceID : String
  spanID : String
  attributes : List (String × String)
deriving DecidableEq

/-- `TraceId, SpanName, ServiceName, Timestamp, Duration` of a root span. -/
structure RootSpan where
  traceID : String
  name : String
  service : String
  timestamp : Int
  duration : Nat

/-- A span, with its duration as it is stored or as it is returned. -/
structure Span (δ : Type) where
  spanID : String
  parentSpanID : String
  name : String
  service : String
  kind : String
  startTime : Int
  duration : δ
  statusCode : String
  statusMessage : String
  attributes : List (String × String)

/-- What a `SELECT` lists, from which table, with its grouping, order and limit. -/
inductive Select where
  /-- `otel.otel_logs`, `ORDER BY Timestamp DESC LIMIT ?` -/
  | logs (limit : Int)
  /-- `otel.otel_traces`, `ORDER BY Timestamp DESC LIMIT ?` -/
  | rootSpans (limit : Int)
  /-- `TraceId`, its number of spans and of those with an error in `otel.otel_traces`, `GROUP BY TraceId` -/
  | spanCounts
  /-- `otel.otel_traces`, `ORDER BY Timestamp ASC` -/
  | spans
  /-- `Signal, toStartOfInterval(Minute, INTERVAL ? SECOND), sum(Items)` of `ingest_counts_1m`, by both -/
  | throughput (stepSecs : Int)
  /-- `Signal, sum(Items)` of `ingest_counts_1m`, `GROUP BY Signal` -/
  | received
deriving DecidableEq

abbrev Select.Row : Select → Type
  | logs _ => LogRecord
  | rootSpans _ => RootSpan
  | spanCounts => String × Int × Int
  | spans => Span Nat
  | throughput _ => String × Int × Nat
  | received => String × Nat

inductive TelemetryStatement where
  /-- The conditions are joined by `AND`. -/
  | select (what : Select) (conditions : List Condition)
  /-- `ALTER TABLE otel.table DELETE WHERE … SETTINGS mutations_sync = 0` -/
  | delete (table : String) (conditions : List Condition)
  /-- `/api/v1/query_range`; start and end are in seconds. -/
  | queryRange (query : String) (start stop step : Int) (extraFilters : List String)
  /-- `/api/v1/query` -/
  | query (query : String) (time : Int)
deriving DecidableEq

structure TelemetryQuery where
  store : TelemetryStore
  statement : TelemetryStatement
deriving DecidableEq

/-! ## Answers -/

inductive ReadFailure where
  | query (msg : String)
  | scan (msg : String)
  | rows (msg : String)

/-- What `/api/v1/query_range` answers.  A sample has a time or a value if it has the right type. -/
inductive RangeReply (V : Type) where
  | unreachable
  | undecodable (code : Nat) (msg : String)
  | body (code : Nat) (status error : String) (res : List (List (String × String) × List (Option Int × Option V)))

/-- For an instant query, a value per label; for a mutation, its error. -/
abbrev TelemetryStatement.Answer (V : Type) : TelemetryStatement → Type
  | select what _ => Except ReadFailure (List what.Row)
  | delete _ _ => Option String
  | queryRange .. => RangeReply V
  | query .. => Option (List (String × V))

abbrev TelemetryAnswers (V : Type) := (asked : TelemetryQuery) → asked.statement.Answer V

inductive ReadError where
  | badRequest (msg : String)
  | notFound
  /-- Wraps `ErrUpstreamUnavailable`. -/
  | unavailable (msg : String)
  | other (msg : String)

def telemetryUnavailable : ReadFailure → ReadError
  | .scan msg => .unavailable ("telemetry store unavailable: scan: " ++ msg)
  | .query msg | .rows msg => .unavailable ("telemetry store unavailable: " ++ msg)

/-- `traceCounts` and `GetTrace` return `rows.Err()` as it is. -/
def traceUnavailable : ReadFailure → ReadError
  | .rows msg => .other msg
  | err => telemetryUnavailable err

def statsUnavailable : ReadFailure → ReadError
  | .scan msg => .unavailable ("upstream unavailable: clickhouse scan: " ++ msg)
  | .query msg | .rows msg => .unavailable ("upstream unavailable: clickhouse: " ++ msg)

/-! ## Results -/

structure LogQuery where
  start : Int
  stop : Int
  text : String := ""
  service : String := ""
  minSeverity : Int := 0
  limit : Int := 0
  before : Option Int := none

structure TraceQuery where
  start : Int
  stop : Int
  service : String := ""
  name : String := ""
  minDurationMs : ℚ := 0
  errorsOnly : Bool := false
  limit : Int := 0
  before : Option Int := none

structure TraceSummary where
  traceID : String
  rootName : String
  rootService : String
  startTime : Int
  durationMs : ℚ
  spanCount : Int := 0
  errorCount : Int := 0

structure Series where
  signal : String
  points : List (Int × ℚ)

structure MetricSeries (V : Type) where
  labels : List (String × String)
  points : List (Int × V)

structure ExporterStage (V : Type) where
  sent : Int
  sendFailed : Int
  enqueueFailed : Int
  queueSize : V
  queueCapacity : V

structure PipelineFlow (V : Type) where
  received : List (String × Int64) := []
  exporters : List (String × ExporterStage V) := []

structure PipelineStageQuery where
  clientID : String
  signals : List String
  exporterRegex : String
  start : Int
  stop : Int

/-- The telemetry tables with their time columns, `tables` of the retention job. -/
def telemetryTables : List (String × String) :=
  [("otel_logs", "TimestampTime"), ("otel_traces", "Timestamp"), ("otel_metrics_gauge", "TimeUnix"),
    ("otel_metrics_sum", "TimeUnix"), ("otel_metrics_histogram", "TimeUnix"),
    ("otel_metrics_exponential_histogram", "TimeUnix"), ("otel_metrics_summary", "TimeUnix")]

section

variable {V : Type} (reg : Registry) (answers : TelemetryAnswers V)

def Registry.clickHouseStore (region : String) : TelemetryStore :=
  .clickHouse (reg.clickHouse region).1 (reg.clickHouse region).2

/-! ## Queries in the customer's region -/

def clampLimit (n : Int) : Int := if n ≤ 0 then 100 else if n > 1000 then 1000 else n

/-- The time of the last row of a full page. -/
def nextCursor {α : Type} (rows : List α) (limit : Int) (ts : α → Int) : Option Int :=
  if (rows.length : Int) < limit then none else rows.getLast?.map ts

section

variable (ch : TelemetryStore) (tenant : String)

def queryLogs (q : LogQuery) : List TelemetryQuery × Except ReadError (List LogRecord × Option Int) :=
  let limit := clampLimit q.limit
  let asked : TelemetryQuery := ⟨ch, .select (.logs limit)
    ([.equals "TenantId" tenant, .atLeast "Timestamp" q.start, .below "Timestamp" q.stop] ++
      (if q.text ≠ "" then [.contains "Body" q.text] else []) ++
      (if q.service ≠ "" then [.equals "ServiceName" q.service] else []) ++
      (if q.minSeverity > 0 then [.atLeast "SeverityNumber" q.minSeverity] else []) ++
      q.before.toList.map (.below "Timestamp"))⟩
  let rows : Except ReadFailure (List LogRecord) := answers asked
  ([asked], (rows.mapError telemetryUnavailable).map fun rows => (rows, nextCursor rows limit LogRecord.timestamp))

/-- `float64(ns) / 1e6`. -/
def durationMs (ns : Nat) : ℚ := nearestFloat64 (nearestFloat64 ns / 1000000)

def withCounts (errorsOnly : Bool) (counts : List (String × Int × Int)) (summaries : List TraceSummary) : List TraceSummary :=
  (summaries.map fun summary =>
    -- a trace that is counted twice keeps its last counts, as in the map
    match counts.reverse.lookup summary.traceID with
    | some (spans, errors) => { summary with spanCount := spans, errorCount := errors }
    | none => summary).filter fun summary => !(errorsOnly && summary.errorCount == 0)

/-- The counts per trace are a second query, made when there are traces. -/
def queryTraces (q : TraceQuery) : List TelemetryQuery × Except ReadError (List TraceSummary × Option Int) :=
  let limit := clampLimit q.limit
  let page (summaries : List TraceSummary) := (summaries, nextCursor summaries limit TraceSummary.startTime)
  let asked : TelemetryQuery := ⟨ch, .select (.rootSpans limit)
    ([.equals "TenantId" tenant, .empty "ParentSpanId", .atLeast "Timestamp" q.start, .below "Timestamp" q.stop] ++
      (if q.service ≠ "" then [.equals "ServiceName" q.service] else []) ++
      (if q.name ≠ "" then [.contains "SpanName" q.name] else []) ++
      (if q.minDurationMs > 0 then [.atLeast "Duration" ⌊nearestFloat64 (q.minDurationMs * 1000000)⌋] else []) ++
      q.before.toList.map (.below "Timestamp"))⟩
  let rows : Except ReadFailure (List RootSpan) := answers asked
  match rows with
  | .error err => ([asked], .error (telemetryUnavailable err))
  | .ok [] => ([asked], .ok (page []))
  | .ok roots =>
    let counted : TelemetryQuery := ⟨ch, .select .spanCounts
      [.equals "TenantId" tenant, .oneOf "TraceId" (roots.map RootSpan.traceID)]⟩
    let counts : Except ReadFailure (List (String × Int × Int)) := answers counted
    ([asked, counted], (counts.mapError traceUnavailable).map fun counts => page (withCounts q.errorsOnly counts
      (roots.map fun root => ⟨root.traceID, root.name, root.service, root.timestamp, durationMs root.duration, 0, 0⟩)))

def getTrace (traceID : String) : List TelemetryQuery × Except ReadError (List (Span ℚ)) :=
  let asked : TelemetryQuery := ⟨ch, .select .spans [.equals "TenantId" tenant, .equals "TraceId" traceID]⟩
  let rows : Except ReadFailure (List (Span Nat)) := answers asked
  ([asked], (rows.mapError traceUnavailable).map fun spans =>
    spans.map fun span => { span with duration := durationMs span.duration })

def getThroughput (signal : Option String) (start stop step : Int) : List TelemetryQuery × Except ReadError (List Series) :=
  let stepSecs := if step.tdiv 1000000000 < 1 then 60 else step.tdiv 1000000000
  let signals := signal.elim ["logs", "traces", "metrics"] fun signal => [signal]
  let asked : TelemetryQuery := ⟨ch, .select (.throughput stepSecs)
    ([.equals "TenantId" tenant, .atLeast "Minute" start, .below "Minute" stop] ++ signal.toList.map (.equals "Signal"))⟩
  let rows : Except ReadFailure (List (String × Int × Nat)) := answers asked
  ([asked], (rows.mapError statsUnavailable).map fun rows => signals.map fun signal =>
    ⟨signal, (rows.filter fun row => row.1 = signal).map fun row => (row.2.1, nearestFloat64 (nearestFloat64 row.2.2 / stepSecs))⟩)

def toPoints (samples : List (Option Int × Option V)) : List (Int × V) :=
  samples.filterMap fun sample => sample.1.bind fun time => sample.2.map (time, ·)

def readRange : RangeReply V → Except ReadError (List (MetricSeries V))
  | .unreachable => .error (.unavailable "upstream unavailable")
  | .undecodable code msg =>
    if code ≠ 200 then .error (.unavailable "upstream unavailable") else .error (.other ("metrics query: decode: " ++ msg))
  | .body code status error res =>
    if code = 400 ∨ code = 422 ∨ status = "error" then .error (.badRequest ("invalid PromQL query: " ++ error))
    else if code ≠ 200 then .error (.unavailable "upstream unavailable")
    else .ok (res.map fun series => ⟨series.1, toPoints series.2⟩)

/-- `queryRange`, which needs an URL. -/
def queryRange (url query : String) (start stop step : Int) (extraFilters : List String) :
    List TelemetryQuery × Except ReadError (List (MetricSeries V)) :=
  if url = "" then ([], .error (.unavailable "upstream unavailable"))
  else
    let asked : TelemetryQuery :=
      ⟨.victoriaMetrics url, .queryRange query (start / 1000000000) (stop / 1000000000) step extraFilters⟩
    ([asked], readRange (answers asked))

/-- The filter that `QueryCustomerMetricsRange` passes for the customer. -/
def queryRangeScoped [PrintTable] (region query : String) (start stop step : Int) :
    List TelemetryQuery × Except ReadError (List (MetricSeries V)) :=
  queryRange answers (reg.vm region) query start stop step ["\x7btenant_id=" ++ quote tenant ++ "\x7d"]

/-- Submits a mutation for each table: all of them, and how many were accepted and failed. -/
def execAll (statements : List (String × List Condition)) : List TelemetryQuery × Nat × Nat :=
  let done := statements.map fun (table, conditions) =>
    let asked : TelemetryQuery := ⟨ch, .delete table (.equals "TenantId" tenant :: conditions)⟩
    let failed : Option String := answers asked
    (asked, failed)
  (done.map Prod.fst, done.countP fun one => one.2.isNone, done.countP fun one => one.2.isSome)

/-- The purge of a deleted customer, which covers the usage rollup, too. -/
def purgeCustomer : List TelemetryQuery × Nat × Nat :=
  execAll answers ch tenant ((telemetryTables.map Prod.fst ++ ["ingest_counts_1m"]).map fun table => (table, []))

/-- The part of the retention sweep for one active customer. -/
def applyCustomer (days : Int) : List TelemetryQuery × Nat × Nat :=
  execAll answers ch tenant (telemetryTables.map fun table => (table.1, [.olderThan table.2 days]))

end

/-! ## Stage statistics -/

/-- `vmSumBy`: an instant query; without an URL there is no request. -/
def vmSumBy (query : String) (time : Int) : List TelemetryQuery × Option (List (String × V)) :=
  if reg.vm "" = "" then ([], none)
  else
    let asked : TelemetryQuery := ⟨.victoriaMetrics (reg.vm ""), .query query (time / 1000000000)⟩
    ([asked], answers asked)

def stageCounters [PrintTable] (round : V → Int) (exporterRegex : String) (seconds : Int) :
    List (String × (ExporterStage V → V → ExporterStage V)) :=
  let increase (metric : String) := "sum by (exporter) (increase(\x7b__name__=~\"" ++ metric ++
    "_(spans|metric_points|log_records)\",exporter=~" ++ quote exporterRegex ++ "\x7d[" ++ toString seconds ++ "s]))"
  let current (metric : String) := "max by (exporter) (" ++ metric ++ "\x7bexporter=~" ++ quote exporterRegex ++ "\x7d)"
  [(increase "otelcol_exporter_sent", fun stage value => { stage with sent := round value }),
    (increase "otelcol_exporter_send_failed", fun stage value => { stage with sendFailed := round value }),
    (increase "otelcol_exporter_enqueue_failed", fun stage value => { stage with enqueueFailed := round value }),
    (current "otelcol_exporter_queue_size", fun stage value => { stage with queueSize := value }),
    (current "otelcol_exporter_queue_capacity", fun stage value => { stage with queueCapacity := value })]

/-- One counter: its values are entered under the names of the exporters; a failed
    query leaves zeros. -/
def enterValues [Zero V] (set : ExporterStage V → V → ExporterStage V) (values : Option (List (String × V)))
    (exporters : List (String × ExporterStage V)) : List (String × ExporterStage V) :=
  (values.getD []).foldl (fun exporters (name, value) =>
    let stage := (exporters.lookup name).getD ⟨0, 0, 0, 0, 0⟩
    (name, set stage value) :: exporters.filter fun entry => entry.1 ≠ name) exporters

def exporterStages [Zero V] (time : Int) (exporters : List (String × ExporterStage V)) :
    List (String × (ExporterStage V → V → ExporterStage V)) → List TelemetryQuery × List (String × ExporterStage V)
  | [] => ([], exporters)
  | (query, set) :: counters =>
    let (asked, values) := vmSumBy reg answers query time
    let (later, exporters) := exporterStages time (enterValues set values exporters) counters
    (asked ++ later, exporters)

def receivedCounts (query : PipelineStageQuery) : List TelemetryQuery × Except ReadError (List (String × Int64)) :=
  if query.signals = [] then ([], .ok [])
  else
    let asked : TelemetryQuery := ⟨reg.clickHouseStore "", .select .received [.equals "TenantId" query.clientID,
      .atLeast "Minute" query.start, .below "Minute" query.stop, .oneOf "Signal" query.signals]⟩
    let rows : Except ReadFailure (List (String × Nat)) := answers asked
    ([asked], (rows.mapError statsUnavailable).map fun rows => rows.map fun row => (row.1, toInt64 row.2))

def getPipelineStages [PrintTable] [Zero V] (round : V → Int) (query : PipelineStageQuery) :
    List TelemetryQuery × Except ReadError (PipelineFlow V) :=
  match receivedCounts reg answers query with
  | (asked, .error err) => (asked, .error err)
  | (asked, .ok received) =>
    let seconds := (query.stop - query.start).tdiv 1000000000
    if seconds ≤ 0 then (asked, .ok { received })
    else
      let (later, exporters) := exporterStages reg answers query.stop [] (stageCounters round query.exporterRegex seconds)
      (asked ++ later, .ok { received, exporters })

/-- The handler `GetPipelineStageStats` for a pipeline of the customer; `signals` are
    those of its active or latest version, if it has one. -/
def pipelineStageStats [PrintTable] [Zero V] (round : V → Int) (customer : CustomerRow) (name : String)
    (signals : Option (List String)) (start stop : Int) : List TelemetryQuery × Except ReadError (PipelineFlow V) :=
  if start < stop then
    match signals with
    | none => ([], .ok {})
    | some signals => getPipelineStages reg answers round ⟨customer.clientID, signals,
        Pipelines.exporterLabelRegex customer.slug (Pipelines.pipelineSlug name), start, stop⟩
  else ([], .error (.badRequest "'to' must be after 'from'"))

end

/-! ## Calls -/

inductive TelemetryCall where
  | logs (q : LogQuery)
  | traces (q : TraceQuery)
  | trace (traceID : String)
  | throughput (signal : Option String) (start stop step : Int)
  | metrics (query : String) (start stop step : Int)
  | stages (name : String) (signals : Option (List String)) (start stop : Int)
  | purge
  | retention

inductive TelemetryResult (V : Type) where
  | logs (page : List LogRecord × Option Int)
  | traces (page : List TraceSummary × Option Int)
  | trace (spans : List (Span ℚ))
  | throughput (series : List Series)
  | metrics (series : List (MetricSeries V))
  | stages (flow : PipelineFlow V)
  | mutations (submitted errs : Nat)

variable {V : Type} [PrintTable] [Zero V] (reg : Registry) (round : V → Int) (answers : TelemetryAnswers V)

/-- The queries that a call sends on behalf of the customer, and what it returns. -/
def respond (customer : CustomerRow) (call : TelemetryCall) : List TelemetryQuery × Except ReadError (TelemetryResult V) :=
  let ch := reg.clickHouseStore customer.region
  let tenant := customer.clientID
  match call with
  | .logs q => (queryLogs answers ch tenant q).map id (·.map .logs)
  | .traces q => (queryTraces answers ch tenant q).map id (·.map .traces)
  | .trace traceID => (getTrace answers ch tenant traceID).map id (·.map .trace)
  | .throughput signal start stop step => (getThroughput answers ch tenant signal start stop step).map id (·.map .throughput)
  | .metrics query start stop step =>
    (queryRangeScoped reg answers tenant customer.region query start stop step).map id (·.map .metrics)
  | .stages name signals start stop =>
    (pipelineStageStats reg answers round customer name signals start stop).map id (·.map .stages)
  | .purge => (purgeCustomer answers ch tenant).map id fun counts => .ok (.mutations counts.1 counts.2)
  | .retention =>
    match customer.status, customer.retentionDays with
    | .active, some days => (applyCustomer answers ch tenant days).map id fun counts => .ok (.mutations counts.1 counts.2)
    | _, _ => ([], .ok (.mutations 0 0))

def issued (customer : CustomerRow) (call : TelemetryCall) : List TelemetryQuery := (respond reg round answers customer call).1

/-- A call for the customer with this id, which `GetCustomer` looks up, as in `Service.tenant`. -/
def callFor (db : Roster) (customerID : Uuid) (call : TelemetryCall) :
    List TelemetryQuery × Except ReadError (TelemetryResult V) :=
  match db.liveCustomer customerID with
  | none => ([], .error .notFound)
  | some customer => respond reg round answers customer call

end OtelFleet.Stats
