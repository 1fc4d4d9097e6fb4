import OtelFleet.Data.Json
import OtelFleet.Data.Decimal

/-! # The component catalog

The curated processors and exporters with the JSON Schemas of their configs.
The schemas gate structural validation, and `"format": "password"` in them says
which fields are secrets.
-/

namespace OtelFleet.Pipelines

open Data

/-- The schema keywords the catalog uses.  `additionalProperties` is a boolean or
    a schema of its own, which is then in `additionalSchema`. -/
structure Schema where
  type : Option String := none
  format : Option String := none
  properties : List (String × Schema) := []
  additionalProperties : Bool := true
  additionalSchema : Option Schema := none
  items : Option Schema := none
  required : List String := []
  enum : List String := []
  minimum : Option Int := none
  maximum : Option Int := none
  minLength : Option Nat := none
  minItems : Option Nat := none
  pattern : Option String := none

inductive Kind where
  | processor
  | exporter
deriving DecidableEq

def Kind.text : Kind → String
  | .processor => "processor"
  | .exporter => "exporter"

structure Component where
  type : String
  kind : Kind
  schema : Schema

namespace Schema

def string : Schema := { type := some "string" }
def boolean : Schema := { type := some "boolean" }
def nonempty : Schema := { type := some "string", minLength := some 1 }
def password : Schema := { type := some "string", format := some "password" }
def integer (minimum : Int) (maximum : Option Int := none) : Schema :=
  { type := some "integer", minimum := some minimum, maximum := maximum }
def oneOf (values : List String) : Schema := { type := some "string", enum := values }
def stringList : Schema := { type := some "array", items := some string }

def closed (required : List String) (properties : List (String × Schema)) : Schema :=
  { type := some "object", additionalProperties := false, required, properties }

def openObject (required : List String) (properties : List (String × Schema)) : Schema :=
  { type := some "object", required, properties }

def mapOf (values : Schema) : Schema := { type := some "object", additionalSchema := some values }

end Schema

open Schema

def durationSchema : Schema := { type := some "string", pattern := some "^[0-9]+(ns|us|ms|s|m|h)$" }
def headersSchema : Schema := mapOf password
def sendingQueueSchema : Schema := closed [] [("enabled", boolean), ("queue_size", integer 1)]
def retryOnFailureSchema : Schema := closed [] [("enabled", boolean)]
def tlsSchema : Schema := closed [] [("insecure", boolean), ("insecure_skip_verify", boolean)]
def compressionSchema : Schema := oneOf ["gzip", "zstd", "snappy", "none"]
def errorModeSchema : Schema := oneOf ["ignore", "silent", "propagate"]

def actionSchema (properties : List (String × Schema)) : Schema :=
  { type := some "array"
    items := some (closed ["key", "action"] ([("key", nonempty),
      ("action", oneOf ["insert", "update", "upsert", "delete", "hash", "extract", "convert"]),
      ("value", {}), ("from_attribute", string), ("pattern", string)] ++ properties)) }

namespace Catalog

def processors : List Component := [
  ⟨"batch", .processor, closed [] [("timeout", durationSchema), ("send_batch_size", integer 0),
    ("send_batch_max_size", integer 0)]⟩,
  ⟨"memory_limiter", .processor, closed ["check_interval"] [("check_interval", durationSchema),
    ("limit_percentage", integer 1 (some 100)), ("spike_limit_percentage", integer 0 (some 100)),
    ("limit_mib", integer 0), ("spike_limit_mib", integer 0)]⟩,
  ⟨"filter", .processor, closed [] [("error_mode", errorModeSchema),
    ("logs", closed [] [("log_record", stringList)]),
    ("traces", closed [] [("span", stringList), ("spanevent", stringList)]),
    ("metrics", closed [] [("metric", stringList), ("datapoint", stringList)])]⟩,
  ⟨"transform", .processor, closed [] [("error_mode", errorModeSchema), ("log_statements", stringList),
    ("trace_statements", stringList), ("metric_statements", stringList)]⟩,
  ⟨"attributes", .processor, closed ["actions"]
    [("actions", actionSchema [("converted_type", oneOf ["int", "double", "string"])])]⟩,
  ⟨"resource", .processor, closed ["attributes"] [("attributes", actionSchema [])]⟩]

def otlpSchema : Schema := closed ["endpoint"] [("endpoint", nonempty), ("tls", tlsSchema),
  ("compression", compressionSchema), ("timeout", durationSchema), ("headers", headersSchema),
  ("sending_queue", sendingQueueSchema), ("retry_on_failure", retryOnFailureSchema)]

def exporters : List Component := [
  ⟨"otlp", .exporter, otlpSchema⟩,
  ⟨"otlphttp", .exporter, otlpSchema⟩,
  ⟨"debug", .exporter, closed [] [("verbosity", oneOf ["basic", "normal", "detailed"]),
    ("sampling_initial", integer 0), ("sampling_thereafter", integer 0)]⟩,
  ⟨"clickhouse", .exporter, closed ["endpoint"] [("endpoint", nonempty), ("database", string),
    ("username", string), ("password", password), ("logs_table_name", string),
    ("traces_table_name", string), ("metrics_table_name", string), ("ttl", durationSchema),
    ("timeout", durationSchema), ("sending_queue", sendingQueueSchema),
    ("retry_on_failure", retryOnFailureSchema)]⟩,
  ⟨"prometheusremotewrite", .exporter, closed ["endpoint"] [("endpoint", nonempty), ("tls", tlsSchema),
    ("timeout", durationSchema), ("headers", headersSchema), ("external_labels", mapOf string),
    ("remote_write_queue", closed [] [("enabled", boolean), ("queue_size", integer 1),
      ("num_consumers", integer 1)]),
    ("resource_to_telemetry_conversion", closed [] [("enabled", boolean)])]⟩,
  ⟨"file", .exporter, closed ["path"] [("path", nonempty), ("format", oneOf ["json", "proto"]),
    ("flush_interval", durationSchema), ("rotation", closed [] [("max_megabytes", integer 1),
      ("max_days", integer 1), ("max_backups", integer 0)])]⟩,
  ⟨"elasticsearch", .exporter, openObject ["endpoints"]
    [("endpoints", { type := some "array", items := some nonempty, minItems := some 1 }),
      ("api_key", password), ("user", string), ("password", password), ("logs_index", string),
      ("traces_index", string), ("tls", tlsSchema), ("retry_on_failure", retryOnFailureSchema)]⟩,
  ⟨"datadog", .exporter, openObject ["api"]
    [("api", openObject ["key"] [("key", password), ("site", string)])]⟩,
  ⟨"kafka", .exporter, openObject ["brokers"]
    [("brokers", { type := some "array", items := some nonempty, minItems := some 1 }),
      ("topic", string), ("encoding", string), ("tls", tlsSchema),
      ("retry_on_failure", retryOnFailureSchema)]⟩,
  ⟨"awss3", .exporter, openObject ["s3uploader"] [("s3uploader", openObject ["s3_bucket", "region"]
    [("s3_bucket", string), ("region", nonempty), ("s3_prefix", string)])]⟩,
  ⟨"splunk_hec", .exporter, openObject ["token", "endpoint"] [("token", password),
    ("endpoint", nonempty), ("source", string), ("index", string), ("tls", tlsSchema),
    ("retry_on_failure", retryOnFailureSchema)]⟩]

def all : List Component := processors ++ exporters

def lookup (kind : Kind) (type : String) : Option Component :=
  all.find? fun component => component.kind = kind && component.type = type

theorem lookup_type {kind : Kind} {type : String} {component : Component}
    (found : lookup kind type = some component) : component ∈ all ∧ component.type = type := by
  have matched := List.find?_some found
  simp only [Bool.and_eq_true, decide_eq_true_eq] at matched
  exact ⟨List.mem_of_find?_eq_some found, matched.2⟩

theorem slash_notMem_type : ∀ component ∈ all, '/' ∉ component.type.toList := by decide

theorem type_ne_nil : ∀ component ∈ all, component.type.toList ≠ [] := by decide

end Catalog

def normalizeNumber : Number → Json
  | .literal text =>
    match parseInt64 text with
    | some value => .num (.int value)
    | none =>
      match parseFloat64 text with
      | some value => .num (if isNegZero text value then .negZero else .float64 value)
      | none => .str text
  | value => .num value

/-- `normalize`: a `json.Number` becomes the integer or float it denotes, or text. -/
def normalize : Json → Json := Json.mapNumbers normalizeNumber

end OtelFleet.Pipelines
