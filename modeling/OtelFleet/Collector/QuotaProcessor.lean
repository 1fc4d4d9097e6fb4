import OtelFleet.Collector.TenantQuota
import OtelFleet.Data.Quote

/-! # The tenantquota processor

The batches of the three signals draw on one registry.  The counters are left out. -/

namespace OtelFleet.Collector.TenantQuota

open Data

/-- What the attribute of the limit holds.  `int64`, `int`, `int32` and `uint32` are converted
    without loss. -/
inductive LimitAttribute where
  | integer (value : Int)
  | uint64 (value : Nat)
  | text (value : String)
  | other

/-- `client.AuthData`; a tenant that is not a string is empty. -/
structure AuthData where
  tenant : String
  limit : LimitAttribute

inductive Payload where
  | logs (logRecords : Nat)
  | traces (spans : Nat)
  | metrics (dataPoints : Nat)

def Payload.signal : Payload → String
  | .logs _ => "logs"
  | .traces _ => "traces"
  | .metrics _ => "metrics"

def Payload.count : Payload → Nat
  | .logs n | .traces n | .metrics n => n

structure Batch where
  auth : Option AuthData
  payload : Payload
  now : Int

/-- A status `RESOURCE_EXHAUSTED`, with the delay of its `RetryInfo`. -/
structure Rejection where
  message : String
  retryDelay : Int

-- `fmt.Sscanf` of one decimal number
variable (scan : String → Option Int)

def limitFromAuth (auth : AuthData) : Int :=
  match auth.limit with
  | .integer value => value
  | .uint64 value => if 2 ^ 62 < value then 2 ^ 62 else value
  | .text value => (scan value).getD 0
  | .other => 0

def Batch.call (batch : Batch) : Option Call :=
  batch.auth.bind fun auth =>
    let limit := limitFromAuth scan auth
    if auth.tenant = "" ∨ limit ≤ 0 ∨ batch.payload.count = 0 then none
    else some ⟨auth.tenant, limit, batch.payload.count, batch.now⟩

def rejection [PrintTable] (batch : Batch) (call : Call) (retryAfter : Int) : Rejection :=
  ⟨"tenant " ++ quote call.tenant ++ " exceeded its ingest quota of " ++ toString call.limit ++ " items/sec (batch of " ++
    toString call.n ++ " " ++ batch.payload.signal ++ " items rejected)", retryAfter⟩

/-- `admit`, with the way in which tokens are taken. -/
def admitWith [PrintTable] (take : Registry → Call → (Bool × Int) × Registry) (reg : Registry) (batch : Batch) :
    Option Rejection × Registry :=
  match batch.call scan with
  | none => (none, reg)
  | some call =>
    let taken := take reg call
    (if taken.1.1 then none else some (rejection batch call taken.1.2), taken.2)

def admitBatch [PrintTable] : Registry → Batch → Option Rejection × Registry := admitWith scan Registry.take

end OtelFleet.Collector.TenantQuota
