import OtelFleet.Data.KeyedList

/-! # The tenantstamp processor

Stamps the authenticated tenant identity onto every resource of a batch, after
removing the values a client may have sent.  A batch without authentication data
is dropped, which is counted and, at most once per interval, logged.
-/

namespace OtelFleet.Collector.TenantStamp

open Data

def attrTenantID : String := "tenant.id"
def attrClientID : String := "client.id"
def attrCustomerID : String := "customer.id"

def dropWarnInterval : Int := 10000000000

inductive AttrValue where
  | empty
  | str (value : String)
  | bool (value : Bool)
  | int (value : Int)
  | double (bits : UInt64)
  | bytes (value : List UInt8)
  | slice (items : List AttrValue)
  | map (entries : List (String × AttrValue))

abbrev Attributes := List (String × AttrValue)

/-- `pcommon.Map`, of which only the promises of `Remove` are known. -/
abbrev PcommonMap := EntryList String AttrValue

def putStr (key value : String) (attrs : Attributes) : Attributes := putFirst key (.str value) attrs

structure Identity where
  tenantID : String
  clientID : String
  customerID : String
deriving DecidableEq

/-- The drop counter by signal, the time of the last drop warning and the
    warnings logged so far. -/
structure Stamper where
  droppedTotal : String → Nat := fun _ => 0
  lastWarnNanos : Int := 0
  warnings : List (String × String) := []

/-- The authentication data on the context: the attributes that are strings. -/
abbrev AuthData := String → Option String

def attrString (auth : AuthData) (name : String) : String := (auth name).getD ""

def identityOf (auth : AuthData) : Identity :=
  ⟨attrString auth attrTenantID, attrString auth attrClientID, attrString auth attrCustomerID⟩

namespace Stamper

def drop (s : Stamper) (now : Int) (signal reason : String) : Stamper :=
  let counted := { s with
    droppedTotal := fun name => if name = signal then s.droppedTotal name + 1 else s.droppedTotal name }
  if dropWarnInterval ≤ now - s.lastWarnNanos then
    { counted with lastWarnNanos := now, warnings := s.warnings ++ [(signal, reason)] }
  else counted

def identityFromContext (s : Stamper) (now : Int) (auth : Option AuthData) (signal : String) :
    Stamper × Option Identity :=
  match auth with
  | none => (s.drop now signal "no auth data on context", none)
  | some auth =>
    if (identityOf auth).tenantID = "" then (s.drop now signal "auth data has no tenant.id", none)
    else (s, some (identityOf auth))

end Stamper

def stamp (lib : PcommonMap) (attrs : Attributes) (id : Identity) : Attributes :=
  let attrs := lib.remove attrTenantID attrs
  let attrs := lib.remove attrClientID attrs
  let attrs := lib.remove attrCustomerID attrs
  let attrs := putStr attrTenantID id.tenantID attrs
  let attrs := if id.clientID ≠ "" then putStr attrClientID id.clientID attrs else attrs
  if id.customerID ≠ "" then putStr attrCustomerID id.customerID attrs else attrs

structure ResourceData (τ : Type*) where
  attributes : Attributes
  telemetry : τ

/-- The loop shared by the three signals; `none` is `ErrSkipProcessingData`. -/
def process {τ : Type*} (signal : String) (lib : PcommonMap) (s : Stamper) (now : Int)
    (auth : Option AuthData) (batch : List (ResourceData τ)) :
    Stamper × Option (List (ResourceData τ)) :=
  match s.identityFromContext now auth signal with
  | (s, none) => (s, none)
  | (s, some id) =>
    (s, some (batch.map fun resource => { resource with attributes := stamp lib resource.attributes id }))

variable {Spans LogRecords DataPoints : Type*}

def processTraces : PcommonMap → Stamper → Int → Option AuthData → List (ResourceData Spans) →
    Stamper × Option (List (ResourceData Spans)) := process "traces"

def processLogs : PcommonMap → Stamper → Int → Option AuthData → List (ResourceData LogRecords) →
    Stamper × Option (List (ResourceData LogRecords)) := process "logs"

def processMetrics : PcommonMap → Stamper → Int → Option AuthData → List (ResourceData DataPoints) →
    Stamper × Option (List (ResourceData DataPoints)) := process "metrics"

end OtelFleet.Collector.TenantStamp
