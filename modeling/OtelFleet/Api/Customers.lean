import OtelFleet.Semantics.Turns
import OtelFleet.Store.Customers

/-! # Calls on customers and their keys

The handlers `UpdateCustomer`, `DeleteCustomer` and `CreateApiKey` with the tenants
service below them, as programs that run concurrently.
-/

namespace OtelFleet.Api

open Data Semantics Semantics.Session Store

/-- The texts of Go, and whether a `PurgeFunc` is configured. -/
structure CustomerEnv where
  text : CaseMap
  purgeOnDelete : Bool

inductive CallError where
  | badRequest (msg : String)
  | notFound (msg : String)
  | internal (err : StoreError)

def errInvalidName : String := "name must be 1-200 characters"

def validName (name : String) : Bool := name ≠ "" && name.utf8ByteSize ≤ 200

def storeError (missing : String) : StoreError → CallError
  | .notFound => .notFound missing
  | err => .internal err

def checkQuotas (body : CustomerUpdate) : Option CallError :=
  if body.rateLimitItemsPerSec.any fun value => value.any fun limit => limit < 1 then
    some (.badRequest "rateLimitItemsPerSec must be >= 1 (or null for unlimited)")
  else if body.retentionDays.any fun value => value.any fun days => days < 1 || 30 < days then
    some (.badRequest "retentionDays must be between 1 and 30 (or null for the global TTL)")
  else none

variable (env : CustomerEnv)

def checkName (body : CustomerUpdate) : Except CallError CustomerUpdate :=
  match body.name with
  | none => .ok body
  | some name =>
    let trimmed := env.text.trimSpace name
    if validName trimmed then .ok { body with name := some trimmed } else .error (.badRequest errInvalidName)

/-- The handler and service `UpdateCustomer`; the status is passed on as it is. -/
def handleUpdateCustomer (id : Uuid) (body : CustomerUpdate) : RosterSession (Except CallError Unit) :=
  match checkQuotas body with
  | some err => return .error err
  | none =>
    match checkName env body with
    | .error err => return .error err
    | .ok upd => do
      match ← updateCustomer id upd with
      | .error err => return .error (storeError "customer not found" err)
      | .ok () => return .ok ()

def submitPurge (clientID region : String) : RosterSession (Except CallError Unit) :=
  inTx (execute (fun _ => [.purgeSubmitted clientID region]) fun _ => (.ok (), fun db => db.submitPurge clientID region))

/-- The handler and service `DeleteCustomer`.  The client id and the region are read
    before the deletion. -/
def handleDeleteCustomer (id : Uuid) (now : Int) : RosterSession (Except CallError Unit) := do
  match ← getCustomer [] id with
  | .error err => return .error (storeError "customer not found" err)
  | .ok customer =>
    match ← softDeleteCustomer id now with
    | .error err => return .error (storeError "customer not found" err)
    | .ok () => if env.purgeOnDelete then submitPurge customer.clientID customer.region else return .ok ()

def handleCreateAPIKey (key : APIKey) : RosterSession (Except CallError Unit) :=
  let name := env.text.trimSpace key.name
  if validName name then do
    match ← createAPIKey { key with name := name } with
    | .error err => return .error (storeError "customer not found" err)
    | .ok () => return .ok ()
  else return .error (.badRequest errInvalidName)

inductive CustomerCall where
  | update (id : Uuid) (body : CustomerUpdate)
  | delete (id : Uuid) (now : Int)
  | createKey (key : APIKey)

def CustomerCall.program : CustomerCall → RosterSession (Except CallError Unit)
  | .update id body => handleUpdateCustomer env id body
  | .delete id now => handleDeleteCustomer env id now
  | .createKey key => handleCreateAPIKey env key

abbrev CustomerCalls := Sessions Roster RosterMark CustomerCall (Except CallError Unit)

end OtelFleet.Api
