import OtelFleet.Data.Rows
import OtelFleet.Semantics.Session
import OtelFleet.Store.Fleet
import OtelFleet.Store.Locks

/-! # Customers and their API keys, with concurrent transactions

The tables `customers` and `api_keys`, and the transactions that change a customer,
delete it and add a key.  Each is a session of statements at READ COMMITTED; a query
outside a transaction is a statement that holds no lock.
-/

namespace OtelFleet.Store

open Data Semantics Semantics.Session

structure CustomerRow extends Customer where
  region : String
  rateLimitItemsPerSec : Option Int := none
  retentionDays : Option Int := none

structure APIKey where
  id : Uuid
  customerID : Uuid
  name : String
  keyPrefix : String
  keyHash : Bytes
  createdBy : Option Uuid
  expiresAt : Option Int
  revokedAt : Option Int := none

/-- The tables, with the primary key of `customers`, and the purges of telemetry that
    were submitted. -/
structure Roster where
  customers : List CustomerRow
  customers_id : (customers.map fun row => row.id).Nodup := by decide
  keys : List APIKey := []
  purged : List (String × String) := []

namespace Roster

variable (db : Roster)

def customer? (id : Uuid) : Option CustomerRow := db.customers.find? fun customer => customer.id = id

def liveCustomer (id : Uuid) : Option CustomerRow := (db.customer? id).filter fun customer => customer.status ≠ .deleted

def openKeys (customerID : Uuid) : List APIKey :=
  db.keys.filter fun key => key.customerID = customerID ∧ key.revokedAt = none

/-- A row with this id after an update, which changes neither the id nor the client id
    nor the region. -/
def changed (id : Uuid) (change : CustomerRow → CustomerRow) (row : CustomerRow) : CustomerRow :=
  if row.id = id then { change row with id := row.id, clientID := row.clientID, region := row.region } else row

@[simp] theorem changed_id (id : Uuid) (change : CustomerRow → CustomerRow) (row : CustomerRow) :
    (changed id change row).id = row.id := by
  unfold changed
  split <;> rfl

def changeCustomer (id : Uuid) (change : CustomerRow → CustomerRow) : Roster :=
  { db with
    customers := db.customers.map (changed id change)
    customers_id := nodup_map_rows (changed_id id change) db.customers_id }

def revokeKeys (ids : List Uuid) (now : Int) : Roster :=
  { db with keys := db.keys.map fun key => if key.id ∈ ids then { key with revokedAt := some now } else key }

def addKey (key : APIKey) : Roster := { db with keys := db.keys ++ [key] }

def submitPurge (clientID region : String) : Roster := { db with purged := db.purged ++ [(clientID, region)] }

end Roster

inductive RosterRow where
  | customer (id : Uuid)
  | apiKey (id : Uuid)
deriving DecidableEq

/-- What a transaction holds: locks, and notes of what it has read or written. -/
inductive RosterMark where
  | lock (row : RosterRow) (mode : LockMode)
  | customerFound (id : Uuid)
  | keysRevoked (customerID : Uuid)
  | purgeSubmitted (clientID region : String)

def RosterMark.lock? : RosterMark → Option (RosterRow × LockMode)
  | .lock row mode => some (row, mode)
  | _ => none

/-- The conflicts of PostgreSQL; notes do not conflict. -/
def RosterMark.conflicts (mark other : RosterMark) : Prop := LocksConflict mark.lock? other.lock?

instance : DecidableRel RosterMark.conflicts := fun mark other =>
  inferInstanceAs (Decidable (LocksConflict mark.lock? other.lock?))

abbrev RosterSession (α : Type) := Session Roster RosterMark α

/-- `GetCustomer`, with the notes that a caller makes of a customer. -/
def getCustomer (notes : List RosterMark) (id : Uuid) : RosterSession (Except StoreError CustomerRow) :=
  execute (fun seen => if (seen.liveCustomer id).isSome then notes else []) fun seen =>
    (match seen.liveCustomer id with
      | some customer => .ok customer
      | none => .error .notFound, fun db => db)

structure CustomerUpdate where
  name : Option String := none
  status : Option String := none
  /-- Set if the field is present; an inner `none` clears the column. -/
  rateLimitItemsPerSec : Option (Option Int) := none
  retentionDays : Option (Option Int) := none

/-- The values that the check constraint of `status` lets through. -/
def parseStatus (status : String) : Option CustomerStatus :=
  if status = "active" then some .active
  else if status = "suspended" then some .suspended
  else if status = "deleted" then some .deleted
  else none

/-- A row after the update, refused by the check constraint of `status`. -/
def CustomerUpdate.apply (upd : CustomerUpdate) (row : CustomerRow) : Option CustomerRow :=
  let fields (status : CustomerStatus) : CustomerRow :=
    { row with
      name := upd.name.getD row.name
      status := status
      rateLimitItemsPerSec := upd.rateLimitItemsPerSec.getD row.rateLimitItemsPerSec
      retentionDays := upd.retentionDays.getD row.retentionDays }
  match upd.status with
  | none => some (fields row.status)
  | some status => (parseStatus status).map fields

variable (id : Uuid)

/-- A lock on the row of a customer, if it is not deleted. -/
def customerLock (seen : Roster) : List RosterMark :=
  if (seen.liveCustomer id).isSome then [.lock (.customer id) .noKeyUpdate] else []

def updateCustomer (upd : CustomerUpdate) : RosterSession (Except StoreError Unit) :=
  inTx <| execute (customerLock id) fun seen =>
    match seen.liveCustomer id with
    | none => (.error .notFound, fun db => db)
    | some row =>
      match upd.apply row with
      | none =>
        (.error (.other "update customer: new row for relation \"customers\" violates check constraint \"customers_status_check\""),
          fun db => db)
      | some _ => (.ok (), fun db => db.changeCustomer id fun row => (upd.apply row).getD row)

def execMarkDeleted : RosterSession Bool :=
  execute (customerLock id) fun seen =>
    ((seen.liveCustomer id).isSome, fun db =>
      if (seen.liveCustomer id).isSome then db.changeCustomer id fun row => { row with status := .deleted } else db)

/-- The update of the keys in a deletion: of those that it sees. -/
def execRevokeKeys (now : Int) : RosterSession Unit :=
  execute (fun seen => (seen.openKeys id).map (fun key => .lock (.apiKey key.id) .noKeyUpdate) ++ [.keysRevoked id])
    fun seen => ((), fun db => db.revokeKeys ((seen.openKeys id).map APIKey.id) now)

def softDelete (now : Int) : RosterSession (Except StoreError Unit) := do
  if ← execMarkDeleted id then
    execRevokeKeys id now
    return .ok ()
  else return .error .notFound

def softDeleteCustomer (now : Int) : RosterSession (Except StoreError Unit) := inTx (softDelete id now)

/-- `INSERT INTO api_keys`; the foreign key takes a lock on the customer. -/
def insertAPIKey (key : APIKey) : RosterSession (Except StoreError Unit) :=
  execute (fun _ => [.lock (.customer key.customerID) .keyShare, .lock (.apiKey key.id) .forUpdate]) fun seen =>
    if ∃ other ∈ seen.keys, other.id = key.id then
      (.error (.other "insert api key: duplicate key value violates unique constraint \"api_keys_pkey\""), fun db => db)
    else if (seen.customer? key.customerID).isSome then (.ok (), fun db => db.addKey { key with revokedAt := none })
    else (.error (.other "insert api key: violates foreign key constraint \"api_keys_customer_id_fkey\""), fun db => db)

/-- `CreateAPIKey` of the store: the customer is looked up before the transaction. -/
def createAPIKey (key : APIKey) : RosterSession (Except StoreError Unit) := do
  match ← getCustomer [.customerFound key.customerID] key.customerID with
  | .error err => return .error err
  | .ok _ => inTx (insertAPIKey key)

end OtelFleet.Store
