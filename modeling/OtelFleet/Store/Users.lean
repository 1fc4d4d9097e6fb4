import OtelFleet.Semantics.Transaction
import OtelFleet.Store.Base

/-! # Users and their customer grants

The tables `users` and `user_customer_grants` with their foreign keys, and the
transactions that invite a user and replace a user's grants.
-/

namespace OtelFleet.Store

open Data Semantics

structure User where
  id : Uuid
  email : String
  displayName : Option String := none
  role : String
  externalID : Option String := none
  disabledAt : Option Int := none
  lastLoginAt : Option Int := none
  createdAt : Int
  scimManaged : Bool := false
deriving DecidableEq

structure Grant where
  userID : Uuid
  customerID : Uuid
deriving DecidableEq

/-- The tables, with the two foreign keys of `user_customer_grants`. -/
structure UserTables where
  users : List User
  customers : List Uuid
  grants : List Grant
  auditLog : List AuditEntry
  grants_user : ∀ grant ∈ grants, ∃ user ∈ users, user.id = grant.userID
  grants_customer : ∀ grant ∈ grants, grant.customerID ∈ customers

namespace UserTables

variable (db : UserTables)

def getUser (id : Uuid) : Except StoreError User :=
  match db.users.find? fun user => user.id = id with
  | some user => .ok user
  | none => .error .notFound

def listUserCustomerIDs (userID : Uuid) : List Uuid :=
  (db.grants.filter fun grant => grant.userID = userID).map Grant.customerID

/-- `INSERT INTO users`, refused by the primary key or by the key on `email`. -/
def insertUser (user : User) : Except StoreError UserTables :=
  if ∃ other ∈ db.users, other.id = user.id then
    .error (.other "insert invited user: duplicate key value violates unique constraint \"users_pkey\"")
  else if ∃ other ∈ db.users, other.email = user.email then .error .emailExists
  else
    .ok { db with
      users := db.users ++ [user]
      grants_user := fun grant mem => by
        obtain ⟨owner, found, same⟩ := db.grants_user grant mem
        exact ⟨owner, List.mem_append_left _ found, same⟩ }

def checkUser (userID : Uuid) : Except StoreError UserTables :=
  if ∃ user ∈ db.users, user.id = userID then .ok db else .error .notFound

def clearGrants (userID : Uuid) : UserTables :=
  { db with
    grants := db.grants.filter fun grant => grant.userID ≠ userID
    grants_user := fun grant mem => db.grants_user grant (List.mem_of_mem_filter mem)
    grants_customer := fun grant mem => db.grants_customer grant (List.mem_of_mem_filter mem) }

/-- `INSERT INTO user_customer_grants … ON CONFLICT DO NOTHING`. -/
def insertGrant (grant : Grant) : Except StoreError UserTables :=
  if present : grant ∈ db.grants then .ok db
  else if user : ∃ user ∈ db.users, user.id = grant.userID then
    if customer : grant.customerID ∈ db.customers then
      .ok { db with
        grants := db.grants ++ [grant]
        grants_user := fun other mem => by
          rcases List.mem_append.mp mem with old | new
          · exact db.grants_user other old
          · rwa [List.mem_singleton.mp new]
        grants_customer := fun other mem => by
          rcases List.mem_append.mp mem with old | new
          · exact db.grants_customer other old
          · rwa [List.mem_singleton.mp new] }
    -- a violation of user_customer_grants_customer_id_fkey
    else .error .notFound
  else .error (.other "insert grant: violates user_customer_grants_user_id_fkey")

def writeAudit (entries : List AuditEntry) : UserTables :=
  { db with auditLog := db.auditLog ++ entries }

end UserTables

open UserTables

def createInvitedUser (faults : Faults StoreError) (user : User) (entry : AuditEntry) (db : UserTables) :
    Except StoreError Unit × UserTables :=
  inTx faults [fun db => db.insertUser user, fun db => .ok (db.writeAudit [entry])] db

def grantInserts (userID : Uuid) (customerIDs : List Uuid) : List (Statement UserTables StoreError) :=
  customerIDs.map fun customerID db => db.insertGrant ⟨userID, customerID⟩

def grantStatements (userID : Uuid) (customerIDs : List Uuid) (entry : AuditEntry) :
    List (Statement UserTables StoreError) :=
  [fun db => db.checkUser userID, fun db => .ok (db.clearGrants userID)] ++
    grantInserts userID customerIDs ++ [fun db => .ok (db.writeAudit [entry])]

def setUserCustomerGrants (faults : Faults StoreError) (userID : Uuid) (customerIDs : List Uuid)
    (entry : AuditEntry) (db : UserTables) : Except StoreError Unit × UserTables :=
  inTx faults (grantStatements userID customerIDs entry) db

end OtelFleet.Store
