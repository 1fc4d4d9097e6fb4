import OtelFleet.Api.Scope

/-! # Inviting users -/

namespace OtelFleet.Api

open Data Store Semantics

structure InviteUserRequest where
  email : String
  role : String
  customerIds : Option (List Uuid)

structure UserAccount where
  id : Uuid
  email : String
  displayName : Option String
  role : String
  disabled : Bool
  invited : Bool
  identities : List String
  customerIds : List Uuid
  lastLoginAt : Option Int
  createdAt : Int

def toUserAccount (user : User) (identities : List String) (customerIDs : List Uuid) : UserAccount where
  id := user.id
  email := user.email
  displayName := user.displayName
  role := user.role
  disabled := user.disabledAt.isSome
  invited := identities = []
  identities := identities
  customerIds := customerIDs
  lastLoginAt := user.lastLoginAt
  createdAt := user.createdAt

def setUserGrants (faults : Faults StoreError) (actor : Option Uuid) (userID : Uuid)
    (customerIDs : List Uuid) (db : UserTables) : Except ApiError Unit × UserTables :=
  let entry : AuditEntry :=
    { actorUserID := actor, action := "user.grants", entityType := "user", entityID := userID.toText,
      payload := .obj [("customerCount", .num (.int customerIDs.length))] }
  match setUserCustomerGrants faults userID customerIDs entry db with
  | (.ok (), db) => (.ok (), db)
  | (.error .notFound, db) => (.error (.badRequest "unknown user or customer in customerIds"), db)
  | (.error _, db) => (.error .internal, db)

def invitedUser (id : Uuid) (email role : String) (now : Int) : User :=
  { id := id, email := email, role := role, createdAt := now }

def inviteEntry (actor : Option Uuid) (id : Uuid) (email role : String) : AuditEntry :=
  { actorUserID := actor, action := "user.invite", entityType := "user", entityID := id.toText,
    payload := .obj [("email", .str email), ("role", .str role)] }

/-- The second half of `InviteUser`: grants, which only apply to non-admins. -/
def grantInvited (faults : Faults StoreError) (actor : Option Uuid) (user : User)
    (customerIDs : List Uuid) (db : UserTables) : Except ApiError UserAccount × UserTables :=
  if user.role ≠ roleAdmin ∧ customerIDs ≠ [] then
    match setUserGrants faults actor user.id customerIDs db with
    | (.error err, db) => (.error err, db)
    | (.ok (), db) => (.ok (toUserAccount user [] customerIDs), db)
  else (.ok (toUserAccount user [] []), db)

/-- `InviteUser`.  `normalize` is `strings.ToLower ∘ strings.TrimSpace`, `id` the
    fresh UUID, `now` the database clock, and the two fault patterns are those of
    the two transactions. -/
def inviteUser [PrintTable] (normalize : String → String) (actor : Option Uuid) (id : Uuid) (now : Int)
    (createFaults grantFaults : Faults StoreError) (req : InviteUserRequest) (db : UserTables) :
    Except ApiError UserAccount × UserTables :=
  let email := normalize req.email
  if email = "" ∨ '@' ∉ email.toList then (.error (.badRequest "invalid email"), db)
  else if ¬ known req.role then
    (.error (.badRequest ("unknown role " ++ quote req.role)), db)
  else
    let user := invitedUser id email req.role now
    match createInvitedUser createFaults user (inviteEntry actor id email req.role) db with
    | (.error .emailExists, db) => (.error (.conflict "a user with this email already exists"), db)
    | (.error _, db) => (.error .internal, db)
    | (.ok (), db) => grantInvited grantFaults actor user (req.customerIds.getD []) db

end OtelFleet.Api
