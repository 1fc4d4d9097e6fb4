import OtelFleet.Auth.Login

/-! # Provisioning users by SCIM -/

namespace OtelFleet.Scim

open Api Auth Data Semantics Store

structure Email where
  value : String
  primary : Bool

structure UserPayload where
  userName : String
  externalId : String
  displayName : String
  nameFormatted : Option String
  emails : List Email

namespace UserPayload

/-- The user name, else the primary or the first email. -/
def primaryEmail (text : CaseMap) (payload : UserPayload) : String :=
  let name := text.trimSpace payload.userName
  if name ≠ "" then name
  else
    match payload.emails.find? fun email => email.primary ∧ email.value ≠ "" with
    | some email => email.value
    | none => (payload.emails.head?.map Email.value).getD ""

def display (payload : UserPayload) : String :=
  if payload.displayName ≠ "" then payload.displayName else payload.nameFormatted.getD ""

end UserPayload

/-- `New` falls back to viewer where the configured role is not known. -/
def defaultRole (configured : String) : String := if known configured then configured else roleViewer

def provisionedUser (text : CaseMap) (role : String) (id : Uuid) (now : Int) (payload : UserPayload) : User :=
  { id := id, email := text.normalize (payload.primaryEmail text), displayName := nonempty payload.display
    role := role, externalID := nonempty payload.externalId, createdAt := now }

def createEntry (user : User) : AuditEntry :=
  { actorUserID := none, action := "scim.user.create", entityType := "user", entityID := ""
    payload := .obj [("email", .str user.email), ("role", .str user.role), ("via", .str "scim")] }

def createUser (text : CaseMap) (configured : String) (id : Uuid) (now : Int) (faults : Faults StoreError)
    (payload : UserPayload) (db : AccountTables) : Except Refusal User × AccountTables :=
  let user := provisionedUser text (defaultRole configured) id now payload
  if user.email = "" ∨ '@' ∉ user.email.toList then (.error ⟨400, "userName (email) is required"⟩, db)
  else
    match createSCIMUser faults user [createEntry user] db with
    | (.error .emailExists, db) => (.error ⟨409, "a user with this userName or externalId already exists"⟩, db)
    | (.error .conflict, db) => (.error ⟨409, "a user with this userName or externalId already exists"⟩, db)
    | (.error _, db) => (.error ⟨500, "internal error"⟩, db)
    | (.ok created, db) => (.ok created, db)

end OtelFleet.Scim
