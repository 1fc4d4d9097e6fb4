import OtelFleet.Store.Users

/-! # Accounts and their login identities

The users with the table `user_identities`, the transaction that resolves a login
to a user, and the one that provisions a user from SCIM.
-/

namespace OtelFleet.Store

open Data Semantics

structure Identity where
  userID : Uuid
  provider : String
  subject : String

/-- The tables, with the foreign key of `user_identities`. -/
structure AccountTables extends UserTables where
  identities : List Identity
  identities_user : ∀ identity ∈ identities, ∃ user ∈ users, user.id = identity.userID

namespace AccountTables

variable (db : AccountTables)

def userByIdentity (provider subject : String) : Option User :=
  (db.identities.find? fun identity => identity.provider = provider ∧ identity.subject = subject).bind
    fun identity => db.users.find? fun user => user.id = identity.userID

def userByEmail (email : String) : Option User := db.users.find? fun user => user.email = email

/-- The tables after a change of the users.  The identities of a user who is gone
    go as well (`ON DELETE CASCADE`). -/
def withUsers (tables : UserTables) : AccountTables where
  toUserTables := tables
  identities := db.identities.filter fun identity => ∃ user ∈ tables.users, user.id = identity.userID
  identities_user identity mem := by simpa using (List.mem_filter.mp mem).2

/-- The insert of a login; its failure has no case of its own. -/
def insertLoginUser (user : User) : Except StoreError AccountTables :=
  match db.insertUser user with
  | .error _ => .error (.other "insert user: duplicate key value violates unique constraint")
  | .ok tables => .ok (db.withUsers tables)

/-- The insert of SCIM, which may also be refused by the key on `external_id`. -/
def insertSCIMUser (user : User) : Except StoreError AccountTables :=
  match db.insertUser user with
  | .error .emailExists => .error .emailExists
  | .error _ => .error (.other "insert scim user: duplicate key value violates unique constraint \"users_pkey\"")
  | .ok tables =>
    if user.externalID.isSome ∧ ∃ other ∈ db.users, other.externalID = user.externalID then .error .conflict
    else .ok (db.withUsers tables)

/-- `INSERT INTO user_identities`, refused by the primary key or the foreign key. -/
def insertIdentity (identity : Identity) : Except StoreError AccountTables :=
  if ∃ other ∈ db.identities, other.provider = identity.provider ∧ other.subject = identity.subject then
    .error (.other "insert identity: duplicate key value violates unique constraint \"user_identities_pkey\"")
  else if owned : ∃ user ∈ db.users, user.id = identity.userID then
    .ok { db with
      identities := db.identities ++ [identity]
      identities_user := fun other mem => by
        rcases List.mem_append.mp mem with old | new
        · exact db.identities_user other old
        · rwa [List.mem_singleton.mp new] }
  else .error (.other "insert identity: violates user_identities_user_id_fkey")

def stamped (id : Uuid) (role : String) (now : Int) (user : User) : User :=
  if user.id = id then { user with role := role, lastLoginAt := some now } else user

@[simp] theorem stamped_id (id : Uuid) (role : String) (now : Int) (user : User) :
    (stamped id role now user).id = user.id := by
  unfold stamped
  split <;> rfl

@[simp] theorem stamped_email (id : Uuid) (role : String) (now : Int) (user : User) :
    (stamped id role now user).email = user.email := by
  unfold stamped
  split <;> rfl

theorem owner_stamped {users : List User} {owner id : Uuid} (owned : ∃ user ∈ users, user.id = owner)
    (role : String) (now : Int) : ∃ user ∈ users.map (stamped id role now), user.id = owner := by
  obtain ⟨user, mem, same⟩ := owned
  exact ⟨_, List.mem_map_of_mem mem, by rw [stamped_id, same]⟩

/-- `UPDATE users SET role, last_login_at`. -/
def stampLogin (id : Uuid) (role : String) (now : Int) : Except StoreError AccountTables :=
  if ∃ user ∈ db.users, user.id = id then
    .ok { db with
      users := db.users.map (stamped id role now)
      grants_user := fun grant mem => owner_stamped (db.grants_user grant mem) role now
      identities_user := fun identity mem => owner_stamped (db.identities_user identity mem) role now }
  else .error (.other "stamp login: no rows in result set")

def writeAccountAudit (entries : List AuditEntry) : AccountTables :=
  { db with auditLog := db.auditLog ++ entries }

end AccountTables

open AccountTables

def createSCIMUser (faults : Faults StoreError) (user : User) (entries : List AuditEntry) (db : AccountTables) :
    Except StoreError User × AccountTables :=
  match inTx faults [fun db => db.insertSCIMUser user, fun db => .ok (db.writeAccountAudit entries)] db with
  | (.error err, db) => (.error err, db)
  | (.ok (), db) => (db.getUser user.id, db)

structure LoginRow where
  id : Uuid
  now : Int
  provider : String
  subject : String
  email : String
  displayName : Option String
  roleIfNew : String

namespace LoginRow

variable (login : LoginRow)

def newUser : User :=
  { id := login.id, email := login.email, displayName := login.displayName, role := login.roleIfNew
    createdAt := login.now }

/-- `OTEL_FLEET_ADMIN_EMAILS` forces admin. -/
def roleOf (user : User) : String := if login.roleIfNew = "admin" then "admin" else user.role

def attachStatements (user : User) : List (Statement AccountTables StoreError) :=
  [fun db => db.insertIdentity ⟨user.id, login.provider, login.subject⟩,
    fun db => db.stampLogin user.id (login.roleOf user) login.now]

/-- The user the login resolves to, and the statements after the look-ups that
    found it (these write nothing and can only fail). -/
def resolve (db : AccountTables) : User × List (Statement AccountTables StoreError) :=
  match db.userByIdentity login.provider login.subject with
  | some user => (user, [.ok, fun db => db.stampLogin user.id (login.roleOf user) login.now])
  | none =>
    match db.userByEmail login.email with
    | some user => (user, [.ok, .ok] ++ login.attachStatements user)
    | none =>
      (login.newUser, [.ok, .ok, fun db => db.insertLoginUser login.newUser] ++
        login.attachStatements login.newUser)

end LoginRow

def upsertUserByIdentity (faults : Faults StoreError) (login : LoginRow) (db : AccountTables) :
    Except StoreError User × AccountTables :=
  let (user, statements) := login.resolve db
  match inTx faults statements db with
  | (.error err, db) => (.error err, db)
  | (.ok (), db) => (db.getUser user.id, db)

end OtelFleet.Store
