import OtelFleet.Api.Scope
import OtelFleet.Data.Rows
import OtelFleet.Semantics.Session
import OtelFleet.Store.Accounts
import OtelFleet.Store.Locks
import OtelFleet.Store.Pipelines

/-! # Users, groups and their access, with concurrent transactions

The tables `users`, `user_identities`, `scim_groups`, `scim_group_members` and
`user_customer_grants`, and the transactions that change a user's access: the change
by an administrator, the deletion, the login and the derivation from SCIM groups.
Each transaction is a session of statements at READ COMMITTED, with the row locks that
PostgreSQL takes for them.
-/

namespace OtelFleet.Store

open Api Data Semantics Semantics.Session

structure SCIMGroup where
  id : Uuid
  externalID : Option String
  displayName : String

structure GroupMember where
  groupID : Uuid
  userID : Uuid
deriving DecidableEq

/-- The tables, with the primary keys of `users` and `scim_groups`. -/
structure Directory where
  users : List User
  users_id : (users.map User.id).Nodup := by decide
  identities : List Identity := []
  groups : List SCIMGroup := []
  groups_id : (groups.map SCIMGroup.id).Nodup := by decide
  members : List GroupMember := []
  grants : List Grant := []
  customers : List Customer := []

namespace Directory

variable (db : Directory) (id : Uuid)

def user? : Option User := db.users.find? fun user => user.id = id

def userByIdentity (provider subject : String) : Option User :=
  (db.identities.find? fun identity => identity.provider = provider ∧ identity.subject = subject).bind
    fun identity => db.user? identity.userID

def userByEmail (email : String) : Option User := db.users.find? fun user => user.email = email

def isEnabledAdmin (user : User) : Bool := user.role = roleAdmin ∧ user.disabledAt = none

/-- `SELECT count(*) FROM users WHERE role = 'admin' AND disabled_at IS NULL`. -/
def enabledAdmins : Nat := (db.users.filter isEnabledAdmin).length

def groupNames (userID : Uuid) : List String :=
  (db.members.filter fun member => member.userID = userID).flatMap fun member =>
    (db.groups.filter fun group => group.id = member.groupID).map SCIMGroup.displayName

def customerBySlug (slug : String) : Option Customer :=
  db.customers.find? fun customer => customer.slug = slug ∧ customer.status ≠ .deleted

def updated (change : User → User) (user : User) : User :=
  if user.id = id then { change user with id := user.id } else user

@[simp] theorem updated_id (change : User → User) (user : User) : (updated id change user).id = user.id := by
  unfold updated
  split <;> rfl

def updateUser (change : User → User) : Directory :=
  { db with
    users := db.users.map (updated id change)
    users_id := nodup_map_rows (updated_id id change) db.users_id }

/-- `INSERT INTO users`, where the id is new. -/
def addUser (user : User) : Directory :=
  if fresh : ∀ other ∈ db.users, other.id ≠ user.id then
    { db with
      users := db.users ++ [user]
      users_id := nodup_append_row db.users_id fresh }
  else db

def addIdentity (identity : Identity) : Directory := { db with identities := db.identities ++ [identity] }

/-- `DELETE FROM users WHERE id`, which cascades. -/
def removeUser : Directory :=
  { db with
    users := db.users.filter fun user => user.id ≠ id
    users_id := nodup_filter_rows _ db.users_id
    identities := db.identities.filter fun identity => identity.userID ≠ id
    members := db.members.filter fun member => member.userID ≠ id
    grants := db.grants.filter fun grant => grant.userID ≠ id }

def clearGrants (userID : Uuid) : Directory :=
  { db with grants := db.grants.filter fun grant => grant.userID ≠ userID }

def addGrant (grant : Grant) : Directory := { db with grants := db.grants ++ [grant] }

variable {db}

theorem user?_id {id : Uuid} {user : User} (found : db.user? id = some user) : user.id = id := by
  simpa using List.find?_some found

theorem mem_users_iff {user : User} : user ∈ db.users ↔ db.user? user.id = some user :=
  ⟨fun member => find?_of_mem db.users_id member, fun found => List.mem_of_find?_eq_some found⟩

theorem user?_updateUser (change : User → User) (other : Uuid) :
    (db.updateUser id change).user? other = (db.user? other).map (updated id change) :=
  find?_map_rows (updated_id id change) other

theorem user?_removeUser (id other : Uuid) :
    (db.removeUser id).user? other = if other = id then none else db.user? other := by
  simp only [user?, removeUser, List.find?_filter]
  by_cases same : other = id
  · rw [if_pos same]
    simp [same]
  · rw [if_neg same]
    congr 1
    funext user
    by_cases isOther : user.id = other
    · simp [isOther, same]
    · simp [isOther]

theorem user?_addUser (user : User) (other : Uuid) :
    (db.addUser user).user? other = (db.user? other).or (if user.id = other then some user else none) := by
  unfold addUser
  split
  · simp only [user?, List.find?_append, List.find?_singleton, decide_eq_true_eq]
  · rename_i taken
    push Not at taken
    obtain ⟨owner, member, same⟩ := taken
    by_cases isOther : user.id = other
    · have found : db.user? other = some owner := by
        rw [← isOther, ← same]
        exact mem_users_iff.mp member
      rw [found]
      rfl
    · rw [if_neg isOther, Option.or_none]

end Directory

/-- What can be locked: a row, or an entry of a unique index that is not yet committed. -/
inductive Lockable where
  | user (id : Uuid)
  | group (id : Uuid)
  | emailKey (email : String)
  | identityKey (provider subject : String)
  | externalKey (externalID : String)
deriving DecidableEq

/-- What a transaction holds: locks, and notes of what it has read or written. -/
inductive Mark where
  | lock (row : Lockable) (mode : LockMode)
  | adminsCounted
  | roleRead (userID : Uuid)
  | roleWritten (userID : Uuid) (role : String)
  | recomputing (userID : Uuid)
  | namesRead (userID : Uuid) (names : List String)
  | demotionSkipped (userID : Uuid)
  | membersRead (groupID : Uuid)
  | membersWritten (groupID : Uuid)
deriving DecidableEq

def Mark.lock? : Mark → Option (Lockable × LockMode)
  | .lock row mode => some (row, mode)
  | _ => none

/-- The conflicts of PostgreSQL; notes do not conflict. -/
def Mark.conflicts (mark other : Mark) : Prop := LocksConflict mark.lock? other.lock?

instance : DecidableRel Mark.conflicts := fun mark other => inferInstanceAs (Decidable (LocksConflict mark.lock? other.lock?))

abbrev DirectorySession (α : Type) := Session Directory Mark α

def userLock (mode : LockMode) (id : Uuid) (db : Directory) : List Mark :=
  if (db.user? id).isSome then [.lock (.user id) mode] else []

/-- `SELECT … FROM users WHERE id FOR UPDATE`. -/
def selectUserForUpdate (notes : List Mark) (id : Uuid) : DirectorySession (Option User) :=
  execute (fun seen => userLock .forUpdate id seen ++ notes) fun seen => (seen.user? id, fun db => db)

/-- `UPDATE users … WHERE id` of columns other than the role. -/
def execUpdateUser (id : Uuid) (change : User → User) : DirectorySession Unit :=
  execute (userLock .noKeyUpdate id) fun _ => ((), fun db => db.updateUser id change)

/-- `UPDATE users SET role`, with the check constraint of the column; says whether there
    was a row. -/
def execUpdateRole (what : String) (notes : List Mark) (id : Uuid) (role : String) (change : User → User) :
    DirectorySession (Except StoreError Bool) :=
  if known role then
    execute (fun seen => userLock .noKeyUpdate id seen ++ notes) fun seen =>
      (.ok (seen.user? id).isSome, fun db => db.updateUser id fun user => { change user with role := role })
  else return .error (.other (what ++ ": new row for relation \"users\" violates check constraint \"users_role_check\""))

def errLastAdmin : StoreError := .other "operation would leave no enabled admin"

structure UserUpdate where
  role : Option String := none
  disabled : Option Bool := none

/-- Fails when no enabled admin would be left after the pending changes. -/
def ensureEnabledAdminRemains : DirectorySession (Except StoreError Unit) := do
  let admins ← execute (fun _ => [.adminsCounted]) fun seen => (seen.enabledAdmins, fun db => db)
  if admins = 0 then return .error errLastAdmin else return .ok ()

def applyRole (id : Uuid) : Option String → DirectorySession (Except StoreError Unit)
  | none => return .ok ()
  | some role => do
    match ← execUpdateRole "update role" [.roleWritten id role] id role fun user => user with
    | .error err => return .error err
    | .ok _ => return .ok ()

def applyDisabled (id : Uuid) (now : Int) : Option Bool → DirectorySession Unit
  | none => return ()
  | some true => execUpdateUser id fun user => { user with disabledAt := some (user.disabledAt.getD now) }
  | some false => execUpdateUser id fun user => { user with disabledAt := none }

def updateUserAdmin (id : Uuid) (upd : UserUpdate) (now : Int) : DirectorySession (Except StoreError Unit) :=
  inTx do
    match ← selectUserForUpdate [] id with
    | none => return .error .notFound
    | some _ =>
      match ← applyRole id upd.role with
      | .error err => return .error err
      | .ok () =>
        applyDisabled id now upd.disabled
        ensureEnabledAdminRemains

def deleteUser (id : Uuid) : DirectorySession (Except StoreError Unit) :=
  inTx do
    let found ← execute (userLock .forUpdate id) fun seen => ((seen.user? id).isSome, fun db => db.removeUser id)
    if found then ensureEnabledAdminRemains else return .error .notFound

structure SCIMMapping where
  rolePrefix : String
  customerPrefix : String
  defaultRole : String

structure Derivation where
  bestRole : String := ""
  slugs : List String := []
  hasMapped : Bool := false

def hasPrefix (text start : String) : Bool := start.toList.isPrefixOf text.toList

def trimPrefix (text start : String) : String := String.ofList (text.toList.drop start.toList.length)

variable (mapping : SCIMMapping)

def Derivation.add (derivation : Derivation) (name : String) : Derivation :=
  if mapping.rolePrefix ≠ "" ∧ hasPrefix name mapping.rolePrefix then
    let role := trimPrefix name mapping.rolePrefix
    { derivation with
      hasMapped := true
      bestRole := if known role ∧ level role > level derivation.bestRole then role else derivation.bestRole }
  else if mapping.customerPrefix ≠ "" ∧ hasPrefix name mapping.customerPrefix then
    { derivation with
      hasMapped := true
      slugs := derivation.slugs ++ [trimPrefix name mapping.customerPrefix] }
  else derivation

def derive (names : List String) : Derivation := names.foldl (Derivation.add mapping) {}

def Derivation.role (derivation : Derivation) : String :=
  if derivation.bestRole = "" then mapping.defaultRole else derivation.bestRole

/-- Never let SCIM demote the last enabled admin. -/
def guardLastAdmin (userID : Uuid) (currentRole newRole : String) : DirectorySession String :=
  if currentRole = roleAdmin ∧ newRole ≠ roleAdmin then do
    let admins ← execute
      (fun seen => .adminsCounted :: if seen.enabledAdmins ≤ 1 then [.demotionSkipped userID] else [])
      fun seen => (seen.enabledAdmins, fun db => db)
    return if admins ≤ 1 then roleAdmin else newRole
  else return newRole

def resolveSlugs : List String → List Uuid → DirectorySession (List Uuid)
  | [], grantSet => return grantSet
  | slug :: slugs, grantSet => do
    match ← query fun seen => seen.customerBySlug slug with
    | none => resolveSlugs slugs grantSet
    | some customer => resolveSlugs slugs (if customer.id ∈ grantSet then grantSet else grantSet ++ [customer.id])

def insertGrants (userID : Uuid) : List Uuid → DirectorySession Unit
  | [] => return ()
  | customerID :: rest => do
    execute (userLock .keyShare userID) fun _ => ((), fun db => db.addGrant ⟨userID, customerID⟩)
    insertGrants userID rest

def writeAccess (userID : Uuid) (role : String) (grantSet : List Uuid) : DirectorySession (Except StoreError Unit) := do
  match ← execUpdateRole "recompute" [.roleWritten userID role] userID role fun user => { user with scimManaged := true } with
  | .error err => return .error err
  | .ok _ =>
    execute (fun _ => []) fun _ => ((), fun db => db.clearGrants userID)
    insertGrants userID grantSet
    return .ok ()

def selectGroupNames (userID : Uuid) : DirectorySession (List String) :=
  execute (fun seen => [.namesRead userID (seen.groupNames userID)]) fun seen => (seen.groupNames userID, fun db => db)

def recomputeSCIMUserAccess (userID : Uuid) : DirectorySession (Except StoreError Unit) :=
  inTx do
    match ← selectUserForUpdate [.recomputing userID] userID with
    | none => return .error .notFound
    | some user =>
      let names ← selectGroupNames userID
      let derivation := derive mapping names
      if user.scimManaged || derivation.hasMapped then do
        let newRole ← guardLastAdmin userID user.role (derivation.role mapping)
        let grantSet ← resolveSlugs derivation.slugs []
        writeAccess userID newRole grantSet
      else return .ok ()

/-- A user that a login has found; the role is read without a lock. -/
def findLoginUser (find : Directory → Option User) : DirectorySession (Option User) :=
  execute (fun seen => (find seen).toList.map fun user => .roleRead user.id) fun seen => (find seen, fun db => db)

variable (login : LoginRow)

def emailTaken (seen : Directory) : Prop :=
  (∃ user ∈ seen.users, user.email = login.email) ∨ (seen.user? login.id).isSome

instance (login : LoginRow) (seen : Directory) : Decidable (emailTaken login seen) :=
  inferInstanceAs (Decidable ((∃ user ∈ seen.users, user.email = login.email) ∨ (seen.user? login.id).isSome))

/-- `INSERT INTO users`, which waits for an uncommitted row with the same email. -/
def insertLoginUser : DirectorySession (Except StoreError User) :=
  execute
    (fun seen => [.lock (.emailKey login.email) .forUpdate, .lock (.user login.id) .forUpdate] ++
      if emailTaken login seen then [] else [.roleWritten login.id login.roleIfNew])
    fun seen =>
      if emailTaken login seen then
        (.error (.other "insert user: duplicate key value violates unique constraint"), fun db => db)
      else (.ok login.newUser, fun db => db.addUser login.newUser)

def insertLoginIdentity (userID : Uuid) : DirectorySession (Except StoreError Unit) :=
  execute (fun seen => .lock (.identityKey login.provider login.subject) .forUpdate :: userLock .keyShare userID seen) fun seen =>
    if ∃ identity ∈ seen.identities, identity.provider = login.provider ∧ identity.subject = login.subject then
      (.error (.other "insert identity: duplicate key value violates unique constraint \"user_identities_pkey\""),
        fun db => db)
    else if (seen.user? userID).isSome then
      (.ok (), fun db => db.addIdentity ⟨userID, login.provider, login.subject⟩)
    else (.error (.other "insert identity: violates user_identities_user_id_fkey"), fun db => db)

/-- `UPDATE users SET role, last_login_at`, with the role that was read. -/
def stampLogin (user : User) : DirectorySession (Except StoreError Unit) := do
  match ← execUpdateRole "stamp login" [] user.id (login.roleOf user) fun row =>
    { row with lastLoginAt := some login.now } with
  | .error err => return .error err
  | .ok false => return .error (.other "stamp login: no rows in result set")
  | .ok true => return .ok ()

def attachLogin (user : User) : DirectorySession (Except StoreError Unit) := do
  match ← insertLoginIdentity login user.id with
  | .error err => return .error err
  | .ok () => stampLogin login user

def upsertUserByIdentityTx : DirectorySession (Except StoreError Unit) :=
  inTx do
    match ← findLoginUser fun seen => seen.userByIdentity login.provider login.subject with
    | some user => stampLogin login user
    | none =>
      match ← findLoginUser fun seen => seen.userByEmail login.email with
      | some user => attachLogin login user
      | none =>
        match ← insertLoginUser login with
        | .error err => return .error err
        | .ok user => attachLogin login user

end OtelFleet.Store
