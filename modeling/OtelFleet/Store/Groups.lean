import Mathlib.Data.List.Dedup
import OtelFleet.Store.Directory

/-! # The transactions on SCIM groups

`CreateSCIMGroup`, `UpdateSCIMGroup`, `ModifySCIMGroupMembers` and `DeleteSCIMGroup`, as
sessions on the directory.  Each returns the users whose access is to be derived again.
-/

namespace OtelFleet.Store

open Data Semantics Semantics.Session

namespace Directory

variable (db : Directory)

def group? (id : Uuid) : Option SCIMGroup := db.groups.find? fun group => group.id = id

def membersOf (groupID : Uuid) : List Uuid :=
  (db.members.filter fun member => member.groupID = groupID).map GroupMember.userID

def regrouped (id : Uuid) (change : SCIMGroup → SCIMGroup) (group : SCIMGroup) : SCIMGroup :=
  if group.id = id then { change group with id := group.id } else group

@[simp] theorem regrouped_id (id : Uuid) (change : SCIMGroup → SCIMGroup) (group : SCIMGroup) :
    (regrouped id change group).id = group.id := by
  unfold regrouped
  split <;> rfl

def changeGroup (id : Uuid) (change : SCIMGroup → SCIMGroup) : Directory :=
  { db with
    groups := db.groups.map (regrouped id change)
    groups_id := nodup_map_rows (regrouped_id id change) db.groups_id }

def addGroup (group : SCIMGroup) : Directory :=
  if fresh : ∀ other ∈ db.groups, other.id ≠ group.id then
    { db with
      groups := db.groups ++ [group]
      groups_id := nodup_append_row db.groups_id fresh }
  else db

/-- `DELETE FROM scim_groups WHERE id`, which cascades. -/
def removeGroup (id : Uuid) : Directory :=
  { db with
    groups := db.groups.filter fun group => group.id ≠ id
    groups_id := nodup_filter_rows _ db.groups_id
    members := db.members.filter fun member => member.groupID ≠ id }

/-- `INSERT INTO scim_group_members … ON CONFLICT DO NOTHING`. -/
def addMember (member : GroupMember) : Directory :=
  if member ∈ db.members then db else { db with members := db.members ++ [member] }

def removeMember (member : GroupMember) : Directory := { db with members := db.members.filter fun other => other ≠ member }

def clearMembers (groupID : Uuid) : Directory :=
  { db with members := db.members.filter fun member => member.groupID ≠ groupID }

end Directory

def groupLock (mode : LockMode) (id : Uuid) (db : Directory) : List Mark :=
  if (db.group? id).isSome then [.lock (.group id) mode] else []

variable (id : Uuid)

/-- `SELECT … FROM scim_groups WHERE id FOR UPDATE`. -/
def selectGroupForUpdate : DirectorySession (Option SCIMGroup) :=
  execute (groupLock .forUpdate id) fun seen => (seen.group? id, fun db => db)

def loadGroupMembers (notes : List Mark) (id : Uuid) : DirectorySession (List Uuid) :=
  execute (fun _ => notes) fun seen => (seen.membersOf id, fun db => db)

/-- The insert of one member; the foreign keys take locks on both rows. -/
def insertGroupMember (groupID userID : Uuid) : DirectorySession (Except StoreError Unit) :=
  execute (fun seen => groupLock .keyShare groupID seen ++ userLock .keyShare userID seen ++ [.membersWritten groupID]) fun seen =>
    if (seen.user? userID).isSome then (.ok (), fun db => db.addMember ⟨groupID, userID⟩) else (.error .notFound, fun db => db)

def insertGroupMembers (groupID : Uuid) : List Uuid → DirectorySession (Except StoreError Unit)
  | [] => return .ok ()
  | userID :: rest => do
    match ← insertGroupMember groupID userID with
    | .error err => return .error err
    | .ok () => insertGroupMembers groupID rest

def removeGroupMembers (groupID : Uuid) : List Uuid → DirectorySession Unit
  | [] => return ()
  | userID :: rest => do
    execute (fun _ => [.membersWritten groupID]) fun _ => ((), fun db => db.removeMember ⟨groupID, userID⟩)
    removeGroupMembers groupID rest

def externalTaken (externalID : Option String) (seen : Directory) : Prop :=
  externalID ≠ none ∧ ∃ group ∈ seen.groups, group.id ≠ id ∧ group.externalID = externalID

instance (id : Uuid) (externalID : Option String) (seen : Directory) : Decidable (externalTaken id externalID seen) :=
  inferInstanceAs (Decidable (externalID ≠ none ∧ ∃ group ∈ seen.groups, group.id ≠ id ∧ group.externalID = externalID))

def externalLock (externalID : Option String) : List Mark := externalID.toList.map fun key => .lock (.externalKey key) .forUpdate

/-- `INSERT INTO scim_groups`, refused by the key on `external_id`. -/
def insertGroup (group : SCIMGroup) : DirectorySession (Except StoreError Unit) :=
  execute (fun _ => .lock (.group group.id) .forUpdate :: externalLock group.externalID) fun seen =>
    if externalTaken group.id group.externalID seen then (.error .conflict, fun db => db)
    else if (seen.group? group.id).isSome then
      (.error (.other "insert scim group: duplicate key value violates unique constraint \"scim_groups_pkey\""), fun db => db)
    else (.ok (), fun db => db.addGroup group)

/-- `UPDATE scim_groups SET display_name, external_id`, where absent values are kept. -/
def execUpdateGroup (displayName externalID : Option String) : DirectorySession (Except StoreError Unit) :=
  execute (fun seen => groupLock .noKeyUpdate id seen ++ externalLock externalID) fun seen =>
    if externalTaken id externalID seen then (.error .conflict, fun db => db)
    else
      (.ok (), fun db => db.changeGroup id fun group =>
        { group with displayName := displayName.getD group.displayName, externalID := externalID.or group.externalID })

def replaceGroupMembers (groupID : Uuid) (members : List Uuid) : DirectorySession (Except StoreError Unit) := do
  execute (fun _ => [.membersWritten groupID]) fun _ => ((), fun db => db.clearMembers groupID)
  insertGroupMembers groupID members

def createSCIMGroup (group : SCIMGroup) (members : List Uuid) : DirectorySession (Except StoreError (List Uuid)) :=
  inTx do
    match ← insertGroup group with
    | .error err => return .error err
    | .ok () =>
      match ← insertGroupMembers group.id members with
      | .error err => return .error err
      | .ok () => return .ok (← loadGroupMembers [] group.id)

/-- The users affected by an update, for the members before it: with new members both
    the old and the new ones, with a new name the old ones. -/
def affectedByUpdate (before : SCIMGroup) (displayName : Option String) (members : Option (List Uuid)) (oldMembers : List Uuid) :
    List Uuid :=
  match members with
  | some members => oldMembers ++ members
  | none => if displayName.any fun name => name ≠ before.displayName then oldMembers else []

def replaceIfGiven : Option (List Uuid) → DirectorySession (Except StoreError Unit)
  | none => return .ok ()
  | some members => replaceGroupMembers id members

def updateSCIMGroup (displayName externalID : Option String) (members : Option (List Uuid)) :
    DirectorySession (Except StoreError (List Uuid)) :=
  inTx do
    match ← selectGroupForUpdate id with
    | none => return .error .notFound
    | some before =>
      let oldMembers ← loadGroupMembers [] id
      match ← execUpdateGroup id displayName externalID with
      | .error err => return .error err
      | .ok () =>
        match ← replaceIfGiven id members with
        | .error err => return .error err
        | .ok () => return .ok (affectedByUpdate before displayName members oldMembers).dedup

def modifySCIMGroupMembers (add remove : List Uuid) : DirectorySession (Except StoreError (List Uuid)) :=
  inTx do
    match ← selectGroupForUpdate id with
    | none => return .error .notFound
    | some _ =>
      match ← insertGroupMembers id add with
      | .error err => return .error err
      | .ok () =>
        removeGroupMembers id remove
        return .ok (add ++ remove).dedup

/-- `DELETE FROM scim_groups`; says whether there was a row. -/
def execDeleteGroup : DirectorySession Bool :=
  execute (fun seen => groupLock .forUpdate id seen ++ [.membersWritten id]) fun seen =>
    ((seen.group? id).isSome, fun db => db.removeGroup id)

/-- `DeleteSCIMGroup`; returns the members that it read before the deletion, without a
    lock. -/
def deleteSCIMGroup : DirectorySession (Except StoreError (List Uuid)) :=
  inTx do
    let formerMembers ← loadGroupMembers [.membersRead id] id
    if ← execDeleteGroup id then return .ok formerMembers else return .error .notFound

/-- `GetSCIMGroup`, as far as a handler asks whether there is the group. -/
def getSCIMGroup : DirectorySession (Except StoreError Unit) :=
  inTx do
    match ← query fun seen => seen.group? id with
    | none => return .error .notFound
    | some _ => return .ok ()

end OtelFleet.Store
