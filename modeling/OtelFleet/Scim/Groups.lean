import OtelFleet.Scim.Users
import OtelFleet.Store.Groups

/-! # SCIM requests on groups

The handlers that create, replace, patch and delete a group, and the derivation of the
members' access after the change.
-/

namespace OtelFleet.Scim

open Api Auth Data Semantics Semantics.Session Store

/-- The configuration, and what Go's libraries do. -/
structure GroupEnv where
  rolePrefix : String
  customerPrefix : String
  configuredRole : String
  text : CaseMap
  parseUUID : String → Option Uuid
  /-- The submatch of `memberFilterRe` in a path. -/
  memberFilter : String → Option String
  /-- The order in which Go goes over a set. -/
  order : List Uuid → List Uuid
  mem_order : ∀ users user, user ∈ order users ↔ user ∈ users

variable (env : GroupEnv)

def GroupEnv.mapping : SCIMMapping := ⟨env.rolePrefix, env.customerPrefix, defaultRole env.configuredRole⟩

theorem GroupEnv.known_defaultRole : known env.mapping.defaultRole = true := by
  simp only [mapping, defaultRole]
  split
  · assumption
  · decide

def memberIDs (values : List String) : List Uuid :=
  values.filterMap fun value => env.parseUUID (env.text.trimSpace value)

structure GroupPayload where
  displayName : String
  externalID : Option String
  members : List String

structure PartialGroup where
  displayName : Option String
  members : Option (List String)

/-- What `json.Unmarshal` makes of the value of an operation, for each type that the code
    tries. -/
structure PatchValue where
  text : Option String
  members : List String
  object : Option PartialGroup

structure PatchOp where
  op : String
  path : String
  value : PatchValue

structure GroupPatch where
  newDisplayName : Option String := none
  replaceMembers : Option (List Uuid) := none
  add : List Uuid := []
  remove : List Uuid := []

def GroupPatch.apply (patch : GroupPatch) (op : PatchOp) : GroupPatch :=
  let verb := env.text.toLower (env.text.trimSpace op.op)
  let path := env.text.trimSpace op.path
  if env.text.toLower path = "displayname" then { patch with newDisplayName := op.value.text.or patch.newDisplayName }
  else if verb = "remove" ∧ (env.memberFilter path).isSome then
    { patch with remove := patch.remove ++ ((env.memberFilter path).bind env.parseUUID).toList }
  else if env.text.toLower path = "members" then
    let ids := memberIDs env op.value.members
    if verb = "add" then { patch with add := patch.add ++ ids }
    else if verb = "remove" then { patch with remove := patch.remove ++ ids }
    else if verb = "replace" then { patch with replaceMembers := some ids }
    else patch
  else if path = "" then
    match op.value.object with
    | none => patch
    | some object =>
      { patch with
        newDisplayName := object.displayName.or patch.newDisplayName
        replaceMembers := (object.members.map (memberIDs env)).or patch.replaceMembers }
  else patch

def parsePatch (operations : List PatchOp) : GroupPatch := operations.foldl (GroupPatch.apply env) {}

inductive GroupCall where
  | create
  | update
  | modify
  | delete
  | get

abbrev GroupFaults := GroupCall → Option StoreError

/-- A store call that fails leaves no trace. -/
def storeCall {α : Type} (fault : Option StoreError) (call : DirectorySession (Except StoreError α)) :
    DirectorySession (Except StoreError α) :=
  match fault with
  | some err => return .error err
  | none => call

/-- The access of each user is derived again; errors are only logged. -/
def recompute (env : GroupEnv) : List Uuid → DirectorySession Unit
  | [] => return ()
  | userID :: rest => do
    let _ ← recomputeSCIMUserAccess env.mapping userID
    recompute env rest

def handleGroupWriteErr : StoreError → Refusal
  | .notFound => ⟨404, "group not found or member is not a known user"⟩
  | .conflict => ⟨409, "a group with this externalId already exists"⟩
  | _ => ⟨500, "internal error"⟩

def createErr : StoreError → Refusal
  | .conflict => ⟨409, "a group with this externalId already exists"⟩
  | .notFound => ⟨400, "one or more members are not known users"⟩
  | _ => ⟨500, "internal error"⟩

def createGroup (faults : GroupFaults) (id : Uuid) (payload : GroupPayload) :
    DirectorySession (Except Refusal Unit) :=
  if env.text.trimSpace payload.displayName = "" then return .error ⟨400, "displayName is required"⟩
  else do
    match ← storeCall (faults .create)
      (createSCIMGroup ⟨id, payload.externalID, payload.displayName⟩ (memberIDs env payload.members)) with
    | .error err => return .error (createErr err)
    | .ok members =>
      recompute env members
      return .ok ()

def putGroup (faults : GroupFaults) (id : Uuid) (payload : GroupPayload) :
    DirectorySession (Except Refusal Unit) := do
  match ← storeCall (faults .update)
    (updateSCIMGroup id (some payload.displayName) payload.externalID (some (memberIDs env payload.members))) with
  | .error err => return .error (handleGroupWriteErr err)
  | .ok affected =>
    recompute env (env.order affected)
    return .ok ()

/-- The member changes of a patch, after the users that its new name affects. -/
def patchMembers (faults : GroupFaults) (id : Uuid) (patch : GroupPatch) (affected : List Uuid) :
    DirectorySession (Except Refusal Unit) := do
  match ← storeCall (faults .modify) (modifySCIMGroupMembers id patch.add patch.remove) with
  | .error err => return .error (handleGroupWriteErr err)
  | .ok more =>
    recompute env (env.order (affected ++ more).dedup)
    return .ok ()

def GroupPatch.changesMembers (patch : GroupPatch) : Bool := patch.add ≠ [] || patch.remove ≠ []

def loadGroup (faults : GroupFaults) (id : Uuid) : DirectorySession (Except Refusal Unit) := do
  match ← storeCall (faults .get) (getSCIMGroup id) with
  | .error .notFound => return .error ⟨404, "group not found"⟩
  | .error _ => return .error ⟨500, "internal error"⟩
  | .ok () => return .ok ()

/-- A patch without a full set of members: the new name and then the member changes, in
    two transactions. -/
def patchParts (faults : GroupFaults) (id : Uuid) (patch : GroupPatch) : DirectorySession (Except Refusal Unit) :=
  match patch.newDisplayName with
  | none => if patch.changesMembers then patchMembers env faults id patch [] else loadGroup faults id
  | some name => do
    match ← storeCall (faults .update) (updateSCIMGroup id (some name) none none) with
    | .error err => return .error (handleGroupWriteErr err)
    | .ok affected =>
      if patch.changesMembers then patchMembers env faults id patch affected
      else
        recompute env (env.order affected)
        return .ok ()

def patchGroup (faults : GroupFaults) (id : Uuid) (operations : List PatchOp) :
    DirectorySession (Except Refusal Unit) :=
  let patch := parsePatch env operations
  match patch.replaceMembers with
  | none => patchParts env faults id patch
  | some members => do
    match ← storeCall (faults .update) (updateSCIMGroup id patch.newDisplayName none (some members)) with
    | .error err => return .error (handleGroupWriteErr err)
    | .ok affected =>
      recompute env (env.order affected)
      return .ok ()

def deleteGroup (faults : GroupFaults) (id : Uuid) : DirectorySession (Except Refusal Unit) := do
  match ← storeCall (faults .delete) (deleteSCIMGroup id) with
  | .error .notFound => return .error ⟨404, "group not found"⟩
  | .error _ => return .error ⟨500, "internal error"⟩
  | .ok formerMembers =>
    recompute env formerMembers
    return .ok ()

inductive GroupRequest where
  | create (id : Uuid) (payload : GroupPayload)
  | put (id : Uuid) (payload : GroupPayload)
  | patch (id : Uuid) (operations : List PatchOp)
  | delete (id : Uuid)

def GroupRequest.program (faults : GroupFaults) : GroupRequest → DirectorySession (Except Refusal Unit)
  | .create id payload => createGroup env faults id payload
  | .put id payload => putGroup env faults id payload
  | .patch id operations => patchGroup env faults id operations
  | .delete id => deleteGroup env faults id

end OtelFleet.Scim
