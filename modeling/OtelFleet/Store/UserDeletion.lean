import Mathlib.Data.List.Infix
import OtelFleet.Store.Directory

/-! # The deletion of a user, with the rows that refer to the user -/

namespace OtelFleet.Store

open Directory

/-- A column that references `users`, without an action for a deletion. -/
inductive UserColumn where
  | apiKeysCreatedBy
  | pipelineVersionsCreatedBy
  | bootstrapTokensCreatedBy
  | webhooksCreatedBy
  | apiTokensCreatedBy
  | billingSettingsUpdatedBy
  | billingPriceOverridesUpdatedBy
deriving DecidableEq

structure UserReference where
  column : UserColumn
  user : Option Uuid

structure ReferenceTables extends Directory where
  references : List UserReference
  sessions : List (List UInt8) := []
  auditLog : List AuditEntry := []

namespace ReferenceTables

variable (db : ReferenceTables) (id : Uuid)

/-- `UPDATE … SET created_by = NULL WHERE created_by = …`. -/
def detach (column : UserColumn) : ReferenceTables :=
  { db with references := db.references.map fun reference =>
      if reference.column = column ∧ reference.user = some id then { reference with user := none } else reference }

def detached : List UserColumn := [.apiKeysCreatedBy, .pipelineVersionsCreatedBy, .bootstrapTokensCreatedBy]

abbrev Mentions (data : List UInt8) : Prop := id.toText.toUTF8.toList <:+: data

def errReferenced : StoreError := .other "delete user: update or delete on table \"users\" violates foreign key constraint"

def deleteUser (entries : List AuditEntry) : Except StoreError ReferenceTables :=
  let db := detached.foldl (fun db column => db.detach id column) db
  if db.user? id = none then .error .notFound
  else if ∃ reference ∈ db.references, reference.user = some id then .error errReferenced
  else
    -- identities, grants and memberships go with the user
    let left := db.removeUser id
    if left.enabledAdmins = 0 then .error errLastAdmin
    else .ok
      { left with
        references := db.references
        sessions := db.sessions.filter fun data => ¬ Mentions id data
        auditLog := db.auditLog ++ entries }

end ReferenceTables

end OtelFleet.Store
