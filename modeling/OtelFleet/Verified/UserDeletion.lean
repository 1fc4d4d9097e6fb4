import OtelFleet.Store.UserDeletion

/-! # Which users can be deleted -/

namespace OtelFleet.Verified.UserDeletion

open Store Store.Directory Store.ReferenceTables

variable {db : ReferenceTables} {id : Uuid}

def cleared (columns : UserColumn → Prop) [DecidablePred columns] (id : Uuid) (references : List UserReference) :
    List UserReference :=
  references.map fun reference =>
    if columns reference.column ∧ reference.user = some id then { reference with user := none } else reference

/-- The user is gone with the sessions and the rows that cascade; the rows that
    referred to the user remain. -/
structure Deleted (id : Uuid) (before after : ReferenceTables) : Prop where
  directory : after.toDirectory = before.removeUser id
  sessions : ∀ data ∈ after.sessions, ¬ Mentions id data
  references : after.references = cleared (fun _ => True) id before.references

theorem foldl_detach (columns : List UserColumn) :
    columns.foldl (fun db column => db.detach id column) db =
      { db with references := cleared (· ∈ columns) id db.references } := by
  induction columns generalizing db with
  | nil => simp [cleared]
  | cons column columns ih =>
    rw [List.foldl_cons, ih]
    simp only [detach, cleared, List.map_map]
    congr 2
    funext reference
    by_cases isUser : reference.user = some id
    · by_cases isColumn : reference.column = column <;> simp [isUser, isColumn]
    · simp [isUser]

/-- A user can be deleted unless a row refers to the user in a column that `DeleteUser`
    does not list. -/
theorem deleteUser_works_iff (db : ReferenceTables) (id : Uuid) (entries : List AuditEntry)
    (isUser : db.user? id ≠ none) (adminRemains : (db.removeUser id).enabledAdmins ≠ 0) :
    (∃ after, db.deleteUser id entries = .ok after ∧ Deleted id db after) ↔
      ∀ reference ∈ db.references, reference.user = some id → reference.column ∈ detached := by
  simp only [ReferenceTables.deleteUser, foldl_detach, if_neg isUser, if_neg adminRemains]
  constructor
  · rintro ⟨after, deleted, _⟩ reference mem isReference
    by_contra unlisted
    rw [if_pos ⟨reference, List.mem_map.mpr ⟨reference, mem, if_neg fun both => unlisted both.1⟩, isReference⟩] at deleted
    cases deleted
  · intro listed
    have all : cleared (· ∈ detached) id db.references = cleared (fun _ => True) id db.references :=
      List.map_congr_left fun reference mem => by
        simp only [and_iff_right_of_imp (listed reference mem), true_and]
    rw [all, if_neg]
    · refine ⟨_, rfl, rfl, ?_, rfl⟩
      simp
    · rintro ⟨_, mem, isReference⟩
      obtain ⟨reference, _, rfl⟩ := List.mem_map.mp mem
      split at isReference
      · cases isReference
      · rename_i other
        exact other ⟨trivial, isReference⟩

def tables (column : UserColumn) : ReferenceTables where
  users := ([⟨1⟩, ⟨2⟩] : List Uuid).map fun id => { id := id, email := id.toText, role := "admin", createdAt := 0 }
  groups := []
  groups_id := List.nodup_nil
  references := [⟨column, some ⟨2⟩⟩]

theorem deleteUser_works_with_key : ∃ after, (tables .apiKeysCreatedBy).deleteUser ⟨2⟩ [] = .ok after ∧
    Deleted ⟨2⟩ (tables .apiKeysCreatedBy) after :=
  (deleteUser_works_iff (tables .apiKeysCreatedBy) ⟨2⟩ [] (by decide) (by decide)).mpr (by decide)

/-- A webhook of the user prevents the deletion. -/
theorem webhook_blocks_deletion : (tables .webhooksCreatedBy).user? ⟨2⟩ ≠ none ∧
    ((tables .webhooksCreatedBy).removeUser ⟨2⟩).enabledAdmins ≠ 0 ∧
    (tables .webhooksCreatedBy).deleteUser ⟨2⟩ [] = .error errReferenced :=
  ⟨by decide, by decide, rfl⟩

end OtelFleet.Verified.UserDeletion
