import OtelFleet.Semantics.Turns
import OtelFleet.Store.Directory

/-! # Rows that a transaction has locked

A transaction changes rows of `users` only after it has locked them, and while it holds
the lock nobody else changes them.
-/

namespace OtelFleet.Verified.RowLocks

open Semantics Semantics.Session Store Store.Directory

def Locks (held : List Mark) (id : Uuid) : Prop := .lock (.user id) .forUpdate ∈ held ∨ .lock (.user id) .noKeyUpdate ∈ held

theorem userLock_of_found {id : Uuid} {mode : LockMode} {user : User} {seen : Directory} (found : seen.user? id = some user) :
    userLock mode id seen = [.lock (.user id) mode] := by
  simp [userLock, found]

theorem not_locks_of_apart {conflicts : Mark → Mark → Prop} {held others : List Mark} {id : Uuid}
    (stricter : ∀ mark other, mark.conflicts other → conflicts mark other) (apart : Apart conflicts held others)
    (locks : Locks others id) : ¬ Locks held id := by
  intro locksToo
  rcases locksToo with first | first <;> rcases locks with second | second
  all_goals exact apart _ first _ second (stricter _ _ ⟨_, rfl, _, rfl, rfl, rfl⟩)

/-- The pending changes touch no row of `users` but one, which becomes `f` of what it
    was. -/
structure Writes (id : Uuid) (f : Option User → Option User) (pending : Directory → Directory) : Prop where
  own : ∀ db, (pending db).user? id = f (db.user? id)
  others : ∀ db other, other ≠ id → (pending db).user? other = db.user? other

section

variable {id : Uuid} {f : Option User → Option User} {pending : Directory → Directory}

theorem writes_nothing (id : Uuid) : Writes id (fun row => row) fun db => db := ⟨fun _ => rfl, fun _ _ _ => rfl⟩

theorem Writes.unchanged (writes : Writes id (fun row => row) pending) (db : Directory) (other : Uuid) :
    (pending db).user? other = db.user? other := by
  by_cases isOwn : other = id
  · rw [isOwn]
    exact writes.own db
  · exact writes.others db other isOwn

theorem Writes.update (writes : Writes id f pending) (change : User → User) :
    Writes id (fun row => (f row).map (updated id change)) fun db => (pending db).updateUser id change where
  own db := by rw [user?_updateUser, writes.own]
  others db other distinct := by
    rw [user?_updateUser, writes.others db other distinct]
    cases found : db.user? other with
    | none => rfl
    | some user =>
      have notID : user.id ≠ id := by
        rw [user?_id found]
        exact distinct
      simp only [Option.map_some, updated, if_neg notID]

theorem Writes.remove (writes : Writes id f pending) : Writes id (fun _ => none) fun db => (pending db).removeUser id where
  own db := by rw [user?_removeUser, if_pos rfl]
  others db other distinct := by rw [user?_removeUser, if_neg distinct, writes.others db other distinct]

theorem Writes.aside (writes : Writes id f pending) {change : Directory → Directory}
    (keeps : ∀ db, (change db).users = db.users) : Writes id f fun db => change (pending db) where
  own db := by
    rw [← writes.own db]
    simp only [user?, keeps]
  others db other distinct := by
    rw [← writes.others db other distinct]
    simp only [user?, keeps]

end

/-! ## Statements on other tables -/

def derives : Mark → Bool
  | .recomputing _ | .namesRead _ _ => true
  | _ => false

/-- Nothing is asked of a rollback, and of the notes only what those of a derivation say. -/
structure Lenient (guar : Promise Directory Mark) : Prop where
  loses : ∀ held now, guar.loses held now
  notes : ∀ held marks now, (∀ mark ∈ marks, derives mark = false) → guar.notes held marks now

theorem lenient_of (relation : List Mark → Directory → Directory → Prop) : Lenient (.of relation) :=
  ⟨fun _ _ => trivial, fun _ _ _ _ => trivial⟩

theorem userLock_plain (mode : LockMode) (owner : Uuid) (seen : Directory) : ∀ mark ∈ userLock mode owner seen, derives mark = false := by
  unfold userLock
  split
  · simp [derives]
  · simp

variable {inv : Directory → Prop} {rely : List Mark → Directory → Directory → Prop} {guar : Promise Directory Mark}
  {pre : Assertion Directory Mark} {id : Uuid}

section

variable {α : Type} {assertion : Assertion Directory Mark}

/-- Neither marks that note no change of a role nor changes of other tables matter. -/
def Aside (assertion : Assertion Directory Mark) : Prop :=
  ∀ pending held now marks (change : Directory → Directory), (∀ id role, .roleWritten id role ∉ marks) →
    (∀ db, (change db).users = db.users) → assertion pending held now →
      assertion (fun db => change (pending db)) (held ++ marks) now

theorem userLock_silent (mode : LockMode) (owner : Uuid) (seen : Directory) (id : Uuid) (role : String) :
    .roleWritten id role ∉ userLock mode owner seen := by
  unfold userLock
  split <;> simp

theorem triple_aside (stable : Stable inv rely assertion) (aside : Aside assertion) {marks : Directory → List Mark}
    {effect : Directory → α × (Directory → Directory)}
    (noted : ∀ pending held now, inv now → assertion pending held now → guar.notes held (marks (pending now)) now)
    (silent : ∀ seen id role, .roleWritten id role ∉ marks seen) (keeps : ∀ seen db, ((effect seen).2 db).users = db.users) :
    Triple inv rely guar assertion (execute marks effect) fun _ => assertion := by
  apply triple_noted stable (fun _ => stable)
  intro pending held now isInv holds
  exact ⟨noted _ _ _ isInv holds, aside _ _ _ _ _ (silent _) (keeps _) holds⟩

variable (reflexive : ∀ held a, rely held a a) (lenient : Lenient guar) (stable : Stable inv rely assertion)
  (aside : Aside assertion)
include reflexive lenient stable aside

theorem triple_resolveSlugs (slugs : List String) (grantSet : List Uuid) :
    Triple inv rely guar assertion (resolveSlugs slugs grantSet) fun _ => assertion := by
  induction slugs generalizing grantSet with
  | nil => exact triple_pure stable fun _ _ _ _ holds => holds
  | cons slug slugs ih =>
    apply Triple.bind reflexive (triple_aside stable aside (fun _ _ _ _ _ => lenient.notes _ _ _ (by simp))
      (fun _ _ _ => List.not_mem_nil) fun _ _ => rfl)
    intro found
    cases found with
    | none | some customer => exact ih _

theorem triple_insertGrants (userID : Uuid) (grantSet : List Uuid) :
    Triple inv rely guar assertion (insertGrants userID grantSet) fun _ => assertion := by
  induction grantSet with
  | nil => exact triple_pure stable fun _ _ _ _ holds => holds
  | cons customerID rest ih =>
    apply Triple.bind reflexive (triple_aside stable aside (fun _ _ _ _ _ => lenient.notes _ _ _ (userLock_plain _ _ _))
      (userLock_silent .keyShare userID) fun _ _ => rfl)
    exact fun _ => ih

end

/-! ## The update of the role -/

theorem triple_execUpdateRole {post : Bool → Assertion Directory Mark} {what : String} {notes : List Mark} {role : String}
    {change : User → User} (lenient : Lenient guar) (plain : ∀ mark ∈ notes, derives mark = false)
    (stable : Stable inv rely pre) (stablePost : ∀ found, Stable inv rely (post found))
    (holds : ∀ pending held now, inv now → pre pending held now →
      post ((pending now).user? id).isSome
        (fun db => (pending db).updateUser id fun user => { change user with role := role })
        (held ++ (userLock .noKeyUpdate id (pending now) ++ notes)) now) :
    Triple inv rely guar pre (execUpdateRole what notes id role change) fun res pending held now =>
      ∀ found, res = .ok found → post found pending held now := by
  unfold execUpdateRole
  split
  · apply triple_noted stable
    · intro res pending held before after moved isInv isInvAfter isPost found isFound
      exact stablePost found _ _ _ _ moved isInv isInvAfter (isPost found isFound)
    · intro pending held now isInv isPre
      constructor
      · exact lenient.notes _ _ _ (List.forall_mem_append.mpr ⟨userLock_plain _ _ _, plain⟩)
      · intro found isFound
        cases isFound
        exact holds pending held now isInv isPre
  · exact triple_pure_always fun _ _ _ _ isOk => nomatch isOk

/-! ## The transactions, from their statements -/

theorem within_execUpdateRole (what : String) (notes : List Mark) (id : Uuid) (role : String) (change : User → User) :
    Within (execUpdateRole what notes id role change) := by
  unfold execUpdateRole
  split
  · exact within_execute _ _
  · trivial

theorem within_guardLastAdmin (id : Uuid) (currentRole newRole : String) : Within (guardLastAdmin id currentRole newRole) := by
  unfold guardLastAdmin
  split
  · exact (within_execute _ _).bind fun _ => trivial
  · trivial

theorem within_resolveSlugs (slugs : List String) (grantSet : List Uuid) : Within (resolveSlugs slugs grantSet) := by
  induction slugs generalizing grantSet with
  | nil => trivial
  | cons slug slugs ih =>
    apply (within_execute _ _).bind
    intro found
    cases found with
    | none | some customer => exact ih _

theorem within_insertGrants (userID : Uuid) (grantSet : List Uuid) : Within (insertGrants userID grantSet) := by
  induction grantSet with
  | nil => trivial
  | cons customerID rest ih => exact (within_execute _ _).bind fun _ => ih

theorem within_writeAccess (id : Uuid) (role : String) (grantSet : List Uuid) : Within (writeAccess id role grantSet) := by
  refine (within_execUpdateRole _ _ _ _ _).orRefuse (fun _ => trivial) fun _ => ?_
  exact (within_execute _ _).bind fun _ => (within_insertGrants id grantSet).bind fun _ => trivial

def succeed : DirectorySession (Except StoreError Unit) := pure (.ok ())

def refuse (err : StoreError) : DirectorySession (Except StoreError Unit) := pure (.error err)

theorem triple_updateUserAdmin {work : Assertion Directory Mark} (reflexive : ∀ held a, rely held a a)
    (lenient : Lenient guar)
    (stable : Stable inv rely work)
    (select : Triple inv rely guar pre (selectUserForUpdate [] id) fun row pending held now =>
      ∀ user, row = some user → work pending held now)
    (role : ∀ what role change, Triple inv rely guar work (execUpdateRole what [.roleWritten id role] id role change)
      fun res pending held now => ∀ found, res = .ok found → work pending held now)
    (other : ∀ change, (∀ user, (change user).role = user.role) →
      Triple inv rely guar work (execUpdateUser id change) fun _ => work)
    (ensure : Triple inv rely guar work ensureEnabledAdminRemains (Ends inv guar)) (upd : UserUpdate) (time : Int) :
    Triple inv rely guar pre (updateUserAdmin id upd time) fun _ => Idle := by
  have stays : Triple inv rely guar work (pure (.ok ())) fun (res : Except StoreError Unit) pending held now =>
      res = .ok () → work pending held now :=
    triple_pure stable fun _ _ _ _ works _ => works
  have applyRole : Triple inv rely guar work (applyRole id upd.role) fun res pending held now =>
      res = .ok () → work pending held now := by
    cases upd.role with
    | none => exact stays
    | some newRole =>
      apply Triple.bind reflexive (role "update role" newRole _)
      intro res
      cases res with
      | error err => exact triple_pure_always fun _ _ _ isOk => nomatch isOk
      | ok found => exact stays.imp fun _ _ _ _ works => works found rfl
  have applyDisabled : Triple inv rely guar work (applyDisabled id time upd.disabled) fun _ => work := by
    match upd.disabled with
    | none => exact triple_pure stable fun _ _ _ _ works => works
    | some true => exact other _ fun _ => rfl
    | some false => exact other _ fun _ => rfl
  apply triple_inTx
  apply Triple.bind reflexive select
  intro row
  cases row with
  | none => exact triple_error lenient.loses
  | some user =>
    apply Triple.imp (Triple.bind reflexive applyRole ?_)
    · exact fun _ _ _ _ works => works user rfl
    intro res
    cases res with
    | error err => exact triple_error lenient.loses
    | ok value =>
      apply Triple.imp (Triple.bind reflexive applyDisabled fun _ => ensure)
      exact fun _ _ _ _ works => works rfl

variable {hasRead : User → Assertion Directory Mark}

/-- The derivation from groups: what is known when there is no row, when the row is
    read, with the names of the groups, with the new role and with the customers. -/
theorem transacts_recomputeSCIMUserAccess {mapping : SCIMMapping} {refused : Assertion Directory Mark}
    {knows : User → List String → Assertion Directory Mark} {mayWrite : User → List String → String → Assertion Directory Mark}
    {resolved : User → List String → String → List Uuid → Assertion Directory Mark} (reflexive : ∀ held a, rely held a a)
    (select : Triple inv rely guar pre (selectUserForUpdate [.recomputing id] id) fun row pending held now =>
      (row = none → refused pending held now) ∧ ∀ user, row = some user → hasRead user pending held now)
    (refuses : ∀ err, Triple inv rely guar refused (refuse err) (Ends inv guar))
    (names : ∀ user, Triple inv rely guar (hasRead user) (selectGroupNames id) (knows user))
    (unmanaged : ∀ user names, (user.scimManaged || (derive mapping names).hasMapped) = false →
      Triple inv rely guar (knows user names) succeed (Ends inv guar))
    (guards : ∀ user names, Triple inv rely guar (knows user names)
      (guardLastAdmin id user.role ((derive mapping names).role mapping)) (mayWrite user names))
    (resolves : ∀ user names role, Triple inv rely guar (mayWrite user names role)
      (resolveSlugs (derive mapping names).slugs []) (resolved user names role))
    (writes : ∀ user names role grantSet, Triple inv rely guar (resolved user names role grantSet)
      (writeAccess id role grantSet) (Ends inv guar)) :
    Transacts inv rely guar pre (fun _ _ => False) (recomputeSCIMUserAccess mapping id) := by
  refine ⟨_, rfl, ?_, ?_⟩
  · apply (within_execute _ _).bind
    intro row
    cases row with
    | none => trivial
    | some user =>
      apply (within_execute _ _).bind
      intro names
      dsimp only
      split
      · exact (within_guardLastAdmin _ _ _).bind fun _ => (within_resolveSlugs _ _).bind fun _ => within_writeAccess _ _ _
      · trivial
  apply Triple.bind reflexive select
  intro row
  cases row with
  | none => exact (refuses _).imp fun _ _ _ _ holds => holds.1 rfl
  | some user =>
    apply Triple.imp (Triple.bind reflexive (names user) ?_)
    · exact fun _ _ _ _ holds => holds.2 user rfl
    intro names
    dsimp only
    split
    · apply Triple.bind reflexive (guards user names)
      intro role
      exact Triple.bind reflexive (resolves user names role) (writes user names role)
    · rename_i isUnmanaged
      exact unmanaged user names (Bool.eq_false_iff.mpr isUnmanaged)

theorem triple_selected {notes : List Mark}
    (select : Triple inv rely guar pre (selectUserForUpdate notes id) fun row pending held now =>
      ∀ user, row = some user → hasRead user pending held now) :
    Triple inv rely guar pre (selectUserForUpdate notes id) fun row pending held now =>
      (row = none → True) ∧ ∀ user, row = some user → hasRead user pending held now :=
  select.weaken fun _ _ _ _ _ holds => ⟨fun _ => trivial, holds⟩

theorem triple_writeAccess {work : Assertion Directory Mark} {role : String} (reflexive : ∀ held a, rely held a a)
    (lenient : Lenient guar)
    (stable : Stable inv rely work) (aside : Aside work)
    (update : Triple inv rely guar pre
      (execUpdateRole "recompute" [.roleWritten id role] id role fun user => { user with scimManaged := true })
      fun res pending held now => ∀ found, res = .ok found → work pending held now)
    (ends : Triple inv rely guar work succeed (Ends inv guar)) (grantSet : List Uuid) :
    Triple inv rely guar pre (writeAccess id role grantSet) (Ends inv guar) := by
  have clear : Triple inv rely guar work (execute (fun _ => []) fun _ => ((), fun db => db.clearGrants id)) fun _ => work :=
    triple_aside stable aside (fun _ _ _ _ _ => lenient.notes _ _ _ (by simp)) (fun _ _ _ => List.not_mem_nil) fun _ _ => rfl
  apply Triple.bind reflexive update
  intro res
  cases res with
  | error err => exact triple_error lenient.loses
  | ok found =>
    apply Triple.imp (Triple.bind reflexive clear fun _ =>
      Triple.bind reflexive (triple_insertGrants reflexive lenient stable aside id grantSet) fun _ => ends)
    exact fun _ _ _ _ works => works found rfl

end OtelFleet.Verified.RowLocks
