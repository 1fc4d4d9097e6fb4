import OtelFleet.Verified.RowLocks

/-! # Logins keep the roles

A login writes back the role that it has read, without a lock in between.  It leaves
the roles alone as long as no other transaction writes a user's role while a login that
has read it is open.
-/

namespace OtelFleet.Verified.LoginRoles

open Api Semantics Semantics.Session Store Store.Directory
open Verified.RowLocks

/-! ## The role that a transaction has written -/

def writtenBy (id : Uuid) : Mark → Option String
  | .roleWritten owner role => if owner = id then some role else none
  | _ => none

def written (held : List Mark) (id : Uuid) : Option String := held.reverse.findSome? (writtenBy id)

variable (held marks : List Mark)

theorem written_append (id : Uuid) : written (held ++ marks) id = (written marks id).or (written held id) := by
  simp only [written, List.reverse_append, List.findSome?_append]

theorem written_silent {marks : List Mark} {id : Uuid} (silent : ∀ role, .roleWritten id role ∉ marks) :
    written marks id = none := by
  rw [written, List.findSome?_eq_none_iff]
  intro mark mem
  rw [List.mem_reverse] at mem
  cases mark with
  | roleWritten owner role =>
    have other : owner ≠ id := by
      rintro rfl
      exact silent role mem
    exact if_neg other
  | _ => rfl

theorem written_append_silent {held marks : List Mark} {id : Uuid} (silent : ∀ role, .roleWritten id role ∉ marks) :
    written (held ++ marks) id = written held id := by
  rw [written_append, written_silent silent, Option.none_or]

theorem written_role (owner id : Uuid) (role : String) (silent : ∀ id role, .roleWritten id role ∉ marks) :
    written (marks ++ [.roleWritten owner role]) id = if owner = id then some role else none := by
  rw [written_append, written_silent (silent id)]
  by_cases isOwner : owner = id <;> simp [written, writtenBy]

/-! ## Promises -/

def SameRole (before after : Directory) (id : Uuid) : Prop :=
  ∀ user, before.user? id = some user → ∃ user', after.user? id = some user' ∧ user'.role = user.role

def roleRead? : Mark → Option Uuid
  | .roleRead id => some id
  | _ => none

def roleWritten? : Mark → Option Uuid
  | .roleWritten id _ => some id
  | _ => none

/-- Beside the locks of PostgreSQL, no role is written while a login that has read it is
    open. -/
def ReadsAlone (mark other : Mark) : Prop :=
  mark.conflicts other ∨ (∃ id ∈ roleRead? mark, id ∈ roleWritten? other) ∨ ∃ id ∈ roleRead? other, id ∈ roleWritten? mark

instance : DecidableRel ReadsAlone := fun mark other =>
  inferInstanceAs (Decidable (mark.conflicts other ∨ (∃ id ∈ roleRead? mark, id ∈ roleWritten? other) ∨
    ∃ id ∈ roleRead? other, id ∈ roleWritten? mark))

inductive Purpose where
  | login (login : LoginRow) (unforced : login.roleIfNew ≠ "admin")
  | update (id : Uuid) (upd : UserUpdate) (now : Int)
  | recompute (mapping : SCIMMapping) (userID : Uuid)

def program : Purpose → DirectorySession (Except StoreError Unit)
  | .login login _ => upsertUserByIdentityTx login
  | .update id upd now => updateUserAdmin id upd now
  | .recompute mapping userID => recomputeSCIMUserAccess mapping userID

def Purpose.isLogin : Purpose → Bool
  | .login _ _ => true
  | .update _ _ _ | .recompute _ _ => false

/-- What the others leave: the rows that are locked, and the roles that are read. -/
structure Rely (held : List Mark) (before after : Directory) : Prop where
  rows : ∀ id, Locks held id → after.user? id = before.user? id
  roles : ∀ id, .roleRead id ∈ held → SameRole before after id

/-- What a commit does: it changes locked rows, roles are those written or those before,
    and a login keeps the roles that there are. -/
structure Guar (purpose : Purpose) (held : List Mark) (before after : Directory) : Prop where
  rows : ∀ id, ¬ Locks held id → after.user? id = before.user? id
  stays : ∀ id, (before.user? id).isSome → (after.user? id).isSome
  roles : ∀ id user, after.user? id = some user →
    (written held id).or ((before.user? id).map User.role) = some user.role
  login : purpose.isLogin = true → ∀ id, SameRole before after id

theorem sameRole_refl (db : Directory) (id : Uuid) : SameRole db db id := fun user found => ⟨user, found, rfl⟩

theorem rely_refl (held : List Mark) (db : Directory) : Rely held db db := ⟨fun _ _ => rfl, fun id _ => sameRole_refl db id⟩

theorem rely_trans (held : List Mark) (a b c : Directory) (first : Rely held a b) (second : Rely held b c) : Rely held a c where
  rows id locks := (second.rows id locks).trans (first.rows id locks)
  roles id isRead user found := by
    obtain ⟨user', found', same⟩ := first.roles id isRead user found
    obtain ⟨last, foundLast, sameLast⟩ := second.roles id isRead user' found'
    exact ⟨last, foundLast, sameLast.trans same⟩

variable (purpose : Purpose)

theorem rely_of_guar (held others : List Mark) (a b : Directory) (apart : Apart ReadsAlone held others)
    (guar : Guar purpose held a b) : Rely others a b where
  rows id locks := guar.rows id (not_locks_of_apart (fun _ _ => Or.inl) apart locks)
  roles id isRead user found := by
    obtain ⟨user', found'⟩ := Option.isSome_iff_exists.mp (guar.stays id (by rw [found]; rfl))
    refine ⟨user', found', ?_⟩
    have unwritten : written held id = none :=
      written_silent fun role isWritten => apart _ isWritten _ isRead (Or.inr (Or.inr ⟨id, rfl, rfl⟩))
    have role := guar.roles id user' found'
    rw [unwritten, found] at role
    exact (Option.some.inj role).symm

def promise : Promise Directory Mark := .of (Guar purpose)

abbrev RoleTriple {α : Type} (pre : Assertion Directory Mark) (session : DirectorySession α)
    (post : α → Assertion Directory Mark) : Prop := Triple (fun _ => True) Rely (promise purpose) pre session post

/-! ## Changes of one row -/

section

variable {purpose : Purpose} {id : Uuid} {pending : Directory → Directory} {held : List Mark} {now : Directory}

/-- The transaction has locked the row and changed nothing but it; its role is what was
    last written. -/
def Edits (id : Uuid) : Assertion Directory Mark := fun pending held _ =>
  .lock (.user id) .forUpdate ∈ held ∧ (∀ other, other ≠ id → written held other = none) ∧
    ∃ f, Writes id f pending ∧ f none = none ∧
      ∀ row, row.id = id → ∃ row', f (some row) = some row' ∧ row'.id = id ∧ row'.role = (written held id).getD row.role

theorem stable_edits (id : Uuid) : Stable (fun _ => True) Rely (Edits id) := fun _ _ _ _ _ _ _ edits => edits

theorem aside_edits (id : Uuid) : Aside (Edits id) := by
  intro pending held now marks change silent keeps ⟨locked, others, f, writes, absent, role⟩
  have same other : written (held ++ marks) other = written held other := written_append_silent (silent other)
  refine ⟨List.mem_append_left _ locked, ?_, f, writes.aside keeps, absent, ?_⟩
  · exact fun other distinct => (same other).trans (others other distinct)
  · rwa [same]

theorem Edits.ends (edits : Edits id pending held now) (other : purpose.isLogin = false) :
    Ends (fun _ => True) (promise purpose) (.ok () : Except StoreError Unit) pending held now := by
  obtain ⟨locked, others, f, writes, absent, role⟩ := edits
  refine ends_ok ⟨?_, ?_, ?_, ?_⟩ trivial
  · intro other unlocked
    apply writes.others
    rintro rfl
    exact unlocked (Or.inl locked)
  · intro user isSome
    by_cases isOwn : user = id
    · subst isOwn
      obtain ⟨row, found⟩ := Option.isSome_iff_exists.mp isSome
      obtain ⟨row', becomes, _⟩ := role row (user?_id found)
      rw [writes.own, found, becomes]
      rfl
    · rwa [writes.others now user isOwn]
  · intro user row found
    by_cases isOwn : user = id
    · subst isOwn
      rw [writes.own] at found
      cases before : now.user? user with
      | none =>
        rw [before, absent] at found
        cases found
      | some row₀ =>
        obtain ⟨row', becomes, _, isRole⟩ := role row₀ (user?_id before)
        rw [before, becomes] at found
        cases found
        rw [isRole]
        cases written held user <;> rfl
    · rw [writes.others now user isOwn] at found
      rw [others user isOwn, found]
      rfl
  · intro isLogin
    rw [other] at isLogin
    cases isLogin

theorem Edits.changed (edits : Edits id pending held now) (change : User → User) (marks : List Mark)
    (silent : ∀ other, other ≠ id → written marks other = none)
    (noted : ∀ user, (change user).role = (written marks id).getD user.role) :
    Edits id (fun db => (pending db).updateUser id change) (held ++ marks) now := by
  obtain ⟨locked, others, f, writes, absent, isRole⟩ := edits
  refine ⟨List.mem_append_left _ locked, ?_, _, writes.update change, by simp [absent], ?_⟩
  · intro other distinct
    rw [written_append, silent other distinct]
    exact others other distinct
  · intro row isRow
    obtain ⟨row', becomes, sameID, role⟩ := isRole row isRow
    refine ⟨updated id change row', by rw [becomes]; rfl, ?_, ?_⟩
    · rw [updated_id, sameID]
    · rw [updated, if_pos sameID, noted, role, written_append]
      cases written marks id <;> rfl

/-! ## Role changes -/

def Begins : Assertion Directory Mark := fun pending held _ =>
  (∀ db other, (pending db).user? other = db.user? other) ∧ ∀ other, written held other = none

theorem stable_begins : Stable (fun _ => True) Rely Begins := fun _ _ _ _ _ _ _ begins => begins

theorem triple_selectUserForUpdate (notes : List Mark) (id : Uuid) (quiet : ∀ other role, .roleWritten other role ∉ notes) :
    RoleTriple purpose Begins (selectUserForUpdate notes id) fun row pending held now =>
      ∀ user, row = some user → Edits id pending held now := by
  apply triple_execute (Promise.of_quiet _) stable_begins
  · exact fun _ _ _ _ _ _ _ _ edits => edits
  · intro pending held now _ ⟨unchanged, unwritten⟩ user found
    have silent : ∀ other role, .roleWritten other role ∉ userLock .forUpdate id (pending now) ++ notes :=
      fun other role => List.not_mem_append (userLock_silent .forUpdate id (pending now) other role) (quiet other role)
    refine ⟨?_, ?_, fun row => row, ⟨fun db => unchanged db id, fun db other _ => unchanged db other⟩, rfl, ?_⟩
    · rw [userLock_of_found found]
      exact List.mem_append_right _ (List.mem_append_left _ List.mem_cons_self)
    · intro other _
      rw [written_append_silent (silent other)]
      exact unwritten other
    · intro row isRow
      rw [written_append_silent (silent id), unwritten id]
      exact ⟨row, rfl, isRow, rfl⟩

theorem triple_editRole (what : String) (id : Uuid) (role : String) (change : User → User) :
    RoleTriple purpose (Edits id) (execUpdateRole what [.roleWritten id role] id role change) fun res pending held now =>
      ∀ found, res = .ok found → Edits id pending held now :=
  triple_execUpdateRole (lenient_of _) (by simp [derives]) (stable_edits id) (fun _ => stable_edits id) fun pending _ now _ edits => by
    have noted := fun other => written_role _ id other role (userLock_silent .noKeyUpdate id (pending now))
    apply edits.changed (fun user => { change user with role := role })
    · exact fun other distinct => by rw [noted, if_neg distinct.symm]
    · exact fun user => by rw [noted, if_pos rfl]; rfl

theorem triple_editOther (id : Uuid) (change : User → User) (keeps : ∀ user, (change user).role = user.role) :
    RoleTriple purpose (Edits id) (execUpdateUser id change) fun _ => Edits id := by
  apply triple_execute (Promise.of_quiet _) (stable_edits id) (fun _ => stable_edits id)
  intro pending held now _ edits
  have silent := fun other => written_silent (userLock_silent .noKeyUpdate id (pending now) other)
  exact edits.changed change _ (fun other _ => silent other) fun user => by rw [silent, keeps]; rfl

theorem triple_ensureEnabledAdminRemains (id : Uuid) (other : purpose.isLogin = false) :
    RoleTriple purpose (Edits id) ensureEnabledAdminRemains (Ends (fun _ => True) (promise purpose)) := by
  have count : RoleTriple purpose (Edits id)
      (execute (fun _ => [.adminsCounted]) fun seen => (seen.enabledAdmins, fun db => db)) fun _ => Edits id :=
    triple_aside (stable_edits id) (aside_edits id) (fun _ _ _ _ _ => trivial) (by simp) fun _ _ => rfl
  apply Triple.bind rely_refl count
  intro admins
  split
  · exact triple_error (lenient_of _).loses
  · exact triple_pure (stable_edits id) fun _ _ _ _ edits => edits.ends other

theorem updateUserAdmin_keeps (id : Uuid) (upd : UserUpdate) (time : Int) (other : purpose.isLogin = false) :
    RoleTriple purpose Begins (updateUserAdmin id upd time) fun _ => Idle :=
  triple_updateUserAdmin rely_refl (lenient_of _) (stable_edits id) (triple_selectUserForUpdate _ id (by simp))
    (fun what role change => triple_editRole what id role change) (triple_editOther id)
    (triple_ensureEnabledAdminRemains id other) upd time

theorem triple_guardLastAdmin (id : Uuid) (currentRole newRole : String) :
    RoleTriple purpose (Edits id) (guardLastAdmin id currentRole newRole) fun _ => Edits id := by
  unfold guardLastAdmin
  split
  · have count : RoleTriple purpose (Edits id)
        (execute (fun seen => .adminsCounted :: if seen.enabledAdmins ≤ 1 then [.demotionSkipped id] else [])
          fun seen => (seen.enabledAdmins, fun db => db)) fun _ => Edits id := by
      apply triple_aside (stable_edits id) (aside_edits id) (fun _ _ _ _ _ => trivial) _ fun _ _ => rfl
      intro seen other role
      split <;> simp
    apply Triple.bind rely_refl count
    exact fun _ => triple_pure (stable_edits id) fun _ _ _ _ edits => edits
  · exact triple_pure (stable_edits id) fun _ _ _ _ edits => edits

theorem recomputeSCIMUserAccess_keeps (mapping : SCIMMapping) (id : Uuid) (other : purpose.isLogin = false) :
    RoleTriple purpose Begins (recomputeSCIMUserAccess mapping id) fun _ => Idle := by
  have ends : RoleTriple purpose (Edits id) succeed (Ends (fun _ => True) (promise purpose)) :=
    triple_pure (stable_edits id) fun _ _ _ _ edits => edits.ends other
  apply Transacts.triple
  apply transacts_recomputeSCIMUserAccess rely_refl (triple_selected (triple_selectUserForUpdate _ id (by simp)))
    fun _ => triple_error (lenient_of _).loses
  · exact fun user => triple_aside (stable_edits id) (aside_edits id) (fun _ _ _ _ _ => trivial) (by simp) fun _ _ => rfl
  · exact fun _ _ _ => ends
  · exact fun user names => triple_guardLastAdmin id user.role _
  · exact fun _ _ _ => triple_resolveSlugs rely_refl (lenient_of _) (stable_edits id) (aside_edits id) _ []
  · exact fun _ _ role => triple_writeAccess rely_refl (lenient_of _) (stable_edits id) (aside_edits id) (triple_editRole _ id role _) ends

end

/-! ## Logins -/

section

variable {purpose : Purpose} {user : User} {pending : Directory → Directory} {held : List Mark} {now : Directory}

/-- The login has found or created its user and goes on to write the role back. -/
inductive Ready (user : User) (pending : Directory → Directory) (held : List Mark) (now : Directory) : Prop where
  | existing (f : Option User → Option User) (writes : Writes user.id f pending)
      (keeps : ∀ row, row.id = user.id → row.role = user.role →
        ∃ row', f (some row) = some row' ∧ row'.id = user.id ∧ row'.role = user.role)
      (isRead : .roleRead user.id ∈ held) (row : User) (found : now.user? user.id = some row) (same : row.role = user.role)
      (unwritten : ∀ id, written held id = none)
  | created (f : Option User → Option User) (writes : Writes user.id f pending) (row : User) (creates : f none = some row)
      (isRow : row.id = user.id) (isRole : row.role = user.role) (locked : .lock (.user user.id) .forUpdate ∈ held)
      (absent : now.user? user.id = none)
      (noted : ∀ id, written held id = if user.id = id then some user.role else none)

theorem stable_ready (user : User) : Stable (fun _ => True) Rely (Ready user) := by
  intro pending held before after rely _ _ ready
  cases ready with
  | existing f writes keeps isRead row found same unwritten =>
    obtain ⟨row', found', same'⟩ := rely.roles user.id isRead row found
    exact .existing f writes keeps isRead row' found' (same'.trans same) unwritten
  | created f writes row creates isRow isRole locked absent noted =>
    exact .created f writes row creates isRow isRole locked ((rely.rows user.id (Or.inl locked)).trans absent) noted

theorem aside_ready (user : User) : Aside (Ready user) := by
  intro pending held now marks change silent keepsUsers ready
  cases ready with
  | existing f writes keeps isRead row found same unwritten =>
    exact .existing f (writes.aside keepsUsers) keeps (List.mem_append_left _ isRead) row found same
      fun id => (written_append_silent (silent id)).trans (unwritten id)
  | created f writes row creates isRow isRole locked absent noted =>
    exact .created f (writes.aside keepsUsers) row creates isRow isRole (List.mem_append_left _ locked) absent
      fun id => (written_append_silent (silent id)).trans (noted id)

section

variable (ready : Ready user pending held now)
include ready

theorem Ready.others {id : Uuid} (distinct : id ≠ user.id) : (pending now).user? id = now.user? id := by
  cases ready with
  | existing _ writes | created _ writes => exact writes.others now id distinct

theorem Ready.own : ∃ row, (pending now).user? user.id = some row ∧ row.role = user.role := by
  cases ready with
  | existing _ writes keeps _ row found same =>
    obtain ⟨row', becomes, _, role⟩ := keeps row (user?_id found) same
    exact ⟨row', by rw [writes.own, found, becomes], role⟩
  | created _ writes row creates _ isRole _ absent => exact ⟨row, by rw [writes.own, absent, creates], isRole⟩

theorem Ready.stamp (change : User → User) (marks : List Mark) (silent : ∀ id role, .roleWritten id role ∉ marks) :
    Ready user (fun db => (pending db).updateUser user.id fun row => { change row with role := user.role })
      (held ++ marks) now := by
  have stamps : ∀ row : User, row.id = user.id →
      (updated user.id (fun row => { change row with role := user.role }) row).role = user.role := by
    intro row isRow
    simp [updated, isRow]
  cases ready with
  | existing f writes keeps isRead row found same unwritten =>
    refine .existing _ (writes.update _) ?_ (List.mem_append_left _ isRead) row found same ?_
    · intro row isRow sameRole
      obtain ⟨row', becomes, isRow', _⟩ := keeps row isRow sameRole
      rw [becomes]
      exact ⟨_, rfl, by rw [updated_id, isRow'], stamps row' isRow'⟩
    · exact fun id => (written_append_silent (silent id)).trans (unwritten id)
  | created f writes row creates isRow isRole locked absent noted =>
    refine .created _ (writes.update _) (updated user.id (fun row => { change row with role := user.role }) row) ?_ ?_
      (stamps row isRow) (List.mem_append_left _ locked) absent ?_
    · rw [creates]
      rfl
    · rw [updated_id, isRow]
    · exact fun id => (written_append_silent (silent id)).trans (noted id)

theorem Ready.sameRole (id : Uuid) : SameRole now (pending now) id := by
  intro row found
  by_cases isOwn : id = user.id
  · subst isOwn
    obtain ⟨row', found', role⟩ := ready.own
    refine ⟨row', found', role.trans ?_⟩
    cases ready with
    | existing _ _ _ _ own foundOwn same =>
      cases foundOwn.symm.trans found
      exact same.symm
    | created _ _ _ _ _ _ _ absent => cases absent.symm.trans found
  · exact ⟨row, (ready.others isOwn).trans found, rfl⟩

theorem Ready.roles {id : Uuid} {row : User} (found : (pending now).user? id = some row) :
    (written held id).or ((now.user? id).map User.role) = some row.role := by
  by_cases isOwn : id = user.id
  · subst isOwn
    obtain ⟨row', found', role⟩ := ready.own
    cases found.symm.trans found'
    cases ready with
    | existing _ _ _ _ own foundOwn same unwritten => simp [unwritten, foundOwn, same, role]
    | created _ _ _ _ _ _ _ _ noted => simp [noted, role]
  · have unwritten : written held id = none := by
      cases ready with
      | existing _ _ _ _ _ _ _ unwritten => exact unwritten id
      | created _ _ _ _ _ _ _ _ noted => rw [noted, if_neg (Ne.symm isOwn)]
    rw [unwritten, ← ready.others isOwn, found]
    rfl

theorem Ready.ends (locks : Locks held user.id) :
    Ends (fun _ => True) (promise purpose) (.ok () : Except StoreError Unit) pending held now := by
  refine ends_ok ⟨?_, ?_, fun id row => ready.roles, fun _ => ready.sameRole⟩ trivial
  · intro id unlocked
    apply ready.others
    rintro rfl
    exact unlocked locks
  intro id isSome
  obtain ⟨row, found⟩ := Option.isSome_iff_exists.mp isSome
  obtain ⟨row', found', _⟩ := ready.sameRole id row found
  rw [found']
  rfl

end

variable {login : LoginRow}

section

variable (unforced : login.roleIfNew ≠ "admin")
include unforced

theorem roleOf_unforced (user : User) : login.roleOf user = user.role :=
  if_neg unforced

theorem triple_stampLogin (user : User) :
    RoleTriple purpose (Ready user) (stampLogin login user) (Ends (fun _ => True) (promise purpose)) := by
  unfold stampLogin
  rw [roleOf_unforced unforced]
  have stable : ∀ _ : Bool, Stable (fun _ => True) Rely fun pending held now =>
      Ready user pending held now ∧ Locks held user.id :=
    fun _ pending held before after rely isInv isInvAfter holds =>
      ⟨stable_ready user pending held before after rely isInv isInvAfter holds.1, holds.2⟩
  have update : RoleTriple purpose (Ready user)
      (execUpdateRole "stamp login" [] user.id user.role fun row => { row with lastLoginAt := some login.now })
      fun res pending held now => ∀ found, res = .ok found → Ready user pending held now ∧ Locks held user.id := by
    apply triple_execUpdateRole (lenient_of _) (by simp [derives]) (stable_ready user) stable
    intro pending held now _ ready
    refine ⟨ready.stamp (fun row => { row with lastLoginAt := some login.now }) _ ?_, Or.inr ?_⟩
    · simpa using userLock_silent .noKeyUpdate user.id (pending now)
    · apply List.mem_append_right
      obtain ⟨row, found, _⟩ := ready.own
      simp [userLock, found]
  apply Triple.bind rely_refl update
  intro res
  rcases res with err | _ | _
  · exact triple_error (lenient_of _).loses
  · exact triple_error (lenient_of _).loses
  · exact (triple_pure (stable true) fun _ _ _ _ holds => holds.1.ends holds.2).imp fun _ _ _ _ holds => holds true rfl

theorem triple_attachLogin (user : User) :
    RoleTriple purpose (Ready user) (attachLogin login user) (Ends (fun _ => True) (promise purpose)) := by
  have insert : RoleTriple purpose (Ready user) (insertLoginIdentity login user.id) fun _ => Ready user := by
    apply triple_aside (stable_ready user) (aside_ready user) fun _ _ _ _ _ => trivial
    · intro seen id role mem
      cases mem with
      | tail _ mem => exact userLock_silent _ _ _ _ _ mem
    · intro seen db
      split
      · rfl
      · split <;> rfl
  apply Triple.bind rely_refl insert
  intro res
  cases res with
  | error err => exact triple_error (lenient_of _).loses
  | ok value => exact triple_stampLogin unforced user

end

theorem triple_findLoginUser {find : Directory → Option User}
    (isRow : ∀ db user, find db = some user → db.user? user.id = some user) :
    RoleTriple purpose Begins (findLoginUser find) fun found pending held now =>
      (found = none → Begins pending held now) ∧ ∀ user, found = some user → Ready user pending held now := by
  apply triple_execute (Promise.of_quiet _) stable_begins
  · intro found pending held before after rely _ _ ⟨begins, ready⟩
    exact ⟨begins, fun user isUser => stable_ready user _ _ _ _ rely trivial trivial (ready user isUser)⟩
  · intro pending held now _ ⟨unchanged, unwritten⟩
    constructor
    · intro missing
      simp only at missing
      rw [missing]
      simp only [Option.toList_none, List.map_nil, List.append_nil]
      exact ⟨unchanged, unwritten⟩
    · intro user isUser
      simp only at isUser
      rw [isUser]
      refine .existing (fun row => row) ⟨fun db => unchanged db _, fun db other _ => unchanged db other⟩ ?_ ?_ user ?_ rfl ?_
      · exact fun row isRow same => ⟨row, rfl, isRow, same⟩
      · simp
      · rw [← unchanged now]
        exact isRow _ user isUser
      · exact fun id => (written_append_silent (by simp)).trans (unwritten id)

theorem triple_insertLoginUser :
    RoleTriple purpose Begins (insertLoginUser login) fun res pending held now =>
      ∀ user, res = .ok user → Ready user pending held now := by
  apply triple_execute (Promise.of_quiet _) stable_begins
  · intro res pending held before after rely _ _ ready user isUser
    exact stable_ready user _ _ _ _ rely trivial trivial (ready user isUser)
  · intro pending held now _ ⟨unchanged, unwritten⟩ user isUser
    by_cases taken : emailTaken login (pending now)
    · rw [if_pos taken] at isUser
      cases isUser
    · rw [if_neg taken] at isUser
      cases isUser
      rw [if_neg taken, if_neg taken]
      have absent : now.user? login.id = none := by
        rw [← unchanged now]
        simp only [emailTaken, not_or, Bool.not_eq_true, Option.isSome_eq_false_iff, Option.isNone_iff_eq_none] at taken
        exact taken.2
      have writes : Writes login.id (fun row => row.or (some login.newUser)) fun db => (pending db).addUser login.newUser := by
        constructor
        · intro db
          rw [user?_addUser, unchanged, if_pos (show login.newUser.id = login.id from rfl)]
        · intro db other distinct
          rw [user?_addUser, unchanged]
          rw [if_neg (show ¬ login.newUser.id = other from Ne.symm distinct), Option.or_none]
      refine .created _ writes login.newUser rfl rfl rfl ?_ absent ?_
      · simp [LoginRow.newUser]
      · intro id
        rw [written_append, written_role _ _ _ _ (by simp), unwritten, Option.or_none]
        rfl

theorem userByIdentity_isRow (provider subject : String) (db : Directory) (user : User)
    (found : db.userByIdentity provider subject = some user) : db.user? user.id = some user := by
  obtain ⟨identity, _, isUser⟩ := Option.bind_eq_some_iff.mp found
  rw [user?_id isUser]
  exact isUser

theorem triple_upsertUserByIdentityTx (unforced : login.roleIfNew ≠ "admin") :
    RoleTriple purpose Begins (upsertUserByIdentityTx login) fun _ => Idle := by
  apply triple_inTx
  apply Triple.bind rely_refl (triple_findLoginUser (userByIdentity_isRow login.provider login.subject))
  intro found
  cases found with
  | some user => exact (triple_stampLogin unforced user).imp fun _ _ _ _ holds => holds.2 user rfl
  | none =>
    have isRow (db : Directory) user (found : db.userByEmail login.email = some user) :=
      mem_users_iff.mp (List.mem_of_find?_eq_some found)
    apply Triple.imp (Triple.bind rely_refl (triple_findLoginUser isRow) ?_)
    · exact fun _ _ _ _ holds => holds.1 rfl
    intro found
    cases found with
    | some user => exact (triple_attachLogin unforced user).imp fun _ _ _ _ holds => holds.2 user rfl
    | none =>
      apply Triple.imp (Triple.bind rely_refl triple_insertLoginUser ?_)
      · exact fun _ _ _ _ holds => holds.1 rfl
      intro res
      cases res with
      | error err => exact triple_error (lenient_of _).loses
      | ok user => exact (triple_attachLogin unforced user).imp fun _ _ _ _ holds => holds user rfl

end

/-! ## Runs -/

abbrev RoleSessions := Sessions Directory Mark Purpose (Except StoreError Unit)

theorem program_meets (db : Directory) (isInv : True) :
    Meets (fun _ => True) Rely (promise purpose) (fun _ => Idle) (program purpose) id [] db := by
  have begins : Begins id [] db := ⟨fun _ _ => rfl, fun _ => rfl⟩
  cases purpose with
  | login login unforced => exact (triple_upsertUserByIdentityTx unforced).meets _ _ _ isInv begins
  | update userID upd now => exact (updateUserAdmin_keeps userID upd now rfl).meets _ _ _ isInv begins
  | recompute mapping userID => exact (recomputeSCIMUserAccess_keeps mapping userID rfl).meets _ _ _ isInv begins

/-- The sessions, with the role that was last written for each user by a commit. -/
structure Recorded where
  sessions : RoleSessions
  assigned : Uuid → Option String

namespace Recorded

def record (job : Job Directory Mark Purpose (Except StoreError Unit)) (assigned : Uuid → Option String) : Uuid → Option String :=
  if job.commits then fun id => (written job.held id).or (assigned id) else assigned

def assignedAfter (state : Recorded) : Sessions.Event Purpose → Uuid → Option String
  | .start _ => state.assigned
  | .advance i =>
    match state.sessions.jobs[i]? with
    | none => state.assigned
    | some job => record job state.assigned

def perform (state : Recorded) (event : Sessions.Event Purpose) : Option Recorded :=
  (state.sessions.perform program Mark.conflicts event).map fun sessions => ⟨sessions, state.assignedAfter event⟩

def Step (state : Recorded) (event : Sessions.Event Purpose) (next : Recorded) : Prop := state.perform event = some next

def Allowed (state : Recorded) (event : Sessions.Event Purpose) : Prop := Sessions.Respects ReadsAlone state.sessions event

instance (state : Recorded) (event : Sessions.Event Purpose) : Decidable (state.Allowed event) :=
  inferInstanceAs (Decidable (Sessions.Respects ReadsAlone state.sessions event))

def idle (db : Directory) : Recorded := ⟨⟨db, []⟩, fun id => (db.user? id).map User.role⟩

/-- Every user has the role that was assigned to them. -/
def Faithful (state : Recorded) : Prop :=
  ∀ id user, state.sessions.committed.user? id = some user → state.assigned id = some user.role

variable {next state : Recorded} {event : Sessions.Event Purpose}

theorem step_cases (step : Step state event next) :
    Sessions.Step program Mark.conflicts state.sessions event next.sessions ∧ next.assigned = state.assignedAfter event := by
  obtain ⟨sessions, performed, rfl⟩ := Option.map_eq_some_iff.mp step
  exact ⟨performed, rfl⟩

theorem strict_step (step : Restricted Allowed Step state event next) :
    Sessions.Step program ReadsAlone state.sessions event next.sessions :=
  Sessions.step_stricter ⟨step.1, (step_cases step.2).1⟩

section

variable (keeping : Sessions.Keeping ReadsAlone (fun _ => True) Rely promise state.sessions)
  (step : Restricted Allowed Step state event next)
include keeping step

theorem faithful_step (faithful : state.Faithful) : next.Faithful := by
  have isStrict := strict_step step
  obtain ⟨performed, assigned⟩ := step_cases step.2
  intro id user found
  rw [assigned]
  cases event with
  | start purpose =>
    rw [← Option.some.inj performed] at found
    exact faithful id user found
  | advance i =>
    obtain ⟨job, job', moved, outcome⟩ := keeping.step_outcome rely_refl isStrict
    simp only [assignedAfter, moved.found, record]
    cases outcome with
    | waits _ isOpen same _ _ _ | fails isOpen _ same _ _ _ =>
      rw [isOpen]
      rw [same] at found
      exact faithful id user found
    | commits isCommit _ given _ =>
      rw [if_pos isCommit]
      have role := given.roles id user found
      cases before : state.sessions.committed.user? id with
      | none =>
        rw [before, Option.map_none, Option.or_none] at role
        rw [role, Option.some_or]
      | some row =>
        rw [before] at role
        rw [faithful id row before]
        exact role

theorem keeping_step : Sessions.Keeping ReadsAlone (fun _ => True) Rely promise next.sessions :=
  Sessions.Run.keeping rely_refl rely_trans (fun _ _ conflict => conflict.imp LocksConflict.symm Or.symm)
    (fun purpose held _ others a b apart _ => rely_of_guar purpose held others a b apart) program_meets
    (.step (strict_step step) (.refl _)) keeping

end

theorem run_keeping {db : Directory} {events : List (Sessions.Event Purpose)} {last : Recorded}
    (run : Run (Restricted Allowed Step) (idle db) events last) :
    Sessions.Keeping ReadsAlone (fun _ => True) Rely promise last.sessions ∧ last.Faithful := by
  apply run.invariant
  · exact fun state event next step ⟨keeping, faithful⟩ => ⟨keeping_step keeping step, faithful_step keeping step faithful⟩
  · refine ⟨Sessions.keeping_idle trivial, ?_⟩
    intro id user found
    change (db.user? id).map User.role = some user.role
    rw [show db.user? id = some user from found]
    rfl

end Recorded

open Recorded

/-- Where no role is written while a login that has read it is open: in every state each
    user has the role that the last commit of a role change, or the creation, has
    written, and a step of a login keeps the roles of the users that there are. -/
theorem login_keeps_roles {db : Directory} {events : List (Sessions.Event Purpose)} {last : Recorded}
    (run : Run (Restricted Allowed Step) (idle db) events last) :
    (∀ user ∈ last.sessions.committed.users, last.assigned user.id = some user.role) ∧
      ∀ (i : Nat) job next, last.sessions.jobs[i]? = some job → job.purpose.isLogin = true →
        Restricted Allowed Step last (.advance i) next →
          ∀ user ∈ last.sessions.committed.users,
            ∃ user' ∈ next.sessions.committed.users, user'.id = user.id ∧ user'.role = user.role := by
  obtain ⟨keeping, faithful⟩ := run_keeping run
  refine ⟨fun user mem => faithful user.id user (mem_users_iff.mp mem), ?_⟩
  intro i job next found isLogin step user mem
  obtain ⟨_, _, moved, outcome⟩ := keeping.step_outcome rely_refl (strict_step step)
  cases found.symm.trans moved.found
  cases outcome with
  | waits _ _ same _ _ _ | fails _ _ same _ _ _ =>
    rw [same]
    exact ⟨user, mem, rfl, rfl⟩
  | commits _ _ given _ =>
    obtain ⟨user', isUser, role⟩ := given.login isLogin user.id user (mem_users_iff.mp mem)
    exact ⟨user', List.mem_of_find?_eq_some isUser, user?_id isUser, role⟩

def members : Directory :=
  { users := [⟨⟨1⟩, "a", none, roleAdmin, none, none, none, 0, false⟩, ⟨⟨2⟩, "b", none, roleAdmin, none, none, none, 0, false⟩]
    identities := [⟨⟨1⟩, "oidc", "s"⟩]
    groups := []
    groups_id := List.nodup_nil }

def signIn : Purpose := .login ⟨⟨9⟩, 5, "oidc", "s", "a", none, roleViewer⟩ (by decide)

def demotion : Purpose := .update ⟨1⟩ ⟨some roleViewer, none⟩ 0

def demotedFirst : List (Sessions.Event Purpose) :=
  [.start demotion, .start signIn, .advance 0, .advance 0, .advance 0, .advance 0, .advance 1, .advance 1]

def afterDemotedFirst : Recorded :=
  (performAll (fun state event => if Allowed state event then state.perform event else none) (idle members) demotedFirst).getD
    (idle members)

theorem demotedFirst_keeps_roles :
    afterDemotedFirst.sessions.committed.users.map User.role = [roleViewer, roleAdmin] ∧
      (∀ user ∈ afterDemotedFirst.sessions.committed.users, afterDemotedFirst.assigned user.id = some user.role) ∧
        ∀ (i : Nat) job next, afterDemotedFirst.sessions.jobs[i]? = some job → job.purpose.isLogin = true →
          Restricted Allowed Step afterDemotedFirst (.advance i) next →
            ∀ user ∈ afterDemotedFirst.sessions.committed.users,
              ∃ user' ∈ next.sessions.committed.users, user'.id = user.id ∧ user'.role = user.role := by
  have run : Run (Restricted Allowed Step) (idle members) demotedFirst afterDemotedFirst := restricted_of_performAll rfl
  exact ⟨rfl, login_keeps_roles run⟩

/-- The login reads the role, the user is demoted, and the login writes the role back. -/
def demotedMeanwhile : List (Sessions.Event Purpose) :=
  [.start signIn, .advance 0, .start demotion, .advance 1, .advance 1, .advance 1, .advance 1, .advance 0]

def beforeCommit : Recorded := (performAll perform (idle members) demotedMeanwhile).getD (idle members)

def afterCommit : Recorded := (performAll perform beforeCommit [.advance 0]).getD beforeCommit

theorem demotedMeanwhile_admin_again :
    Run Step (idle members) demotedMeanwhile beforeCommit ∧ Step beforeCommit (.advance 0) afterCommit ∧
      (beforeCommit.sessions.jobs[0]?.map fun job => job.purpose.isLogin) = some true ∧
        beforeCommit.assigned ⟨1⟩ = some roleViewer ∧ afterCommit.assigned ⟨1⟩ = some roleViewer ∧
          beforeCommit.sessions.committed.users.map User.role = [roleViewer, roleAdmin] ∧
            afterCommit.sessions.committed.users.map User.role = [roleAdmin, roleAdmin] :=
  ⟨run_of_performAll rfl, rfl, rfl, rfl, rfl, rfl, rfl⟩

end OtelFleet.Verified.LoginRoles
