import OtelFleet.Verified.RowLocks

/-! # An enabled admin remains

Each transaction that may take away an admin counts the enabled admins first, or before
it commits.  That is enough as long as no other transaction counts between the count
and the commit.
-/

namespace OtelFleet.Verified.LastAdmin

open Api Semantics Semantics.Session Store Store.Directory
open Verified.RowLocks

/-! ## Enabled admins -/

variable {user : User}

section

variable {db : Directory} {id : Uuid}

def IsAdmin (db : Directory) (id : Uuid) : Prop := ∃ user, db.user? id = some user ∧ isEnabledAdmin user = true

def HasAdmin (db : Directory) : Prop := ∃ id, IsAdmin db id

theorem isAdmin_of_mem (mem : user ∈ db.users.filter isEnabledAdmin) : IsAdmin db user.id := by
  obtain ⟨isUser, isAdmin⟩ := List.mem_filter.mp mem
  exact ⟨user, mem_users_iff.mp isUser, isAdmin⟩

theorem hasAdmin_of_count (some : db.enabledAdmins ≠ 0) : HasAdmin db := by
  obtain ⟨user, mem⟩ := List.exists_mem_of_length_pos (Nat.pos_of_ne_zero some)
  exact ⟨user.id, isAdmin_of_mem mem⟩

theorem other_admin_of_count (two : ¬ db.enabledAdmins ≤ 1) (id : Uuid) : ∃ other, other ≠ id ∧ IsAdmin db other := by
  unfold enabledAdmins at two
  have nodup : ((db.users.filter isEnabledAdmin).map User.id).Nodup := Data.nodup_filter_rows _ db.users_id
  have members : ∀ user ∈ db.users.filter isEnabledAdmin, IsAdmin db user.id := fun user => isAdmin_of_mem
  match admins : db.users.filter isEnabledAdmin with
  | [] => simp [admins] at two
  | [_] => simp [admins] at two
  | first :: second :: rest =>
    rw [admins] at nodup members
    simp only [List.map_cons, List.nodup_cons, List.mem_cons, not_or] at nodup
    by_cases isFirst : first.id = id
    · refine ⟨second.id, ?_, members second (by simp)⟩
      rw [← isFirst]
      exact fun same => nodup.1.1 same.symm
    · exact ⟨first.id, isFirst, members first (by simp)⟩

theorem Writes.isAdmin {f : Option User → Option User} {pending : Directory → Directory} (writes : Writes id f pending)
    {other : Uuid} (distinct : other ≠ id) : IsAdmin (pending db) other ↔ IsAdmin db other := by
  unfold IsAdmin
  rw [writes.others db other distinct]

end

/-! ## Promises -/

/-- Beside the locks of PostgreSQL, no two transactions have counted the admins. -/
def CountsAlone (mark other : Mark) : Prop := mark.conflicts other ∨ mark = .adminsCounted ∧ other = .adminsCounted

instance : DecidableRel CountsAlone := fun mark other =>
  inferInstanceAs (Decidable (mark.conflicts other ∨ mark = .adminsCounted ∧ other = .adminsCounted))

variable (held : List Mark)

/-- What the others leave: the rows that are locked and, after a count, the admins. -/
structure Rely (before after : Directory) : Prop where
  rows : ∀ id, Locks held id → after.user? id = before.user? id
  admins : .adminsCounted ∈ held → ∀ id, IsAdmin before id → IsAdmin after id

/-- What a commit does: it changes locked rows and, without a count, takes away no admin. -/
structure Guar (before after : Directory) : Prop where
  rows : ∀ id, ¬ Locks held id → after.user? id = before.user? id
  admins : .adminsCounted ∉ held → ∀ id, IsAdmin before id → IsAdmin after id

theorem rely_refl (db : Directory) : Rely held db db := ⟨fun _ _ => rfl, fun _ _ isAdmin => isAdmin⟩

theorem rely_trans (a b c : Directory) (first : Rely held a b) (second : Rely held b c) : Rely held a c where
  rows id locks := (second.rows id locks).trans (first.rows id locks)
  admins counted id isAdmin := second.admins counted id (first.admins counted id isAdmin)

theorem rely_of_guar (held others : List Mark) (a b : Directory) (apart : Apart CountsAlone held others)
    (guar : Guar held a b) : Rely others a b where
  rows id locks := guar.rows id (not_locks_of_apart (fun _ _ => Or.inl) apart locks)
  admins counted id isAdmin := by
    apply guar.admins _ id isAdmin
    exact fun countedToo => apart _ countedToo _ counted (Or.inr ⟨rfl, rfl⟩)

abbrev AdminTriple {α : Type} (pre : Assertion Directory Mark) (session : DirectorySession α)
    (post : α → Assertion Directory Mark) : Prop := Triple HasAdmin Rely (.of Guar) pre session post

/-! ## One row is changed -/

section

variable {id : Uuid} {pending : Directory → Directory} {held : List Mark} {now : Directory}

def Working (id : Uuid) (pending : Directory → Directory) (held : List Mark) : Prop :=
  (∃ f, Writes id f pending) ∧ .lock (.user id) .forUpdate ∈ held

section

variable (working : Working id pending held)
include working

theorem Working.more (marks : List Mark) : Working id pending (held ++ marks) :=
  ⟨working.1, List.mem_append_left _ working.2⟩

theorem Working.update (change : User → User) (marks : List Mark) :
    Working id (fun db => (pending db).updateUser id change) (held ++ marks) := by
  obtain ⟨⟨f, writes⟩, locked⟩ := working
  exact ⟨⟨_, writes.update change⟩, List.mem_append_left _ locked⟩

theorem Working.aside {change : Directory → Directory} (keeps : ∀ db, (change db).users = db.users)
    (marks : List Mark) : Working id (fun db => change (pending db)) (held ++ marks) := by
  obtain ⟨⟨f, writes⟩, locked⟩ := working
  exact ⟨⟨f, writes.aside keeps⟩, List.mem_append_left _ locked⟩

theorem Working.isAdmin_later {after : Directory} (rely : Rely held now after) {admin : Uuid}
    (isAdmin : IsAdmin (pending now) admin) (others : admin ≠ id → IsAdmin now admin → IsAdmin after admin) :
    IsAdmin (pending after) admin := by
  obtain ⟨⟨f, writes⟩, locked⟩ := working
  by_cases isOwn : admin = id
  · subst isOwn
    obtain ⟨user, found, enabled⟩ := isAdmin
    refine ⟨user, ?_, enabled⟩
    rw [writes.own, rely.rows admin (Or.inl locked), ← writes.own, found]
  · rw [Writes.isAdmin writes isOwn] at isAdmin ⊢
    exact others isOwn isAdmin

theorem Working.rows_kept (other : Uuid) (unlocked : ¬ Locks held other) :
    (pending now).user? other = now.user? other := by
  obtain ⟨⟨f, writes⟩, locked⟩ := working
  apply writes.others
  rintro rfl
  exact unlocked (Or.inl locked)

end

/-! ## The count before the commit -/

/-- With the pending changes there was an admin when the transaction counted. -/
def Counted (id : Uuid) : Assertion Directory Mark := fun pending held now =>
  Working id pending held ∧ .adminsCounted ∈ held ∧ HasAdmin (pending now)

theorem stable_counted (id : Uuid) : Stable HasAdmin Rely (Counted id) := by
  intro pending held before after rely _ _ ⟨working, counted, admin, isAdmin⟩
  exact ⟨working, counted, admin, working.isAdmin_later rely isAdmin fun _ => rely.admins counted admin⟩

theorem stable_working (id : Uuid) : Stable HasAdmin Rely fun pending held _ => Working id pending held :=
  fun _ _ _ _ _ _ _ working => working

theorem triple_ensureEnabledAdminRemains (id : Uuid) :
    AdminTriple (fun pending held _ => Working id pending held) ensureEnabledAdminRemains (Ends HasAdmin (.of Guar)) := by
  have count : AdminTriple (fun pending held _ => Working id pending held)
      (execute (fun _ => [.adminsCounted]) fun seen => (seen.enabledAdmins, fun db => db))
      fun admins pending held now => admins ≠ 0 → Counted id pending held now := by
    apply triple_execute (Promise.of_quiet _) (stable_working id)
    · intro admins pending held before after rely isInv isInvAfter holds some
      exact stable_counted id pending held before after rely isInv isInvAfter (holds some)
    · intro pending held now _ working some
      exact ⟨working.more _, List.mem_append_right _ List.mem_cons_self,
        hasAdmin_of_count some⟩
  apply Triple.bind rely_refl count
  intro admins
  split
  · exact triple_error (lenient_of _).loses
  · rename_i some
    have counts : AdminTriple (Counted id) succeed (Ends HasAdmin (.of Guar)) := by
      apply triple_pure (stable_counted id)
      intro pending held now _ ⟨working, counted, remains⟩
      exact ends_ok ⟨working.rows_kept, fun uncounted => absurd counted uncounted⟩ remains
    exact counts.imp fun _ _ _ _ holds => holds some

/-! ## The administrator's transactions -/

def Untouched (id : Uuid) : Assertion Directory Mark := fun pending _ _ => Writes id (fun row => row) pending

def HasRead (id : Uuid) (user : User) : Assertion Directory Mark := fun pending held now =>
  Writes id (fun row => row) pending ∧ .lock (.user id) .forUpdate ∈ held ∧ now.user? id = some user

theorem stable_hasRead (id : Uuid) (user : User) : Stable HasAdmin Rely (HasRead id user) := by
  intro pending held before after rely _ _ ⟨writes, locked, found⟩
  exact ⟨writes, locked, (rely.rows id (Or.inl locked)).trans found⟩

theorem HasRead.working (hasRead : HasRead id user pending held now) : Working id pending held :=
  ⟨⟨_, hasRead.1⟩, hasRead.2.1⟩

theorem triple_selectUserForUpdate (notes : List Mark) (id : Uuid) :
    AdminTriple (Untouched id) (selectUserForUpdate notes id) fun row pending held now =>
      ∀ user, row = some user → HasRead id user pending held now := by
  apply triple_execute (Promise.of_quiet _)
  · exact fun _ _ _ _ _ _ _ untouched => untouched
  · intro row pending held before after rely isInv isInvAfter holds user isRow
    exact stable_hasRead id user _ _ _ _ rely isInv isInvAfter (holds user isRow)
  · intro pending held now _ untouched user found
    refine ⟨untouched, ?_, (untouched.own now).symm.trans found⟩
    rw [userLock_of_found found]
    exact List.mem_append_right _ (List.mem_append_left _ List.mem_cons_self)

theorem updateUserAdmin_keeps (id : Uuid) (upd : UserUpdate) (time : Int) :
    AdminTriple (Untouched id) (updateUserAdmin id upd time) fun _ => Idle := by
  apply triple_updateUserAdmin rely_refl (lenient_of _) (stable_working id)
  · apply (triple_selectUserForUpdate _ id).weaken
    exact fun row _ _ _ _ hasRead user isRow => (hasRead user isRow).working
  · intro what role change
    apply triple_execUpdateRole (lenient_of _) (by simp [derives]) (stable_working id) (fun _ => stable_working id)
    exact fun _ _ _ _ working => working.update _ _
  · intro change _
    apply triple_execute (Promise.of_quiet _) (stable_working id) (fun _ => stable_working id)
    exact fun _ _ _ _ working => working.update change _
  · exact triple_ensureEnabledAdminRemains id

theorem deleteUser_keeps (id : Uuid) : AdminTriple (Untouched id) (deleteUser id) fun _ => Idle := by
  apply triple_inTx
  have removes : AdminTriple (Untouched id)
      (execute (userLock .forUpdate id) fun seen => ((seen.user? id).isSome, fun db => db.removeUser id))
      fun found pending held _ => found = true → Working id pending held := by
    apply triple_execute (Promise.of_quiet _)
    · exact fun _ _ _ _ _ _ _ untouched => untouched
    · exact fun _ _ _ _ _ _ _ _ holds => holds
    · intro pending held now _ untouched isSome
      obtain ⟨user, found⟩ := Option.isSome_iff_exists.mp isSome
      rw [userLock_of_found found]
      exact ⟨⟨_, Writes.remove untouched⟩, List.mem_append_right _ List.mem_cons_self⟩
  apply Triple.bind rely_refl removes
  intro found
  split
  · rename_i isFound
    exact (triple_ensureEnabledAdminRemains id).imp fun _ _ _ _ working => working isFound
  · exact triple_error (lenient_of _).loses

/-! ## The derivation from groups -/

/-- An admin remains without a further count: the changes keep the admins, or another
    one was counted. -/
def Safe (id : Uuid) : Assertion Directory Mark := fun pending held now =>
  Working id pending held ∧
    ((∀ admin, IsAdmin now admin → IsAdmin (pending now) admin) ∨
      .adminsCounted ∈ held ∧ ∃ other, other ≠ id ∧ IsAdmin now other)

def MayWrite (id : Uuid) (user : User) (role : String) : Assertion Directory Mark := fun pending held now =>
  HasRead id user pending held now ∧
    (role = roleAdmin ∨ user.role ≠ roleAdmin ∨ .adminsCounted ∈ held ∧ ∃ other, other ≠ id ∧ IsAdmin now other)

theorem stable_safe (id : Uuid) : Stable HasAdmin Rely (Safe id) := by
  intro pending held before after rely _ _ ⟨working, safe⟩
  refine ⟨working, ?_⟩
  cases safe with
  | inl keeps =>
    left
    intro admin isAdmin
    obtain ⟨⟨f, writes⟩, locked⟩ := working
    by_cases isOwn : admin = id
    · subst isOwn
      have same := rely.rows admin (Or.inl locked)
      have before : IsAdmin (pending before) admin := keeps admin (by unfold IsAdmin at isAdmin ⊢; rwa [← same])
      unfold IsAdmin at before ⊢
      rwa [writes.own, same, ← writes.own]
    · exact (Writes.isAdmin writes isOwn).mpr isAdmin
  | inr counted =>
    obtain ⟨counted, other, distinct, isAdmin⟩ := counted
    exact Or.inr ⟨counted, other, distinct, rely.admins counted other isAdmin⟩

theorem Safe.ends (safe : Safe id pending held now) (hasAdmin : HasAdmin now) :
    Ends HasAdmin (.of Guar) (.ok () : Except StoreError Unit) pending held now := by
  obtain ⟨working, safe⟩ := safe
  cases safe with
  | inl keeps =>
    obtain ⟨admin, isAdmin⟩ := hasAdmin
    exact ends_ok ⟨working.rows_kept, fun _ => keeps⟩ ⟨admin, keeps admin isAdmin⟩
  | inr counted =>
    obtain ⟨counted, other, distinct, isAdmin⟩ := counted
    have remains : HasAdmin (pending now) := by
      obtain ⟨⟨f, writes⟩, _⟩ := working
      exact ⟨other, (Writes.isAdmin writes distinct).mpr isAdmin⟩
    exact ends_ok ⟨working.rows_kept, fun uncounted => absurd counted uncounted⟩ remains

theorem aside_safe (id : Uuid) : Aside (Safe id) := by
  intro pending held now marks change _ keeps ⟨working, safe⟩
  have same : ∀ admin, IsAdmin (change (pending now)) admin ↔ IsAdmin (pending now) admin := by
    intro admin
    simp only [IsAdmin, user?, keeps]
  refine ⟨working.aside keeps marks, ?_⟩
  cases safe with
  | inl kept => exact Or.inl fun admin isAdmin => (same admin).mpr (kept admin isAdmin)
  | inr counted => exact Or.inr ⟨List.mem_append_left _ counted.1, counted.2⟩

theorem stable_mayWrite (id : Uuid) (user : User) (role : String) : Stable HasAdmin Rely (MayWrite id user role) := by
  intro pending held before after rely isInv isInvAfter ⟨hasRead, may⟩
  refine ⟨stable_hasRead id user _ _ _ _ rely isInv isInvAfter hasRead, ?_⟩
  rcases may with stays | wasNot | ⟨counted, other, distinct, isAdmin⟩
  · exact Or.inl stays
  · exact Or.inr (Or.inl wasNot)
  · exact Or.inr (Or.inr ⟨counted, other, distinct, rely.admins counted other isAdmin⟩)

theorem aside_hasRead (id : Uuid) (user : User) : Aside (HasRead id user) := by
  intro pending held now marks change _ keeps ⟨writes, locked, found⟩
  exact ⟨writes.aside keeps, List.mem_append_left _ locked, found⟩

theorem aside_mayWrite (id : Uuid) (user : User) (role : String) : Aside (MayWrite id user role) := by
  intro pending held now marks change silent keeps ⟨hasRead, may⟩
  refine ⟨aside_hasRead id user _ _ _ _ _ silent keeps hasRead, ?_⟩
  exact may.imp_right (Or.imp_right (And.imp_left (List.mem_append_left _)))

theorem triple_guardLastAdmin (id : Uuid) (user : User) (newRole : String) :
    AdminTriple (HasRead id user) (guardLastAdmin id user.role newRole) (MayWrite id user) := by
  unfold guardLastAdmin
  split
  · have count : AdminTriple (HasRead id user)
        (execute (fun seen => .adminsCounted :: if seen.enabledAdmins ≤ 1 then [.demotionSkipped id] else [])
          fun seen => (seen.enabledAdmins, fun db => db))
        fun admins => MayWrite id user (if admins ≤ 1 then roleAdmin else newRole) := by
      apply triple_execute (Promise.of_quiet _) (stable_hasRead id user) (fun _ => stable_mayWrite id user _)
      intro pending held now _ hasRead
      refine ⟨⟨hasRead.1, List.mem_append_left _ hasRead.2.1, hasRead.2.2⟩, ?_⟩
      split
      · exact Or.inl rfl
      · rename_i two
        obtain ⟨other, distinct, isAdmin⟩ := other_admin_of_count two id
        exact Or.inr (Or.inr ⟨List.mem_append_right _ List.mem_cons_self, other, distinct,
          (Writes.isAdmin hasRead.1 distinct).mp isAdmin⟩)
    apply Triple.bind rely_refl count
    exact fun admins => triple_pure (stable_mayWrite id user _) fun _ _ _ _ may => may
  · rename_i keeps
    apply triple_pure (stable_hasRead id user)
    intro pending held now _ hasRead
    refine ⟨hasRead, ?_⟩
    tauto

theorem MayWrite.safe {role : String} (may : MayWrite id user role pending held now) (change : User → User)
    (keeps : ∀ row, (change row).disabledAt = row.disabledAt) (marks : List Mark) :
    Safe id (fun db => (pending db).updateUser id fun row => { change row with role := role }) (held ++ marks) now := by
  obtain ⟨hasRead, may⟩ := may
  have written := Writes.update hasRead.1 fun row => { change row with role := role }
  refine ⟨hasRead.working.update _ marks, ?_⟩
  -- Other admins are not touched; this one is kept where the role stays or was not admin.
  have kept : (role = roleAdmin ∨ user.role ≠ roleAdmin) → ∀ admin, IsAdmin now admin →
      IsAdmin ((pending now).updateUser id fun row => { change row with role := role }) admin := by
    intro same admin isAdmin
    by_cases isOwn : admin = id
    · subst isOwn
      obtain ⟨row, found, enabled⟩ := isAdmin
      cases found.symm.trans hasRead.2.2
      simp only [isEnabledAdmin, decide_eq_true_eq] at enabled
      rcases same with stays | wasNot
      · refine ⟨updated admin (fun row => { change row with role := role }) user, ?_, ?_⟩
        · rw [written.own, hasRead.2.2]
          rfl
        · simp [isEnabledAdmin, updated, user?_id found, stays, keeps, enabled.2]
      · exact absurd enabled.1 wasNot
    · exact (Writes.isAdmin written isOwn).mpr isAdmin
  rcases may with stays | wasNot | ⟨counted, other⟩
  · exact Or.inl (kept (Or.inl stays))
  · exact Or.inl (kept (Or.inr wasNot))
  · exact Or.inr ⟨List.mem_append_left _ counted, other⟩

theorem recomputeSCIMUserAccess_keeps (mapping : SCIMMapping) (id : Uuid) :
    AdminTriple (Untouched id) (recomputeSCIMUserAccess mapping id) fun _ => Idle := by
  apply Transacts.triple
  apply transacts_recomputeSCIMUserAccess rely_refl (triple_selected (triple_selectUserForUpdate _ id))
    fun _ => triple_error (lenient_of _).loses
  · exact fun user => triple_aside (stable_hasRead id user) (aside_hasRead id user) (fun _ _ _ _ _ => trivial) (by simp) fun _ _ => rfl
  · intro user names _
    apply triple_pure (stable_hasRead id user)
    intro pending held now hasAdmin hasRead
    have keeps : ∀ admin, IsAdmin now admin → IsAdmin (pending now) admin := by
      intro admin isAdmin
      unfold IsAdmin
      rwa [hasRead.1.unchanged]
    exact Safe.ends ⟨hasRead.working, Or.inl keeps⟩ hasAdmin
  · exact fun user names => triple_guardLastAdmin id user _
  · exact fun user names role => triple_resolveSlugs rely_refl (lenient_of _) (stable_mayWrite id user role) (aside_mayWrite id user role) _ []
  · intro user names role grantSet
    apply triple_writeAccess rely_refl (lenient_of _) (stable_safe id) (aside_safe id)
    · apply triple_execUpdateRole (lenient_of _) (by simp [derives]) (stable_mayWrite id user role) (fun _ => stable_safe id)
      exact fun _ _ _ _ may => may.safe (fun user => { user with scimManaged := true }) (fun _ => rfl) _
    · exact triple_pure (stable_safe id) fun _ _ _ hasAdmin safe => safe.ends hasAdmin

end

/-! ## Runs -/

inductive Purpose where
  | update (id : Uuid) (upd : UserUpdate) (now : Int)
  | delete (id : Uuid)
  | recompute (mapping : SCIMMapping) (userID : Uuid)

def program : Purpose → DirectorySession (Except StoreError Unit)
  | .update id upd now => updateUserAdmin id upd now
  | .delete id => deleteUser id
  | .recompute mapping userID => recomputeSCIMUserAccess mapping userID

abbrev AdminSessions := Sessions Directory Mark Purpose (Except StoreError Unit)

theorem program_meets (purpose : Purpose) (db : Directory) (hasAdmin : HasAdmin db) :
    Meets HasAdmin Rely (.of Guar) (fun _ => Idle) (program purpose) id [] db := by
  cases purpose with
  | update userID upd now => exact (updateUserAdmin_keeps userID upd now).meets _ _ _ hasAdmin (writes_nothing userID)
  | delete userID => exact (deleteUser_keeps userID).meets _ _ _ hasAdmin (writes_nothing userID)
  | recompute mapping userID =>
    exact (recomputeSCIMUserAccess_keeps mapping userID).meets _ _ _ hasAdmin (writes_nothing userID)

theorem hasAdmin_iff {db : Directory} : HasAdmin db ↔ ∃ user ∈ db.users, user.role = roleAdmin ∧ user.disabledAt = none := by
  constructor
  · rintro ⟨id, user, found, enabled⟩
    exact ⟨user, List.mem_of_find?_eq_some found, of_decide_eq_true enabled⟩
  · rintro ⟨user, mem, enabled⟩
    exact ⟨user.id, user, mem_users_iff.mp mem, decide_eq_true enabled⟩

/-- An enabled admin remains after every step, where no transaction counts the admins
    while another one that has counted them is open. -/
theorem admin_remains {db : Directory} (hasAdmin : ∃ user ∈ db.users, user.role = roleAdmin ∧ user.disabledAt = none)
    {events : List (Sessions.Event Purpose)} {last : AdminSessions}
    (run : Run (Restricted (Sessions.Respects CountsAlone) (Sessions.Step program Mark.conflicts)) ⟨db, []⟩ events last) :
    ∃ user ∈ last.committed.users, user.role = roleAdmin ∧ user.disabledAt = none := by
  have idle : Sessions.Keeping CountsAlone HasAdmin Rely (fun _ => .of Guar) (⟨db, []⟩ : AdminSessions) :=
    Sessions.keeping_idle (hasAdmin_iff.mpr hasAdmin)
  have keeping := Sessions.Run.keeping rely_refl rely_trans (fun _ _ conflict => conflict.imp LocksConflict.symm And.symm)
    (fun _ held _ others a b apart _ => rely_of_guar held others a b apart) program_meets (Sessions.Run.stricter run) idle
  exact hasAdmin_iff.mp keeping.holds

def admin (id : Uuid) (email : String) : User :=
  ⟨id, email, none, roleAdmin, none, none, none, 0, false⟩

def twoAdmins : Directory := { users := [admin ⟨1⟩ "a", admin ⟨2⟩ "b"] }

def inTurn : List (Sessions.Event Purpose) :=
  [.start (.delete ⟨1⟩), .start (.update ⟨2⟩ ⟨some roleViewer, none⟩ 0), .advance 0, .advance 1, .advance 0, .advance 0,
    .advance 1, .advance 1, .advance 1]

/-- Each of two admins is deleted, and both transactions count before one commits. -/
def atOnce : List (Sessions.Event Purpose) :=
  [.start (.delete ⟨1⟩), .start (.delete ⟨2⟩), .advance 0, .advance 1, .advance 0, .advance 1, .advance 0, .advance 1]

def afterInTurn : AdminSessions :=
  (performAll (fun system event =>
    if Sessions.Respects CountsAlone system event then system.perform program Mark.conflicts event else none)
    ⟨twoAdmins, []⟩ inTurn).getD ⟨twoAdmins, []⟩

theorem inTurn_admin_remains :
    afterInTurn.committed.users = [admin ⟨2⟩ "b"] ∧
      ∃ user ∈ afterInTurn.committed.users, user.role = roleAdmin ∧ user.disabledAt = none := by
  have run : Run (Restricted (Sessions.Respects CountsAlone) (Sessions.Step program Mark.conflicts)) ⟨twoAdmins, []⟩ inTurn
      afterInTurn := restricted_of_performAll rfl
  exact ⟨rfl, admin_remains (by decide) run⟩

def afterAtOnce : AdminSessions :=
  (performAll (fun system event => system.perform program Mark.conflicts event) ⟨twoAdmins, []⟩ atOnce).getD ⟨twoAdmins, []⟩

/-- Each transaction has counted the other admin. -/
theorem atOnce_no_admin :
    Run (Sessions.Step program Mark.conflicts) ⟨twoAdmins, []⟩ atOnce afterAtOnce ∧
      (∃ user ∈ twoAdmins.users, user.role = roleAdmin ∧ user.disabledAt = none) ∧ afterAtOnce.committed.users = [] :=
  ⟨run_of_performAll rfl, by decide, rfl⟩

end OtelFleet.Verified.LastAdmin
