import OtelFleet.Api.Users

/-! # What access an invitation gives

An invitation creates the user in one transaction and writes the grants in
another.  A user without grants has access to every customer, so a failure
between the two widens the access that was asked for.
-/

namespace OtelFleet.Verified.Invitation

open Data Store Semantics Api

def effective (db : UserTables) (user : User) : Principal :=
  sessionPrincipal user (db.listUserCustomerIDs user.id)

/-- Access to the requested customers and to nothing else. -/
def ExactAccess (p : Principal) (requested : List Uuid) : Prop :=
  p.allCustomers = false ∧ p.canAccessCustomer none = false ∧
    ∀ customerID, p.canAccessCustomer (some customerID) ↔ customerID ∈ requested

/-- A user with this email who was not there before has exactly the access that
    was asked for. -/
def NeverWidens (before after : UserTables) (email : String) (requested : List Uuid) : Prop :=
  ∀ user ∈ after.users, user.email = email → (∀ old ∈ before.users, old.email ≠ email) →
    ExactAccess (effective after user) requested

variable {requested : List Uuid}

theorem exactAccess_of_grants {db : UserTables} {user : User} (notAdmin : atLeast user.role roleAdmin = false)
    (grants : ∀ customerID, customerID ∈ db.listUserCustomerIDs user.id ↔ customerID ∈ requested)
    (nonempty : requested ≠ []) : ExactAccess (effective db user) requested := by
  have granted : db.listUserCustomerIDs user.id ≠ [] := by
    obtain ⟨customerID, mem⟩ := List.exists_mem_of_ne_nil requested nonempty
    exact List.ne_nil_of_mem ((grants customerID).mpr mem)
  have restricted : effective db user = ⟨user, false, db.listUserCustomerIDs user.id⟩ := by
    simp [effective, sessionPrincipal, notAdmin, granted]
  rw [restricted]
  exact ⟨rfl, rfl, fun customerID => by simp [Principal.canAccessCustomer, grants]⟩

theorem not_exactAccess_of_no_grants {db : UserTables} {user : User} (notManaged : user.scimManaged = false)
    (noGrants : db.listUserCustomerIDs user.id = []) :
    ¬ ExactAccess (effective db user) requested := by
  have unscoped : effective db user = ⟨user, true, []⟩ := by
    simp [effective, sessionPrincipal, notManaged, noGrants]
  rw [unscoped]
  exact fun exact => Bool.true_eq_false_eq_False exact.1

/-! ## The grants transaction -/

theorem insertGrant_ok {db : UserTables} {grant : Grant}
    (user : ∃ user ∈ db.users, user.id = grant.userID) (customer : grant.customerID ∈ db.customers) :
    ∃ after, db.insertGrant grant = .ok after ∧ after.users = db.users ∧
      after.customers = db.customers ∧ ∀ other, other ∈ after.grants ↔ other ∈ db.grants ∨ other = grant := by
  unfold UserTables.insertGrant
  by_cases present : grant ∈ db.grants
  · refine ⟨db, by rw [dif_pos present], rfl, rfl, fun other => ?_⟩
    exact ⟨Or.inl, fun mem => mem.elim id fun same => same ▸ present⟩
  · rw [dif_neg present, dif_pos user, dif_pos customer]
    exact ⟨_, rfl, rfl, rfl, by simp⟩

theorem insertGrant_unknown {db : UserTables} {grant : Grant} (unknown : grant.customerID ∉ db.customers) :
    ∃ err, db.insertGrant grant = .error err := by
  unfold UserTables.insertGrant
  -- a grant that is there already has a known customer
  rw [dif_neg fun present => unknown (db.grants_customer grant present)]
  by_cases user : ∃ user ∈ db.users, user.id = grant.userID
  · exact ⟨_, by rw [dif_pos user, dif_neg unknown]⟩
  · exact ⟨_, by rw [dif_neg user]⟩

def Granted (userID : Uuid) (customerIDs : List Uuid) (before after : UserTables) : Prop :=
  after.users = before.users ∧ ∀ grant, grant ∈ after.grants ↔
    grant ∈ before.grants ∨ grant.userID = userID ∧ grant.customerID ∈ customerIDs

/-- The loop over the customer IDs adds exactly these grants, unless one of the
    customers is unknown. -/
theorem grantInserts_cases (userID : Uuid) (customerIDs : List Uuid) (db : UserTables)
    (user : ∃ user ∈ db.users, user.id = userID) :
    (∃ after, runAll (grantInserts userID customerIDs) db = .ok after ∧
      (∀ customerID ∈ customerIDs, customerID ∈ db.customers) ∧ Granted userID customerIDs db after) ∨
    (∃ err, runAll (grantInserts userID customerIDs) db = .error err) ∧
      ¬ ∀ customerID ∈ customerIDs, customerID ∈ db.customers := by
  induction customerIDs generalizing db with
  | nil => exact Or.inl ⟨db, rfl, by simp, rfl, by simp⟩
  | cons customerID rest ih =>
    have unfolded : runAll (grantInserts userID (customerID :: rest)) db =
        (db.insertGrant ⟨userID, customerID⟩).bind (runAll (grantInserts userID rest)) := rfl
    rw [unfolded]
    by_cases customer : customerID ∈ db.customers
    · obtain ⟨next, inserted, users, customers, grants⟩ :=
        @insertGrant_ok db ⟨userID, customerID⟩ user customer
      rw [inserted]
      rcases ih next (users ▸ user) with
        ⟨after, ran, known, afterUsers, afterGrants⟩ | ⟨failed, unknown⟩
      · refine Or.inl ⟨after, ran, List.forall_mem_cons.mpr ⟨customer, customers ▸ known⟩,
          afterUsers.trans users, fun grant => ?_⟩
        rw [afterGrants, grants, List.mem_cons, Grant.mk.injEq]
        tauto
      · exact Or.inr ⟨failed, fun known => unknown (customers ▸ (List.forall_mem_cons.mp known).2)⟩
    · obtain ⟨err, refused⟩ := @insertGrant_unknown db ⟨userID, customerID⟩ customer
      refine Or.inr ⟨⟨err, ?_⟩, fun known => customer (known customerID List.mem_cons_self)⟩
      rw [refused, Except.bind]

theorem mem_listUserCustomerIDs {db : UserTables} {userID customerID : Uuid} :
    customerID ∈ db.listUserCustomerIDs userID ↔ (⟨userID, customerID⟩ : Grant) ∈ db.grants := by
  simp only [UserTables.listUserCustomerIDs, List.mem_map, List.mem_filter, decide_eq_true_eq]
  constructor
  · rintro ⟨grant, ⟨mem, rfl⟩, rfl⟩
    exact mem
  · intro mem
    exact ⟨_, ⟨mem, rfl⟩, rfl⟩

variable (faults : Faults StoreError)

/-- The grants transaction succeeds if and only if no statement of it fails and
    every customer is known; it then leaves the user with exactly these grants. -/
theorem setUserCustomerGrants_cases (userID : Uuid) (customerIDs : List Uuid) (entry : AuditEntry) (db : UserTables)
    (user : ∃ user ∈ db.users, user.id = userID) :
    (∃ after, setUserCustomerGrants faults userID customerIDs entry db = (.ok (), after) ∧
      FaultFree faults (customerIDs.length + 3) ∧ (∀ customerID ∈ customerIDs, customerID ∈ db.customers) ∧
      after.users = db.users ∧
      ∀ customerID, customerID ∈ after.listUserCustomerIDs userID ↔ customerID ∈ customerIDs) ∨
    (∃ err, setUserCustomerGrants faults userID customerIDs entry db = (.error err, db)) ∧
      ¬ (FaultFree faults (customerIDs.length + 3) ∧
        ∀ customerID ∈ customerIDs, customerID ∈ db.customers) := by
  have statements : (grantStatements userID customerIDs entry).length = customerIDs.length + 3 := by
    simp [grantStatements, grantInserts]
  have ran : runAll (grantStatements userID customerIDs entry) db =
      (runAll (grantInserts userID customerIDs) (db.clearGrants userID)).bind
        fun db => .ok (db.writeAudit [entry]) := by
    rw [grantStatements]
    simp [runAll, UserTables.checkUser, user, bind, Except.bind, pure, Except.pure]
  rcases grantInserts_cases userID customerIDs (db.clearGrants userID) user with
    ⟨after, inserted, known, users, grants⟩ | ⟨⟨err, refused⟩, unknown⟩
  · rw [inserted] at ran
    by_cases faultFree : FaultFree faults (customerIDs.length + 3)
    · refine Or.inl ⟨_, inTx_ok (statements ▸ faultFree) ran, faultFree, known, users, fun customerID => ?_⟩
      rw [mem_listUserCustomerIDs]
      exact (grants ⟨userID, customerID⟩).trans (by simp [UserTables.clearGrants])
    · exact Or.inr ⟨inTx_error fun succeeds => faultFree (statements ▸ succeeds.1), fun succeeds => faultFree succeeds.1⟩
  · refine Or.inr ⟨inTx_error ?_, fun succeeds => unknown succeeds.2⟩
    rintro ⟨_, committed, res⟩
    rw [ran, refused] at res
    cases res

/-! ## The invitation -/

def CreationFails (email role : String) (id : Uuid) (faults : Faults StoreError) (db : UserTables) : Prop :=
  email = "" ∨ '@' ∉ email.toList ∨ ¬ known role ∨
    (∃ user ∈ db.users, user.id = id ∨ user.email = email) ∨ ¬ FaultFree faults 2

def GrantsSucceed (customerIDs : List Uuid) (faults : Faults StoreError) (db : UserTables) : Prop :=
  FaultFree faults (customerIDs.length + 3) ∧ ∀ customerID ∈ customerIDs, customerID ∈ db.customers

def Added (user : User) (before after : UserTables) : Prop :=
  after.users = before.users ++ [user] ∧ after.customers = before.customers ∧ after.grants = before.grants

theorem insertUser_cases (db : UserTables) (user : User) :
    (∃ after, db.insertUser user = .ok after ∧ Added user db after) ∧
      (¬ ∃ other ∈ db.users, other.id = user.id ∨ other.email = user.email) ∨
    (∃ err, db.insertUser user = .error err) ∧
      ∃ other ∈ db.users, other.id = user.id ∨ other.email = user.email := by
  unfold UserTables.insertUser
  by_cases sameID : ∃ other ∈ db.users, other.id = user.id
  · obtain ⟨other, mem, same⟩ := sameID
    exact Or.inr ⟨⟨_, if_pos ⟨other, mem, same⟩⟩, other, mem, Or.inl same⟩
  · rw [if_neg sameID]
    by_cases sameEmail : ∃ other ∈ db.users, other.email = user.email
    · obtain ⟨other, mem, same⟩ := sameEmail
      exact Or.inr ⟨⟨_, if_pos ⟨other, mem, same⟩⟩, other, mem, Or.inr same⟩
    · rw [if_neg sameEmail]
      refine Or.inl ⟨⟨_, rfl, rfl, rfl, rfl⟩, ?_⟩
      rintro ⟨other, mem, same | same⟩
      · exact sameID ⟨other, mem, same⟩
      · exact sameEmail ⟨other, mem, same⟩

theorem createInvitedUser_cases (user : User) (entry : AuditEntry) (db : UserTables) :
    (∃ after, createInvitedUser faults user entry db = (.ok (), after) ∧ Added user db after) ∧
      FaultFree faults 2 ∧ (¬ ∃ other ∈ db.users, other.id = user.id ∨ other.email = user.email) ∨
    (∃ err, createInvitedUser faults user entry db = (.error err, db)) ∧
      ((∃ other ∈ db.users, other.id = user.id ∨ other.email = user.email) ∨ ¬ FaultFree faults 2) := by
  let statements : List (Statement UserTables StoreError) :=
    [fun db => db.insertUser user, fun db => .ok (db.writeAudit [entry])]
  have ran : runAll statements db = (db.insertUser user).bind fun db => .ok (db.writeAudit [entry]) := by
    simp [statements, runAll, bind, Except.bind, pure, Except.pure]
  rcases insertUser_cases db user with ⟨⟨after, inserted, added⟩, fresh⟩ | ⟨⟨err, refused⟩, taken⟩
  · rw [inserted] at ran
    by_cases faultFree : FaultFree faults 2
    · exact Or.inl ⟨⟨_, inTx_ok faultFree ran, added⟩, faultFree, fresh⟩
    · exact Or.inr ⟨inTx_error fun succeeds => faultFree succeeds.1, Or.inr faultFree⟩
  · refine Or.inr ⟨inTx_error ?_, Or.inl taken⟩
    rintro ⟨_, committed, res⟩
    rw [ran, refused] at res
    cases res

theorem grantInvited_cases (actor : Option Uuid) {user : User} {customerIDs : List Uuid} {db : UserTables}
    (nonAdmin : user.role ≠ roleAdmin) (nonempty : customerIDs ≠ []) (mem : user ∈ db.users) :
    let after := (grantInvited faults actor user customerIDs db).2
    (GrantsSucceed customerIDs faults db ∧ after.users = db.users ∧
      ∀ customerID, customerID ∈ after.listUserCustomerIDs user.id ↔ customerID ∈ customerIDs) ∨
    ¬ GrantsSucceed customerIDs faults db ∧ after = db := by
  intro after
  simp only [after, grantInvited, setUserGrants]
  rw [if_pos ⟨nonAdmin, nonempty⟩]
  rcases setUserCustomerGrants_cases faults user.id customerIDs _ db ⟨user, mem, rfl⟩ with
    ⟨granted, ran, faultFree, known, users, list⟩ | ⟨⟨err, ran⟩, failed⟩
  · rw [ran]
    exact Or.inl ⟨⟨faultFree, known⟩, users, list⟩
  · rw [ran]
    refine Or.inr ⟨failed, ?_⟩
    cases err <;> rfl

section

variable [PrintTable] (normalize : String → String) (actor : Option Uuid) (id : Uuid) (now : Int)
variable (createFaults grantFaults : Faults StoreError)

/-- What an invitation with grants does to the tables: nothing, only the user, or
    the user with the requested grants. -/
theorem inviteUser_cases {req : InviteUserRequest} {customerIDs : List Uuid} {db : UserTables}
    (nonAdmin : req.role ≠ roleAdmin) (grants : req.customerIds = some customerIDs)
    (nonempty : customerIDs ≠ []) :
    let after := (inviteUser normalize actor id now createFaults grantFaults req db).2
    let user := invitedUser id (normalize req.email) req.role now
    (CreationFails user.email req.role id createFaults db ∧ after = db) ∨
    ¬ CreationFails user.email req.role id createFaults db ∧
      (¬ GrantsSucceed customerIDs grantFaults db ∧ Added user db after ∨
      GrantsSucceed customerIDs grantFaults db ∧ after.users = db.users ++ [user] ∧
        ∀ customerID, customerID ∈ after.listUserCustomerIDs id ↔ customerID ∈ customerIDs) := by
  intro after user
  simp only [after, inviteUser]
  by_cases badEmail : normalize req.email = "" ∨ '@' ∉ (normalize req.email).toList
  · rw [if_pos badEmail]
    exact Or.inl ⟨badEmail.elim Or.inl fun noAt => Or.inr (Or.inl noAt), rfl⟩
  rw [if_neg badEmail]
  by_cases unknownRole : ¬ known req.role
  · rw [if_pos unknownRole]
    exact Or.inl ⟨Or.inr (Or.inr (Or.inl unknownRole)), rfl⟩
  rw [if_neg unknownRole]
  rcases createInvitedUser_cases createFaults user
      (inviteEntry actor id (normalize req.email) req.role) db with
    ⟨⟨created, ran, added⟩, faultFree, fresh⟩ | ⟨⟨err, ran⟩, reason⟩
  · rw [ran]
    have creation : ¬ CreationFails user.email req.role id createFaults db := by
      rintro (empty | noAt | unknown | taken | faulty)
      · exact badEmail (Or.inl empty)
      · exact badEmail (Or.inr noAt)
      · exact unknownRole unknown
      · exact fresh taken
      · exact faulty faultFree
    refine Or.inr ⟨creation, ?_⟩
    have mem : user ∈ created.users := by
      rw [added.1]
      exact List.mem_append_right _ (List.mem_singleton.mpr rfl)
    have sameCondition : GrantsSucceed customerIDs grantFaults created ↔
        GrantsSucceed customerIDs grantFaults db := by
      rw [GrantsSucceed, GrantsSucceed, added.2.1]
    rw [grants, Option.getD_some]
    rcases @grantInvited_cases grantFaults actor user customerIDs created nonAdmin nonempty mem with
      ⟨succeed, users, list⟩ | ⟨failed, unchanged⟩
    · exact Or.inr ⟨sameCondition.mp succeed, users.trans added.1, list⟩
    · refine Or.inl ⟨fun succeed => failed (sameCondition.mpr succeed), ?_⟩
      rw [unchanged]
      exact added
  · rw [ran]
    refine Or.inl ⟨Or.inr (Or.inr (Or.inr reason)), ?_⟩
    cases err <;> rfl

/-- The new user is scoped exactly as asked for if and only if no user was
    created or the grants transaction went through. -/
theorem invite_exact_iff {req : InviteUserRequest} {customerIDs : List Uuid} {db : UserTables}
    (nonAdmin : req.role ≠ roleAdmin) (grants : req.customerIds = some customerIDs)
    (nonempty : customerIDs ≠ []) :
    NeverWidens db (inviteUser normalize actor id now createFaults grantFaults req db).2
        (normalize req.email) customerIDs ↔
      CreationFails (normalize req.email) req.role id createFaults db ∨
        GrantsSucceed customerIDs grantFaults db := by
  have notAdmin : atLeast req.role roleAdmin = false := by
    rw [Bool.eq_false_iff]
    exact fun admin => nonAdmin (atLeast_admin_iff.mp admin)
  have cases := @inviteUser_cases _ normalize actor id now createFaults grantFaults req customerIDs db nonAdmin grants
    nonempty
  generalize (inviteUser normalize actor id now createFaults grantFaults req db).2 = after at cases ⊢
  let user := invitedUser id (normalize req.email) req.role now
  rcases cases with
    ⟨fails, unchanged⟩ | ⟨creation, ⟨failed, added⟩ | ⟨succeed, users, list⟩⟩
  · rw [unchanged]
    exact iff_of_true (fun user mem same old => absurd same (old user mem)) (Or.inl fails)
  · -- the user is there, has no grants and so has access to everything
    refine iff_of_false (fun exact => ?_) (fun either => either.elim creation failed)
    have fresh : ∀ old ∈ db.users, old.id ≠ id ∧ old.email ≠ normalize req.email := by
      intro old mem
      constructor
      · exact fun same => creation (Or.inr (Or.inr (Or.inr (Or.inl ⟨old, mem, Or.inl same⟩))))
      · exact fun same => creation (Or.inr (Or.inr (Or.inr (Or.inl ⟨old, mem, Or.inr same⟩))))
    have noGrants : after.listUserCustomerIDs id = [] := by
      refine List.eq_nil_iff_forall_not_mem.mpr fun customerID granted => ?_
      rw [mem_listUserCustomerIDs, added.2.2] at granted
      obtain ⟨owner, mem, same⟩ := db.grants_user _ granted
      exact (fresh owner mem).1 same
    have mem : user ∈ after.users := by
      rw [added.1]
      exact List.mem_append_right _ (List.mem_singleton.mpr rfl)
    exact not_exactAccess_of_no_grants rfl noGrants
      (exact user mem rfl fun old mem => (fresh old mem).2)
  · refine iff_of_true (fun user mem same old => ?_) (Or.inr succeed)
    rw [users] at mem
    rcases List.mem_append.mp mem with before | new
    · exact absurd same (old user before)
    · rw [List.mem_singleton.mp new]
      exact exactAccess_of_grants notAdmin list nonempty

end

/-! ## An unknown customer -/

def noFaults : Faults StoreError := fun _ => none

def emptyTables : UserTables := ⟨[], [], [], [], by simp, by simp⟩

def strayInvite : InviteUserRequest := ⟨"eve@globex.example", roleViewer, some [⟨7⟩]⟩

attribute [local instance] asciiPrintTable

theorem strayInvite_exact_iff : strayInvite.role ≠ roleAdmin ∧ strayInvite.customerIds = some [⟨7⟩] ∧
    ([⟨7⟩] : List Uuid) ≠ [] ∧
    (NeverWidens emptyTables (inviteUser id none ⟨1⟩ 0 noFaults noFaults strayInvite emptyTables).2
        "eve@globex.example" [⟨7⟩] ↔
      CreationFails "eve@globex.example" roleViewer ⟨1⟩ noFaults emptyTables ∨
        GrantsSucceed [⟨7⟩] noFaults emptyTables) :=
  ⟨by decide, rfl, by decide, invite_exact_iff id none ⟨1⟩ 0 noFaults noFaults (by decide) rfl (by decide)⟩

/-- The invitation is answered with an error, and the user it left has access to
    every customer. -/
theorem strayInvite_widens :
    ¬ NeverWidens emptyTables (inviteUser id none ⟨1⟩ 0 noFaults noFaults strayInvite emptyTables).2
      "eve@globex.example" [⟨7⟩] := by
  intro exact
  have access := exact (invitedUser ⟨1⟩ "eve@globex.example" roleViewer 0) (by decide) rfl (by decide)
  exact absurd access.1 (by decide)

end OtelFleet.Verified.Invitation
