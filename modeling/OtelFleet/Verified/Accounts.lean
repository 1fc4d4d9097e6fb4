import OtelFleet.Data.Rows
import OtelFleet.Scim.Users
import OtelFleet.Semantics.Run
import OtelFleet.Verified.Invitation

/-! # One account per email

Users come from invitations, from SCIM and from logins.  The key on
`users.email` compares byte for byte, so one person has one account only as long
as every path writes the email with the same case.
-/

namespace OtelFleet.Verified.Accounts

open Api Auth Data Scim Semantics Store
open Verified.Invitation

/-! ## The ways to an account -/

structure AccountEnv where
  text : CaseMap
  adminEmails : List String
  scimRole : String

inductive Action where
  | invite (actor : Option Uuid) (id : Uuid) (now : Int) (createFaults grantFaults : Faults StoreError)
      (req : InviteUserRequest)
  | provision (id : Uuid) (now : Int) (faults : Faults StoreError) (payload : UserPayload)
  | login (info : ProviderInfo) (flow : Flow) (call : LoginCall)

section

variable [PrintTable] (env : AccountEnv)

def act (db : AccountTables) : Action → AccountTables
  | .invite actor id now createFaults grantFaults req =>
    db.withUsers (inviteUser env.text.normalize actor id now createFaults grantFaults req db.toUserTables).2
  | .provision id now faults payload => (createUser env.text env.scimRole id now faults payload db).2
  | .login info flow call => (Auth.login env.text env.adminEmails info flow call db).2

def Step (db : AccountTables) (action : Action) (next : AccountTables) : Prop := next = act env db action

end

/-! ## What is claimed of them -/

variable {db : AccountTables} {login : VerifiedLogin}

section

variable (env : AccountEnv)

def emails (db : UserTables) : List String := db.users.map User.email

/-- No two rows have the same email, ignoring case. -/
def OnePerEmail (db : UserTables) : Prop := ((emails db).map env.text.toLower).Nodup

def Known (db : AccountTables) (login : VerifiedLogin) : Prop :=
  ∃ identity ∈ db.identities, identity.provider = login.identityKey ∧ identity.subject = login.subject

/-- The login belongs to this user, who has kept role and grants, and no account
    was created. -/
structure AttachedTo (user : User) (login : VerifiedLogin) (db next : AccountTables) : Prop where
  identity : ⟨user.id, login.identityKey, login.subject⟩ ∈ next.identities
  accounts : next.users.map User.id = db.users.map User.id
  role : ∀ after ∈ next.users, after.id = user.id → after.role = user.role
  grants : next.grants = db.grants

/-- A login with a new identity and the email of a user, ignoring case, is
    attached to this user. -/
def Attaches (db : AccountTables) (action : Action) (next : AccountTables) : Prop :=
  ∀ info flow call login, action = .login info flow call → flow.verify env.text info = .ok login →
    (∀ n, call.faults n = none) → ¬ Known db login →
    ∀ user ∈ db.users, env.text.EqualFold user.email login.email → AttachedTo user login db next

/-! ## The condition -/

/-- Wherever the email is stored, ignoring case, it is stored in this spelling. -/
def Spelled (db : UserTables) (email : String) : Prop :=
  ∀ user ∈ db.users, env.text.EqualFold user.email email → user.email = email

def Adds [PrintTable] (db : AccountTables) (action : Action) : Prop :=
  emails (act env db action).toUserTables ≠ emails db.toUserTables

/-- A step that adds an account, and a login, brings its email in the stored spelling,
    and the email of an admin belongs to a user who is an admin already. -/
def Consistent [PrintTable] (db : AccountTables) (action : Action) : Prop :=
  match action with
  | .invite _ _ _ _ _ req => Adds env db action → Spelled env db.toUserTables (env.text.normalize req.email)
  | .provision _ _ _ payload =>
    Adds env db action → Spelled env db.toUserTables (env.text.normalize (payload.primaryEmail env.text))
  | .login info flow _ =>
    ∀ login, flow.verify env.text info = .ok login → ¬ Known db login →
      Spelled env db.toUserTables login.email ∧
        ∀ user ∈ db.users, user.email = login.email → isAdminEmail env.text env.adminEmails login.email →
          user.role = roleAdmin

/-! ## What a step does to the emails -/

def Grown (db after : UserTables) (email : String) : Prop :=
  emails after = emails db ∨ email ∉ emails db ∧ emails after = emails db ++ [email]

theorem mem_emails {db : UserTables} {email : String} : email ∈ emails db ↔ ∃ user ∈ db.users, user.email = email := by
  simp [emails]

variable {env}

theorem OnePerEmail.of_emails {db after : UserTables} (unique : OnePerEmail env db)
    (kept : emails after = emails db) : OnePerEmail env after := by
  rwa [OnePerEmail, kept]

theorem OnePerEmail.grown {db after : UserTables} {email : String} (unique : OnePerEmail env db)
    (grown : Grown db after email) (spelled : emails after ≠ emails db → Spelled env db email) :
    OnePerEmail env after := by
  rcases grown with kept | ⟨fresh, added⟩
  · exact unique.of_emails kept
  · have isSpelled := spelled (by simp [added])
    rw [OnePerEmail, added, List.map_append, List.nodup_append]
    refine ⟨unique, by simp, ?_⟩
    -- an email that folds to the new one would be the new one, which is fresh
    intro folded mem other new same
    obtain ⟨stored, storedMember, rfl⟩ := List.mem_map.mp mem
    obtain ⟨user, userMember, rfl⟩ := mem_emails.mp storedMember
    rw [List.map_cons, List.map_nil, List.mem_singleton] at new
    have equalFold : env.text.EqualFold user.email email := same.trans new
    exact fresh (isSpelled user userMember equalFold ▸ storedMember)

variable {user : User}

theorem grown_insertUser {db after : UserTables} (inserted : db.insertUser user = .ok after) :
    Grown db after user.email := by
  rcases insertUser_cases db user with ⟨⟨tables, res, added⟩, fresh⟩ | ⟨⟨err, refused⟩, _⟩
  · rw [inserted, Except.ok.injEq] at res
    subst res
    refine Or.inr ⟨fun mem => ?_, by rw [emails, emails, added.1, List.map_append, List.map_singleton]⟩
    obtain ⟨other, otherMember, same⟩ := mem_emails.mp mem
    exact fresh ⟨other, otherMember, Or.inr same⟩
  · rw [inserted] at refused
    cases refused

/-! ### Invitations -/

theorem users_checkUser {db after : UserTables} {userID : Uuid} (checked : db.checkUser userID = .ok after) :
    after.users = db.users := by
  unfold UserTables.checkUser at checked
  split at checked
  · cases checked
    rfl
  · cases checked

theorem users_insertGrant {db after : UserTables} {grant : Grant} (inserted : db.insertGrant grant = .ok after) :
    after.users = db.users := by
  unfold UserTables.insertGrant at inserted
  split at inserted
  · cases inserted
    rfl
  · split at inserted
    · split at inserted
      · cases inserted
        rfl
      · cases inserted
    · cases inserted

variable (faults : Faults StoreError)

theorem users_setUserCustomerGrants (userID : Uuid) (customerIDs : List Uuid) (entry : AuditEntry) (db : UserTables) :
    (setUserCustomerGrants faults userID customerIDs entry db).2.users = db.users := by
  refine inTx_keeps (fun statement mem db after res => ?_) faults db
  simp only [grantStatements, grantInserts, List.mem_append, List.mem_cons, List.mem_map, List.not_mem_nil,
    or_false] at mem
  obtain ((rfl | rfl) | ⟨customerID, _, rfl⟩) | rfl := mem
  · exact users_checkUser res
  · cases res
    rfl
  · exact users_insertGrant res
  · cases res
    rfl

variable (actor : Option Uuid)

theorem users_setUserGrants (userID : Uuid) (customerIDs : List Uuid) (db : UserTables) :
    (setUserGrants faults actor userID customerIDs db).2.users = db.users := by
  unfold setUserGrants
  dsimp only
  split <;> rename_i ran <;>
    exact (congrArg (fun outcome => outcome.2.users) ran).symm.trans (users_setUserCustomerGrants ..)

theorem users_grantInvited (user : User) (customerIDs : List Uuid) (db : UserTables) :
    (grantInvited faults actor user customerIDs db).2.users = db.users := by
  unfold grantInvited
  split
  · rw [← users_setUserGrants faults actor user.id customerIDs db]
    split <;> simp only [*]
  · rfl

theorem grown_inviteUser [PrintTable] (normalize : String → String) (actor : Option Uuid) (id : Uuid) (now : Int)
    (createFaults grantFaults : Faults StoreError) (req : InviteUserRequest) (db : UserTables) :
    Grown db (inviteUser normalize actor id now createFaults grantFaults req db).2 (normalize req.email) := by
  unfold inviteUser
  dsimp only
  split
  · exact Or.inl rfl
  · split
    · exact Or.inl rfl
    · rcases createInvitedUser_cases createFaults (invitedUser id (normalize req.email) req.role now)
          (inviteEntry actor id (normalize req.email) req.role) db with
        ⟨⟨created, ran, added⟩, _, fresh⟩ | ⟨⟨err, ran⟩, _⟩
      · rw [ran]
        refine Or.inr ⟨fun mem => ?_, ?_⟩
        · obtain ⟨other, otherMember, same⟩ := mem_emails.mp mem
          exact fresh ⟨other, otherMember, Or.inr same⟩
        · dsimp only
          rw [emails, users_grantInvited, added.1, List.map_append]
          rfl
      · rw [ran]
        cases err <;> exact Or.inl rfl

/-! ### SCIM -/

variable {after : AccountTables}

theorem grown_insertSCIMUser (inserted : db.insertSCIMUser user = .ok after) :
    Grown db.toUserTables after.toUserTables user.email := by
  unfold AccountTables.insertSCIMUser at inserted
  cases res : db.insertUser user with
  | error err => cases err <;> simp [res] at inserted
  | ok tables =>
    simp only [res] at inserted
    split at inserted
    · cases inserted
    · cases inserted
      exact grown_insertUser res

theorem grown_createSCIMUser (user : User) (entries : List AuditEntry) (db : AccountTables) :
    Grown db.toUserTables (createSCIMUser faults user entries db).2.toUserTables user.email := by
  unfold createSCIMUser
  rcases inTx_cases faults [fun db => db.insertSCIMUser user, fun db => .ok (db.writeAccountAudit entries)] db with
    ⟨committed, res, left⟩ | ⟨err, left⟩
  · rw [left]
    cases inserted : db.insertSCIMUser user with
    | error err => simp [runAll, inserted, bind, Except.bind] at res
    | ok after =>
      simp only [runAll, List.foldlM_cons, inserted, bind, Except.bind, List.foldlM_nil, pure, Except.pure,
        Except.ok.injEq] at res
      subst res
      have grown := grown_insertSCIMUser inserted
      exact grown
  · rw [left]
    exact Or.inl rfl

theorem grown_createUser (text : CaseMap) (configured : String) (id : Uuid) (now : Int) (faults : Faults StoreError)
    (payload : UserPayload) (db : AccountTables) :
    Grown db.toUserTables (createUser text configured id now faults payload db).2.toUserTables
      (text.normalize (payload.primaryEmail text)) := by
  unfold createUser
  dsimp only
  split
  · exact Or.inl rfl
  · generalize userIs : provisionedUser text (defaultRole configured) id now payload = user
    have email : user.email = text.normalize (payload.primaryEmail text) := by
      rw [← userIs]
      rfl
    have grown := grown_createSCIMUser faults user [createEntry user] db
    split <;> simpa only [*] using grown

/-! ### Logins -/

theorem emails_insertIdentity {identity : Identity}
    (inserted : db.insertIdentity identity = .ok after) : emails after.toUserTables = emails db.toUserTables := by
  unfold AccountTables.insertIdentity at inserted
  split at inserted
  · cases inserted
  · split at inserted
    · cases inserted
      rfl
    · cases inserted

theorem emails_stampLogin {id : Uuid} {role : String} {now : Int}
    (stampedRow : db.stampLogin id role now = .ok after) : emails after.toUserTables = emails db.toUserTables := by
  unfold AccountTables.stampLogin at stampedRow
  split at stampedRow
  · cases stampedRow
    simp [emails]
  · cases stampedRow

theorem emails_attach {login : LoginRow} {user : User} {db committed : AccountTables}
    (res : runAll (login.attachStatements user) db = .ok committed) :
    emails committed.toUserTables = emails db.toUserTables := by
  refine @runAll_keeps _ _ _ (fun db : AccountTables => emails db.toUserTables) _ ?_ _ _ res
  intro statement mem db after ran
  simp only [LoginRow.attachStatements, List.mem_cons, List.not_mem_nil, or_false] at mem
  rcases mem with rfl | rfl
  · exact emails_insertIdentity ran
  · exact emails_stampLogin ran

theorem grown_insertLoginUser (inserted : db.insertLoginUser user = .ok after) :
    Grown db.toUserTables after.toUserTables user.email := by
  unfold AccountTables.insertLoginUser at inserted
  cases res : db.insertUser user with
  | error err => simp [res] at inserted
  | ok tables =>
    simp only [res, Except.ok.injEq] at inserted
    subst inserted
    exact grown_insertUser res

theorem userByIdentity_of_unknown (unknown : ¬ Known db login) :
    db.userByIdentity login.identityKey login.subject = none := by
  have absent : db.identities.find? (fun identity =>
      identity.provider = login.identityKey ∧ identity.subject = login.subject) = none := by
    rw [List.find?_eq_none]
    intro identity mem matching
    exact unknown ⟨identity, mem, by simpa using matching⟩
  rw [AccountTables.userByIdentity, absent, Option.bind_none]

theorem userByIdentity_of_known (known : Known db login) :
    ∃ user, db.userByIdentity login.identityKey login.subject = some user := by
  obtain ⟨identity, mem, matching⟩ := known
  obtain ⟨found, foundIs⟩ : ∃ found, db.identities.find? (fun identity =>
      identity.provider = login.identityKey ∧ identity.subject = login.subject) = some found :=
    Option.isSome_iff_exists.mp (List.find?_isSome.mpr ⟨identity, mem, decide_eq_true matching⟩)
  obtain ⟨owner, ownerMember, same⟩ := db.identities_user found (List.mem_of_find?_eq_some foundIs)
  obtain ⟨user, userIs⟩ : ∃ user, db.users.find? (fun user => user.id = found.userID) = some user :=
    Option.isSome_iff_exists.mp (List.find?_isSome.mpr ⟨owner, ownerMember, decide_eq_true same⟩)
  exact ⟨user, by rw [AccountTables.userByIdentity, foundIs, Option.bind_some, userIs]⟩

theorem upsert_tables (login : LoginRow) (db : AccountTables) :
    (upsertUserByIdentity faults login db).2 = (inTx faults (login.resolve db).2 db).2 := by
  unfold upsertUserByIdentity
  cases (login.resolve db) with
  | mk user statements =>
    dsimp only
    cases inTx faults statements db with
    | mk outcome after => cases outcome <;> rfl

theorem finish_tables (text : CaseMap) (adminEmails : List String) (call : LoginCall) (login : VerifiedLogin)
    (db : AccountTables) : (finish text adminEmails call login db).2 =
      (upsertUserByIdentity call.faults (loginRow text adminEmails call login) db).2 := by
  unfold finish
  cases upsertUserByIdentity call.faults (loginRow text adminEmails call login) db with
  | mk outcome after =>
    cases outcome with
    | error err => rfl
    | ok user =>
      dsimp only
      split
      · rfl
      · split <;> rfl

/-- A login adds an email only if its identity is new and no user has this very
    email. -/
theorem grown_upsert (login : LoginRow) (db : AccountTables) :
    let after := (upsertUserByIdentity faults login db).2
    emails after.toUserTables = emails db.toUserTables ∨
      db.userByIdentity login.provider login.subject = none ∧
        Grown db.toUserTables after.toUserTables login.email := by
  intro after
  have tables : after = (inTx faults (login.resolve db).2 db).2 := upsert_tables faults login db
  rcases inTx_cases faults (login.resolve db).2 db with ⟨committed, res, left⟩ | ⟨err, left⟩
  · rw [left] at tables
    subst tables
    revert res
    unfold LoginRow.resolve
    cases identity : db.userByIdentity login.provider login.subject with
    | some user =>
      intro res
      refine Or.inl (@runAll_keeps _ _ _ (fun db : AccountTables => emails db.toUserTables) _ ?_ _ _ res)
      intro statement mem db after ran
      simp only [List.mem_cons, List.not_mem_nil, or_false] at mem
      rcases mem with rfl | rfl
      · cases ran
        rfl
      · exact emails_stampLogin ran
    | none =>
      cases email : db.userByEmail login.email with
      | some user =>
        intro res
        exact Or.inl (@emails_attach login user db after res)
      | none =>
        intro res
        have unfolded : (db.insertLoginUser login.newUser).bind (runAll (login.attachStatements login.newUser)) =
            .ok after := res
        cases inserted : db.insertLoginUser login.newUser with
        | error err =>
          rw [inserted] at unfolded
          cases unfolded
        | ok next =>
          rw [inserted] at unfolded
          have grown := grown_insertLoginUser inserted
          have kept := emails_attach unfolded
          refine Or.inr ⟨rfl, ?_⟩
          rw [Grown, kept]
          exact grown
  · rw [left] at tables
    exact Or.inl (by rw [tables])

/-! ## Attaching an identity -/

theorem runAll_attach {login : LoginRow} {user : User} {db : AccountTables} (mem : user ∈ db.users)
    (fresh : ¬ ∃ other ∈ db.identities, other.provider = login.provider ∧ other.subject = login.subject) :
    ∃ after, runAll (login.attachStatements user) db = .ok after ∧
      after.users = db.users.map (AccountTables.stamped user.id (login.roleOf user) login.now) ∧
      after.grants = db.grants ∧ after.identities = db.identities ++ [⟨user.id, login.provider, login.subject⟩] := by
  have present : ∃ other ∈ db.users, other.id = user.id := ⟨user, mem, rfl⟩
  simp only [LoginRow.attachStatements, runAll, List.foldlM_cons, AccountTables.insertIdentity, if_neg fresh,
    dif_pos present, bind, Except.bind, AccountTables.stampLogin, if_pos present]
  exact ⟨_, rfl, rfl, rfl, rfl⟩

theorem userByEmail_of_mem (unique : OnePerEmail env db.toUserTables)
    (mem : user ∈ db.users) : db.userByEmail user.email = some user :=
  find?_of_mem (List.Nodup.of_map _ unique) mem

theorem attachedTo_upsert (unique : OnePerEmail env db.toUserTables) {call : LoginCall}
    (faultFree : ∀ n, call.faults n = none) (unknown : ¬ Known db login) (mem : user ∈ db.users)
    (spelled : user.email = login.email)
    (admin : isAdminEmail env.text env.adminEmails login.email → user.role = roleAdmin) : AttachedTo user login db
      (upsertUserByIdentity call.faults (loginRow env.text env.adminEmails call login) db).2 := by
  let row := loginRow env.text env.adminEmails call login
  have found : db.userByEmail row.email = some user := by
    have byEmail := userByEmail_of_mem unique mem
    rwa [spelled] at byEmail
  have unknownRow : db.userByIdentity row.provider row.subject = none := userByIdentity_of_unknown unknown
  have resolved : row.resolve db = (user, [.ok, .ok] ++ row.attachStatements user) := by
    rw [LoginRow.resolve, unknownRow, found]
  obtain ⟨after, res, users, grants, identities⟩ := @runAll_attach row user db mem unknown
  have committed : (inTx call.faults (row.resolve db).2 db).2 = after := by
    have ran : inTx call.faults ([.ok, .ok] ++ row.attachStatements user) db = (.ok (), after) :=
      inTx_ok (fun n _ => faultFree n) res
    rw [resolved, ran]
  have role : row.roleOf user = user.role := by
    unfold LoginRow.roleOf
    split
    next forced =>
      -- the role is forced only where the email is an admin's
      have listed : isAdminEmail env.text env.adminEmails login.email := by
        by_contra notListed
        have viewer : row.roleIfNew = roleViewer := if_neg notListed
        rw [viewer] at forced
        exact absurd forced (by decide)
      exact (admin listed).symm
    next => rfl
  rw [upsert_tables, committed]
  refine ⟨?_, ?_, ?_, grants⟩
  · rw [identities]
    exact List.mem_append_right _ (List.mem_singleton.mpr rfl)
  · simp [users]
  · intro other otherMember sameID
    rw [users] at otherMember
    obtain ⟨old, _, rfl⟩ := List.mem_map.mp otherMember
    rw [AccountTables.stamped_id] at sameID
    simp [AccountTables.stamped, sameID, role]

end

/-! ## Runs -/

section

variable [PrintTable] (env : AccountEnv)

theorem act_login {info : ProviderInfo} {flow : Flow} {call : LoginCall}
    (verified : flow.verify env.text info = .ok login) : act env db (.login info flow call) =
      (upsertUserByIdentity call.faults (loginRow env.text env.adminEmails call login) db).2 := by
  rw [act, Auth.login, verified]
  exact finish_tables ..

section

variable {next : AccountTables} {action : Action} (unique : OnePerEmail env db.toUserTables)
  (consistent : Consistent env db action) (step : Step env db action next)
include unique consistent step

theorem onePerEmail_step : OnePerEmail env next.toUserTables := by
  subst step
  cases action with
  | invite actor id now createFaults grantFaults req =>
    exact unique.grown (grown_inviteUser _ actor id now createFaults grantFaults req db.toUserTables) consistent
  | provision id now faults payload =>
    exact unique.grown (grown_createUser env.text env.scimRole id now faults payload db) consistent
  | login info flow call =>
    cases verified : flow.verify env.text info with
    | error refusal =>
      rw [act, Auth.login, verified]
      exact unique
    | ok login =>
      rw [act_login env verified]
      rcases grown_upsert call.faults (loginRow env.text env.adminEmails call login) db with kept | ⟨new, grown⟩
      · exact unique.of_emails kept
      · have unknown : ¬ Known db login := by
          intro known
          obtain ⟨user, found⟩ := userByIdentity_of_known known
          exact Option.some_ne_none user (found.symm.trans new)
        exact unique.grown grown fun _ => (consistent login verified unknown).1

theorem attaches_step : Attaches env db action next := by
  rintro info flow call login rfl verified faultFree unknown user mem equalFold
  obtain ⟨spelled, admin⟩ := consistent login verified unknown
  have sameEmail := spelled user mem equalFold
  rw [step, act_login env verified]
  exact attachedTo_upsert unique faultFree unknown mem sameEmail (admin user mem sameEmail)

end

end

/-! ## An invited user who logs in with a capital letter -/

def ssoOnly : AccountEnv := ⟨.ascii, [], roleViewer⟩

def noAccounts : AccountTables := ⟨emptyTables, [], by simp⟩

def bobInvited : Action := .invite none ⟨1⟩ 0 noFaults noFaults ⟨"bob@acme.example", roleOperator, none⟩

def bobLogin (email : String) : Action :=
  .login ⟨.google, "google"⟩ (.oidc ⟨"1042", email, some true, "Bob"⟩) ⟨⟨2⟩, 5, noFaults, false⟩

attribute [local instance] asciiPrintTable

def bobAccounts : AccountTables := act ssoOnly noAccounts bobInvited

end OtelFleet.Verified.Accounts
