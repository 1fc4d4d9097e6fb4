import OtelFleet.Semantics.Alone
import OtelFleet.Verified.GroupConvergence

/-! # Access follows membership after every request

Requests on groups one after the other, where store calls may fail.  A request that
changes the names of users derives the access of these users before it is answered; the
exception is a patch whose second transaction fails.
-/

namespace OtelFleet.Verified.GroupRequests

open Api Scim Semantics Semantics.Session Store Store.Directory
open Auth(Refusal)
open Verified.DerivedAccess Verified.GroupChanges Verified.GroupTransactions
open Verified.GroupConvergence

structure Ledger where
  db : Directory
  commits : List (List Mark) := []

/-- The last derivation of the user has skipped the demotion of the last enabled admin. -/
def Spared (commits : List (List Mark)) (userID : Uuid) : Prop :=
  ∃ before held after, commits = before ++ held :: after ∧ .demotionSkipped userID ∈ held ∧
    ∀ other ∈ after, .recomputing userID ∉ other

structure Call where
  request : GroupRequest
  faults : GroupFaults

def Ledger.after (env : GroupEnv) (ledger : Ledger) (call : Call) : Ledger :=
  let solo := (call.request.program env call.faults).alone id [] ledger.db
  ⟨solo.committed, ledger.commits ++ solo.commits⟩

def Step (env : GroupEnv) (ledger : Ledger) (call : Call) (next : Ledger) : Prop := next = ledger.after env call

/-! ## One transaction -/

section

variable {mapping : SCIMMapping} {mayFail : Prop} {commits : List (List Mark)} {held : List Mark} {db after : Directory} {userID : Uuid}

theorem spared_append (spared : Spared commits userID) (unnoted : .recomputing userID ∉ held) : Spared (commits ++ [held]) userID := by
  obtain ⟨before, skipping, rest, rfl, skipped, noMore⟩ := spared
  exact ⟨before, skipping, rest ++ [held], by simp, skipped, Data.forall_mem_append_row noMore unnoted⟩

def ReadsCurrent (held : List Mark) (now : Directory) : Prop :=
  ∀ userID names, .namesRead userID names ∈ held → names = now.groupNames userID

theorem readsCurrent_more (held marks : List Mark) (now : Directory) (reads : ReadsCurrent held now)
    (noted : (promise mapping mayFail).notes held marks now) : ReadsCurrent (held ++ marks) now := by
  intro userID names isRead
  rcases List.mem_append.mp isRead with isOld | isNew
  · exact reads userID names isOld
  · exact (noted.reads userID names isNew).1

theorem settled_commit {owed : Mark → Prop} (reads : ReadsCurrent held db) (given : Gives mapping held owed db after)
    (sameNames : after.groupNames userID = db.groupNames userID)
    (before : .recomputing userID ∉ held → Settled mapping (Spared commits userID) db userID) :
    Settled mapping (Spared (commits ++ [held]) userID) after userID := by
  by_cases derivesNow : .recomputing userID ∈ held
  · obtain ⟨names, isRead, settles⟩ := given.settles userID derivesNow
    refine (settles (reads userID names isRead)).weaken fun skipped => ?_
    exact ⟨commits, held, [], rfl, skipped, fun _ member => (nomatch member)⟩
  · have settled := (before derivesNow).congr (given.access userID (Or.inr derivesNow)) sameNames given.customers
    exact settled.weaken fun spared => spared_append spared derivesNow

end

def SettledBut (mapping : SCIMMapping) (others : Uuid → Prop) (ledger : Ledger) : Prop :=
  ∀ userID, ¬ others userID → Settled mapping (Spared ledger.commits userID) ledger.db userID

/-- Between two transactions, all users but some have the access of their groups. -/
structure Reaches {α : Type} (mapping : SCIMMapping) (others : Uuid → Prop) (commits : List (List Mark))
    (solo : Solo Directory Mark α) : Prop where
  pending : solo.pending = id
  held : solo.held = []
  settled : SettledBut mapping others ⟨solo.committed, commits ++ solo.commits⟩

variable {ledger : Ledger} {affected : List Uuid}

section

variable {α β : Type} {env : GroupEnv} {mapping : SCIMMapping} {others : Uuid → Prop} {commits : List (List Mark)} {db : Directory}

theorem reaches_pure (settled : SettledBut mapping others ⟨db, commits⟩) (value : α) :
    Reaches mapping others commits ((pure value : DirectorySession α).alone id [] db) := by
  refine ⟨rfl, rfl, ?_⟩
  change SettledBut mapping others ⟨db, commits ++ []⟩
  rw [List.append_nil]
  exact settled

variable {others' : Uuid → Prop}

theorem reaches_following {start : Solo Directory Mark β} {next : β → DirectorySession α}
    (reaches : Reaches mapping others commits start)
    (rest : SettledBut mapping others ⟨start.committed, commits ++ start.commits⟩ →
      Reaches mapping others' (commits ++ start.commits) ((next start.value).alone id [] start.committed)) :
    Reaches mapping others' commits (start.following next) := by
  have reachesRest := rest reaches.settled
  simp only [Solo.following]
  rw [reaches.pending, reaches.held]
  refine ⟨reachesRest.pending, reachesRest.held, ?_⟩
  have settled := reachesRest.settled
  rw [List.append_assoc] at settled
  exact settled

variable {owed : β → Mark → Prop}

theorem transacts_alone {session : DirectorySession (Except StoreError β)}
    (transacts : Transacts (fun _ => True) Rely (promise mapping False) Idle owed session) (db : Directory) :
    ∃ held, ReadsCurrent held db ∧ (∀ mark, Will False mark session → mark ∈ held) ∧
      Transacted (promise mapping False) owed held db (session.alone id [] db) :=
  transacts.alone rely_refl readsCurrent_more trivial fun _ _ isRead => (nomatch isRead)

theorem reaches_recomputeOne (settled : SettledBut env.mapping others ⟨db, commits⟩) (userID : Uuid) :
    Reaches env.mapping (fun other => others other ∧ other ≠ userID) commits
      ((recomputeSCIMUserAccess env.mapping userID).alone id [] db) := by
  obtain ⟨held, reads, notes, transacted⟩ := transacts_alone (transacts_recompute env.known_defaultRole userID) db
  have noted := notes (.recomputing userID) (will_recomputeSCIMUserAccess env.mapping userID)
  revert transacted
  generalize (recomputeSCIMUserAccess env.mapping userID).alone id [] db = solo
  intro transacted
  cases transacted with
  | committed given =>
    rename_i after
    refine ⟨rfl, rfl, ?_⟩
    intro other outside
    have sameNames : after.groupNames other = db.groupNames other := by
      by_contra changed
      exact given.names other changed
    refine settled_commit reads given sameNames ?_
    intro unnoted
    apply settled
    intro isOther
    apply outside
    refine ⟨isOther, ?_⟩
    rintro rfl
    exact unnoted noted
  | refused lost =>
    refine ⟨rfl, rfl, ?_⟩
    intro other outside
    rw [List.append_nil]
    by_cases isUser : other = userID
    · -- there is no such user
      intro row found
      rw [isUser, lost userID noted] at found
      cases found
    · exact settled other fun isOther => outside ⟨isOther, isUser⟩

theorem SettledBut.weaken (settled : SettledBut mapping others ledger)
    (implies : ∀ userID, others userID → others' userID) : SettledBut mapping others' ledger :=
  fun userID outside => settled userID fun isOther => outside (implies userID isOther)

theorem Reaches.weaken {solo : Solo Directory Mark α} (reaches : Reaches mapping others commits solo)
    (implies : ∀ userID, others userID → others' userID) : Reaches mapping others' commits solo :=
  ⟨reaches.pending, reaches.held, reaches.settled.weaken implies⟩

theorem reaches_recompute (settled : SettledBut env.mapping others ⟨db, commits⟩) (users : List Uuid) :
    Reaches env.mapping (fun other => others other ∧ other ∉ users) commits ((recompute env users).alone id [] db) := by
  induction users generalizing others commits db with
  | nil => exact (reaches_pure settled ()).weaken fun _ isOther => ⟨isOther, List.not_mem_nil⟩
  | cons userID rest ih =>
    rw [recompute, alone_bind]
    refine reaches_following (reaches_recomputeOne settled userID) ?_
    intro settledThen
    apply (ih settledThen).weaken
    rintro other ⟨⟨isOther, notFirst⟩, notRest⟩
    exact ⟨isOther, List.not_mem_cons_of_ne_of_not_mem notFirst notRest⟩

theorem reaches_answer (settled : SettledBut env.mapping others ⟨db, commits⟩) {users : List Uuid}
    (all : ∀ userID, others userID → userID ∈ users) (value : α) :
    Reaches env.mapping (fun _ => False) commits ((recompute env users >>= fun _ => (pure value : DirectorySession α)).alone id [] db) := by
  rw [alone_bind]
  refine reaches_following (reaches_recompute settled users) ?_
  intro settledThen
  apply reaches_pure
  apply settledThen.weaken
  exact fun userID ⟨isOther, notUser⟩ => notUser (all userID isOther)

theorem reaches_call {call : DirectorySession (Except StoreError β)}
    (transacts : Transacts (fun _ => True) Rely (promise mapping False) Idle owed call) (fault : Option StoreError)
    {next : Except StoreError β → DirectorySession α} (settled : SettledBut mapping others ⟨db, commits⟩)
    (refused : ∀ err, fault = some err ∨ (call.alone id [] db).value = .error err →
      Reaches mapping others' commits ((next (.error err)).alone id [] db))
    (affects : ∀ value commits', fault = none → (call.alone id [] db).value = .ok value →
      SettledBut mapping
        (fun userID => others userID ∨ owed value (.recomputing userID)) ⟨(call.alone id [] db).committed, commits'⟩ →
          Reaches mapping others' commits' ((next (.ok value)).alone id [] (call.alone id [] db).committed)) :
    Reaches mapping others' commits ((storeCall fault call >>= next).alone id [] db) := by
  cases fault with
  | some err => exact refused err (Or.inl rfl)
  | none =>
    obtain ⟨held, reads, _, transacted⟩ := transacts_alone transacts db
    change Reaches mapping others' commits ((call >>= next).alone id [] db)
    rw [alone_bind]
    revert transacted refused affects
    generalize call.alone id [] db = solo
    intro refused affects transacted
    cases transacted with
    | committed given =>
      rename_i value after
      have settledThen : SettledBut mapping (fun userID => others userID ∨ owed value (.recomputing userID))
          ⟨after, commits ++ [held]⟩ := by
        intro userID outside
        obtain ⟨notOther, notOwed⟩ := not_or.mp outside
        have sameNames : after.groupNames userID = db.groupNames userID := by
          by_contra changed
          exact notOwed (given.names userID changed)
        exact settled_commit reads given sameNames fun _ => settled userID notOther
      exact reaches_following ⟨rfl, rfl, settledThen⟩ fun settledAgain => affects value _ rfl rfl settledAgain
    | refused lost =>
      rename_i err
      have same : SettledBut mapping others ⟨db, commits ++ []⟩ := by
        rw [List.append_nil]
        exact settled
      refine reaches_following ⟨rfl, rfl, same⟩ fun _ => ?_
      rw [List.append_nil]
      exact refused err (Or.inr rfl)

theorem mem_of_owedTo {userID : Uuid} (owed : owedTo affected (.recomputing userID)) : userID ∈ affected := by
  obtain ⟨owner, member, same⟩ := owed
  cases same
  exact member

end

/-! ## The two transactions of a patch -/

section

variable {groupID : Uuid} {db : Directory}

theorem rename_alone {before : SCIMGroup} (found : db.group? groupID = some before) (name : String) :
    ((updateSCIMGroup groupID (some name) none none).alone id [] db).value =
        .ok (affectedByUpdate before (some name) none (db.membersOf groupID)).dedup ∧
      ((updateSCIMGroup groupID (some name) none none).alone id [] db).committed =
        db.changeGroup groupID (newColumns (some name) none) := by
  simp only [updateSCIMGroup, alone_inTx, alone_bind, selectGroupForUpdate, alone_execute, Solo.following, found, loadGroupMembers,
    execUpdateGroup, externalTaken, ne_eq, not_true_eq_false, false_and, if_false, replaceIfGiven, id_eq, alone_pure, finish, alone]
  exact ⟨trivial, rfl⟩

theorem rename_alone_missing (missing : db.group? groupID = none) (name : String) :
    ((updateSCIMGroup groupID (some name) none none).alone id [] db).value = .error .notFound := by
  simp only [updateSCIMGroup, alone_inTx, alone_bind, selectGroupForUpdate, alone_execute, Solo.following, missing, id_eq,
    alone_pure, finish, alone]

theorem users_addMember (db : Directory) (member : GroupMember) : (db.addMember member).users = db.users := by
  unfold addMember
  split <;> rfl

theorem insertGroupMembers_alone {users : List Uuid} {pending : Directory → Directory} {held : List Mark}
    (exist : ∀ userID ∈ users, ((pending db).user? userID).isSome = true) :
    ((insertGroupMembers groupID users).alone pending held db).value = .ok () := by
  induction users generalizing pending held with
  | nil => rfl
  | cons userID rest ih =>
    have isUser := exist userID List.mem_cons_self
    simp only [insertGroupMembers, insertGroupMember, alone_bind, alone_execute, isUser, if_true]
    apply ih
    intro other member
    simp only [user?, users_addMember]
    exact exist other (List.mem_cons_of_mem _ member)

theorem modify_alone {group : SCIMGroup} (found : db.group? groupID = some group) {add : List Uuid}
    (exist : ∀ userID ∈ add, (db.user? userID).isSome = true) (remove : List Uuid) :
    ∃ more, ((modifySCIMGroupMembers groupID add remove).alone id [] db).value = .ok more := by
  have inserted : ((insertGroupMembers groupID add).alone (fun db => db) ([] ++ groupLock .forUpdate groupID db) db).value = .ok () :=
    insertGroupMembers_alone exist
  simp only [modifySCIMGroupMembers, alone_inTx, alone_bind, selectGroupForUpdate, alone_execute, Solo.following, found, id_eq,
    inserted]
  exact ⟨_, rfl⟩

end

/-! ## Requests -/

/-- The second transaction of a patch goes through, if the first one has affected users. -/
def Completes (env : GroupEnv) (ledger : Ledger) (call : Call) : Prop :=
  match call.request with
  | .patch id operations =>
    let patch := parsePatch env operations
    splits env call.request = true → call.faults .update = none → ∀ before ∈ ledger.db.group? id,
      affectedByUpdate before patch.newDisplayName none (ledger.db.membersOf id) ≠ [] →
        call.faults .modify = none ∧ ∀ userID ∈ patch.add, (ledger.db.user? userID).isSome = true
  | .create _ _ | .put _ _ | .delete _ => True

section

variable {env : GroupEnv} {faults : GroupFaults} {commits : List (List Mark)} {db : Directory}

abbrev AllSettled (env : GroupEnv) (ledger : Ledger) : Prop := SettledBut env.mapping (fun _ => False) ledger

theorem reaches_derived {call : DirectorySession (Except StoreError (List Uuid))}
    (transacts : Transacts (fun _ => True) Rely (promise env.mapping False) Idle owedTo call) (fault : Option StoreError)
    {next : Except StoreError (List Uuid) → DirectorySession (Except Refusal Unit)} (settled : AllSettled env ⟨db, commits⟩)
    (rederives : Rederives env next) :
    Reaches env.mapping (fun _ => False) commits ((storeCall fault call >>= next).alone id [] db) := by
  apply reaches_call transacts fault settled
  · intro err _
    obtain ⟨refusal, isRefusal⟩ := rederives.refuses err
    rw [isRefusal]
    exact reaches_pure settled _
  · intro affected commits' _ _ settledThen
    obtain ⟨users, all, isNext⟩ := rederives.derives affected
    rw [isNext]
    exact reaches_answer settledThen (fun userID affects => all userID (mem_of_owedTo (affects.resolve_left id))) _

theorem reaches_loadGroup (settled : AllSettled env ⟨db, commits⟩) (groupID : Uuid) :
    Reaches env.mapping (fun _ => False) commits ((loadGroup faults groupID).alone id [] db) := by
  apply reaches_call (transacts_getSCIMGroup groupID) (faults .get) settled
  · intro err _
    cases err with
    | notFound | _ => exact reaches_pure settled _
  · intro _ commits' _ _ settledThen
    exact reaches_pure (settledThen.weaken fun _ left => left.elim id id) _

theorem reaches_patchMembers {others : Uuid → Prop} (settled : SettledBut env.mapping others ⟨db, commits⟩) {groupID : Uuid}
    {patch : GroupPatch} (all : ∀ userID, others userID → userID ∈ affected)
    (refused : ∀ err, faults .modify = some err ∨
      ((modifySCIMGroupMembers groupID patch.add patch.remove).alone id [] db).value = .error err → AllSettled env ⟨db, commits⟩) :
    Reaches env.mapping (fun _ => False) commits ((patchMembers env faults groupID patch affected).alone id [] db) := by
  apply reaches_call (transacts_modifySCIMGroupMembers groupID patch.add patch.remove) (faults .modify) settled
  · exact fun err fails => reaches_pure (refused err fails) _
  · intro more commits' _ _ settledThen
    refine reaches_answer settledThen ?_ _
    intro userID affects
    rw [env.mem_order, List.mem_dedup]
    exact List.mem_append.mpr (affects.imp (all userID) mem_of_owedTo)

theorem reaches_patchParts (settled : AllSettled env ⟨db, commits⟩) {groupID : Uuid} {patch : GroupPatch}
    (completes : patch.newDisplayName.isSome = true → patch.changesMembers = true → faults .update = none →
      ∀ before ∈ db.group? groupID, affectedByUpdate before patch.newDisplayName none (db.membersOf groupID) ≠ [] →
        faults .modify = none ∧ ∀ userID ∈ patch.add, (db.user? userID).isSome = true) :
    Reaches env.mapping (fun _ => False) commits ((patchParts env faults groupID patch).alone id [] db) := by
  unfold patchParts
  cases isName : patch.newDisplayName with
  | none =>
    dsimp only
    split
    · exact reaches_patchMembers settled (fun _ left => left.elim) fun _ _ => settled
    · exact reaches_loadGroup settled groupID
  | some name =>
    apply reaches_call (transacts_updateSCIMGroup groupID (some name) none none) (faults .update) settled
    · exact fun err _ => reaches_pure settled _
    intro affected commits' noFault isOk settledThen
    have isAffected : ∀ userID, False ∨ owedTo affected (.recomputing userID) → userID ∈ affected :=
      fun userID owed => mem_of_owedTo (owed.resolve_left id)
    dsimp only
    split
    · rename_i changes
      apply reaches_patchMembers settledThen isAffected
      intro err fails
      -- the first transaction went through, so there is the group
      cases found : db.group? groupID with
      | none =>
        rw [rename_alone_missing found] at isOk
        cases isOk
      | some before =>
        obtain ⟨isValue, isCommitted⟩ := rename_alone found name
        cases isValue.symm.trans isOk
        by_cases nobody : affectedByUpdate before (some name) none (db.membersOf groupID) = []
        · -- the new name affects nobody
          apply settledThen.weaken
          intro userID owed
          have member := isAffected userID owed
          rw [nobody] at member
          cases member
        · obtain ⟨noModifyFault, exist⟩ := completes (by rw [isName]; rfl) changes noFault before found (by rw [isName]; exact nobody)
          rcases fails with fault | isError
          · rw [noModifyFault] at fault
            cases fault
          · -- and so does the second one
            rw [isCommitted] at isError
            have foundThen : (db.changeGroup groupID (newColumns (some name) none)).group? groupID =
                some (regrouped groupID (newColumns (some name) none) before) := by
              rw [group?, changeGroup, Data.find?_map_rows (regrouped_id groupID _)]
              exact congrArg (Option.map _) found
            obtain ⟨more, isMore⟩ := modify_alone foundThen exist patch.remove
            cases isMore.symm.trans isError
    · refine reaches_answer settledThen ?_ _
      exact fun userID owed => (env.mem_order affected userID).mpr (isAffected userID owed)

theorem reaches_program {call : Call} (settled : AllSettled env ledger) (completes : Completes env ledger call) :
    Reaches env.mapping (fun _ => False) ledger.commits ((call.request.program env call.faults).alone id [] ledger.db) := by
  obtain ⟨req, faults⟩ := call
  cases req with
  | create groupID payload =>
    simp only [GroupRequest.program, createGroup]
    split
    · exact reaches_pure settled _
    · exact reaches_derived (transacts_createSCIMGroup _ _) (faults .create) settled
        ⟨fun _ => ⟨_, rfl⟩, fun members => ⟨members, fun _ => id, rfl⟩⟩
  | put groupID payload =>
    exact reaches_derived (transacts_updateSCIMGroup _ _ _ _) (faults .update) settled (rederives_ordered env)
  | delete groupID =>
    exact reaches_derived (transacts_deleteSCIMGroup groupID) (faults .delete) settled (rederives_deleted env)
  | patch groupID operations =>
    simp only [GroupRequest.program, patchGroup]
    cases replace : (parsePatch env operations).replaceMembers with
    | none =>
      apply reaches_patchParts settled
      intro renames changes
      exact completes (by simp [splits, replace, renames, changes])
    | some members =>
      exact reaches_derived (transacts_updateSCIMGroup _ _ _ _) (faults .update) settled (rederives_ordered env)

end

theorem allSettled_iff {env : GroupEnv} : AllSettled env ledger ↔
      ∀ user ∈ ledger.db.users, user.scimManaged = true → Follows env.mapping (Spared ledger.commits user.id) ledger.db user := by
  constructor
  · exact fun settled user member => settled user.id id user (mem_users_iff.mp member)
  · intro follows userID _ user found managed
    obtain rfl := user?_id found
    exact follows user (List.mem_of_find?_eq_some found) managed

/-- After every request, whether it succeeded or not, the role and the grants of every
    managed user are those of the groups, but for a user whose last derivation has skipped
    the demotion of the last enabled admin; as long as the second transaction of a patch
    goes through. -/
theorem access_follows (env : GroupEnv) {start last : Ledger} {calls : List Call}
    (settled : ∀ user ∈ start.db.users, user.scimManaged = true →
      Follows env.mapping (Spared start.commits user.id) start.db user)
    (run : Run (Restricted (Completes env) (Step env)) start calls last) :
    ∀ user ∈ last.db.users, user.scimManaged = true → Follows env.mapping (Spared last.commits user.id) last.db user := by
  apply allSettled_iff.mp
  apply run.invariant _ (allSettled_iff.mpr settled)
  rintro ledger call _ ⟨completes, rfl⟩ settledBefore
  exact (reaches_program settledBefore completes).settled

def oneMember : Directory :=
  { oneUser with
    users := [⟨⟨1⟩, "a", none, roleOperator, none, none, none, 0, true⟩]
    members := [⟨⟨7⟩, ⟨1⟩⟩] }

theorem oneMember_follows (skipped : Prop) :
    ∀ user ∈ oneMember.users, user.scimManaged = true → Follows plainEnv.mapping skipped oneMember user := by
  intro user member _
  rw [List.mem_singleton.mp member]
  constructor
  · exact Or.inl (derivedRole_role plainEnv.mapping ["r:operator"])
  · intro customerID
    rw [derivedGrant_iff]
    constructor
    · intro isGrant
      cases isGrant
    · rintro ⟨slug, isSlug, _⟩
      cases isSlug

def newName (member : String) : Call :=
  ⟨.patch ⟨7⟩ [⟨"replace", "displayname", ⟨some "r:viewer", [], none⟩⟩, ⟨"add", "members", ⟨none, [member], none⟩⟩], fun _ => none⟩

theorem newName_follows :
    Completes plainEnv ⟨oneMember, []⟩ (newName "1") ∧
      ∀ user ∈ ((⟨oneMember, []⟩ : Ledger).after plainEnv (newName "1")).db.users, user.scimManaged = true →
        Follows plainEnv.mapping (Spared ((⟨oneMember, []⟩ : Ledger).after plainEnv (newName "1")).commits user.id)
          ((⟨oneMember, []⟩ : Ledger).after plainEnv (newName "1")).db user := by
  have completes : Completes plainEnv ⟨oneMember, []⟩ (newName "1") := fun _ _ _ _ _ => ⟨rfl, by decide⟩
  exact ⟨completes, access_follows plainEnv (fun user => oneMember_follows _ user) (.step ⟨completes, rfl⟩ (.refl _))⟩

/-- The new member does not exist: the request is answered with 404, the new name is
    stored, and the role is still that of the old name. -/
theorem newName_unknown_member :
    (∀ user ∈ oneMember.users, user.scimManaged = true → Follows plainEnv.mapping False oneMember user) ∧
      (((newName "2").request.program plainEnv (newName "2").faults).alone id [] oneMember).value =
        .error ⟨404, "group not found or member is not a known user"⟩ ∧
      ∃ user ∈ ((⟨oneMember, []⟩ : Ledger).after plainEnv (newName "2")).db.users, user.scimManaged = true ∧
        ¬ Follows plainEnv.mapping True ((⟨oneMember, []⟩ : Ledger).after plainEnv (newName "2")).db user := by
  refine ⟨oneMember_follows False, rfl, ⟨⟨1⟩, "a", none, roleOperator, none, none, none, 0, true⟩, by decide, rfl, ?_⟩
  intro follows
  have names : ((⟨oneMember, []⟩ : Ledger).after plainEnv (newName "2")).db.groupNames ⟨1⟩ = ["r:viewer"] := by decide
  rcases follows.role with (⟨⟨_, name, isName, _, isRole⟩, _⟩ | ⟨_, isDefault⟩) | ⟨_, isAdmin⟩
  · rw [names] at isName
    rw [List.mem_singleton.mp isName] at isRole
    revert isRole
    decide
  · revert isDefault
    decide
  · revert isAdmin
    decide

end OtelFleet.Verified.GroupRequests
