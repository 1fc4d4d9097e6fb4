import OtelFleet.Verified.GroupTransactions

/-! # Concurrent changes of groups converge

When all requests have finished, the access of every managed user is that of the final
groups.  A user whose names have changed is derived later, by the request that changed
them.  A derivation that has read old names commits before that, because it has locked
the row of the user; so its result does not last.
-/

namespace OtelFleet.Verified.GroupConvergence

open Api Auth Scim Semantics Semantics.Session Store
open Store.Directory
open Verified.DerivedAccess Verified.GroupChanges Verified.GroupTransactions

/-! ## The requests -/

variable (env : GroupEnv)

/-- A patch that sets the name and changes members does so in two transactions. -/
def splits : GroupRequest → Bool
  | .patch _ operations =>
    let patch := parsePatch env operations
    patch.replaceMembers.isNone && patch.newDisplayName.isSome && patch.changesMembers
  | .create _ _ | .put _ _ | .delete _ => false

/-- The users whose names such a patch has changed are derived unless the second
    transaction is rolled back. -/
def promiseOf (req : GroupRequest) : Promise Directory Mark :=
  promise env.mapping (splits env req = true)

def program (req : GroupRequest) : DirectorySession (Except Refusal Unit) := req.program env fun _ => none

section

variable {env : GroupEnv} {mayFail : Prop} {userID : Uuid} {users : List Uuid}

theorem will_recomputeSCIMUserAccess (mapping : SCIMMapping) (userID : Uuid) :
    Will mayFail (.recomputing userID) (recomputeSCIMUserAccess mapping userID) :=
  fun _ => Or.inl (List.mem_append_right _ List.mem_cons_self)

theorem will_recompute (mem : userID ∈ users) : Will mayFail (.recomputing userID) (recompute env users) := by
  induction users with
  | nil => cases mem
  | cons first rest ih =>
    rcases List.mem_cons.mp mem with rfl | isRest
    · exact Will.bind (will_recomputeSCIMUserAccess env.mapping userID) _
    · exact will_bind _ fun _ => ih isRest

theorem triple_recompute (users : List Uuid) : GroupTriple env.mapping mayFail Idle (recompute env users) fun _ => Idle := by
  induction users with
  | nil => exact triple_pure stable_idle fun _ _ _ _ idle => idle
  | cons first rest ih =>
    exact Triple.bind rely_refl (transacts_recompute env.known_defaultRole first).triple fun _ => ih

theorem triple_answer {α : Type} (value : α) : GroupTriple env.mapping mayFail Idle (pure value) fun _ => Idle :=
  triple_pure stable_idle fun _ _ _ _ idle => idle

variable {affected : List Uuid}

theorem will_recompute_answer (all : ∀ userID ∈ affected, userID ∈ users) (mark : Mark) (owed : owedTo affected mark) :
    Will mayFail mark (recompute env users >>= fun _ => (pure (.ok ()) : DirectorySession (Except Refusal Unit))) := by
  obtain ⟨userID, mem, rfl⟩ := owed
  exact Will.bind (will_recompute (all userID mem)) _

/-- After its store call a handler refuses, or derives all who are affected. -/
structure Rederives (env : GroupEnv) (next : Except StoreError (List Uuid) → DirectorySession (Except Refusal Unit)) : Prop where
  refuses : ∀ err, ∃ refusal, next (.error err) = pure (.error refusal)
  derives : ∀ affected, ∃ users, (∀ userID ∈ affected, userID ∈ users) ∧
    next (.ok affected) = recompute env users >>= fun _ => pure (.ok ())

theorem rederives_ordered (env : GroupEnv) :
    Rederives env fun
      | .error err => return .error (handleGroupWriteErr err)
      | .ok affected => do
        recompute env (env.order affected)
        return .ok () where
  refuses _ := ⟨_, rfl⟩
  derives affected := ⟨env.order affected, fun userID mem => (env.mem_order affected userID).mpr mem, rfl⟩

theorem rederives_deleted (env : GroupEnv) :
    Rederives env fun
      | .error .notFound => return .error ⟨404, "group not found"⟩
      | .error _ => return .error ⟨500, "internal error"⟩
      | .ok formerMembers => do
        recompute env formerMembers
        return .ok () where
  refuses err := by cases err <;> exact ⟨_, rfl⟩
  derives formerMembers := ⟨formerMembers, fun _ => id, rfl⟩

theorem triple_derived {call : DirectorySession (Except StoreError (List Uuid))}
    (transacts : Transacts (fun _ => True) Rely (promise env.mapping mayFail) Idle owedTo call)
    {next : Except StoreError (List Uuid) → DirectorySession (Except Refusal Unit)} (rederives : Rederives env next) :
    GroupTriple env.mapping mayFail Idle (call >>= next) fun _ => Idle := by
  apply transacts.bind
  · intro affected mark owed
    obtain ⟨users, all, isNext⟩ := rederives.derives affected
    rw [isNext]
    exact will_recompute_answer all mark owed
  · intro res
    cases res with
    | error err =>
      obtain ⟨refusal, isRefusal⟩ := rederives.refuses err
      rw [isRefusal]
      exact triple_answer _
    | ok affected =>
      obtain ⟨users, _, isNext⟩ := rederives.derives affected
      rw [isNext]
      exact Triple.bind rely_refl (triple_recompute users) fun _ => triple_answer _

variable (id : Uuid)

theorem triple_loadGroup : GroupTriple env.mapping mayFail Idle (loadGroup (fun _ => none) id) fun _ => Idle := by
  apply (transacts_getSCIMGroup _).bind
  · exact fun _ _ owed => owed.elim
  · intro res
    cases res with
    | error err => cases err <;> exact triple_answer _
    | ok _ => exact triple_answer _

theorem triple_patchMembers (patch : GroupPatch) (affected : List Uuid) :
    GroupTriple env.mapping mayFail Idle (patchMembers env (fun _ => none) id patch affected) fun _ => Idle := by
  apply triple_derived (transacts_modifySCIMGroupMembers _ _ _) ⟨fun _ => ⟨_, rfl⟩, fun more => ⟨_, ?_, rfl⟩⟩
  intro userID mem
  rw [env.mem_order, List.mem_dedup]
  exact List.mem_append_right _ mem

theorem will_patchMembers (fails : mayFail) (id : Uuid) (patch : GroupPatch) (mark : Mark)
    (owed : owedTo affected mark) : Will mayFail mark (patchMembers env (fun _ => none) id patch affected) := by
  apply will_inTx_bind fails
  intro more
  refine will_recompute_answer ?_ mark owed
  intro userID mem
  rw [env.mem_order, List.mem_dedup]
  exact List.mem_append_left _ mem

theorem triple_patchParts (patch : GroupPatch)
    (fails : patch.newDisplayName.isSome = true → patch.changesMembers = true → mayFail) :
    GroupTriple env.mapping mayFail Idle (patchParts env (fun _ => none) id patch) fun _ => Idle := by
  unfold patchParts
  cases name : patch.newDisplayName with
  | none =>
    dsimp only
    split
    · exact triple_patchMembers id patch []
    · exact triple_loadGroup id
  | some newName =>
    rw [name] at fails
    dsimp only
    split
    · rename_i changes
      apply (transacts_updateSCIMGroup _ _ _ _).bind
      · exact fun affected mark => will_patchMembers (fails rfl changes) id patch mark
      · intro res
        cases res with
        | error err => exact triple_answer _
        | ok affected => exact triple_patchMembers id patch affected
    · exact triple_derived (transacts_updateSCIMGroup _ _ _ _) (rederives_ordered env)

theorem triple_program (req : GroupRequest) :
    Triple (fun _ => True) Rely (promiseOf env req) Idle (program env req) fun _ => Idle := by
  cases req with
  | create id payload =>
    simp only [program, GroupRequest.program, createGroup]
    split
    · exact triple_answer _
    · exact triple_derived (transacts_createSCIMGroup _ _) ⟨fun _ => ⟨_, rfl⟩, fun members => ⟨members, fun _ mem => mem, rfl⟩⟩
  | put id payload => exact triple_derived (transacts_updateSCIMGroup _ _ _ _) (rederives_ordered env)
  | delete id => exact triple_derived (transacts_deleteSCIMGroup id) (rederives_deleted env)
  | patch id operations =>
    simp only [program, GroupRequest.program, patchGroup]
    cases replace : (parsePatch env operations).replaceMembers with
    | none =>
      apply triple_patchParts
      intro renames changes
      simp [splits, replace, renames, changes]
    | some members =>
      exact triple_derived (transacts_updateSCIMGroup _ _ _ _) (rederives_ordered env)

end

/-! ## Runs -/

abbrev GroupSessions := Sessions Directory Mark GroupRequest (Except Refusal Unit)

def demotionSkipped? : Mark → Option Uuid
  | .demotionSkipped userID => some userID
  | _ => none

/-- No patch that splits is rolled back, and a demotion is skipped only for the excepted
    users. -/
def Ordinary (excepted : Uuid → Prop) (system : GroupSessions) : Sessions.Event GroupRequest → Prop
  | .start _ => True
  | .advance i => ∀ job ∈ system.jobs[i]?, (job.rollsBack = true → splits env job.purpose = false) ∧
      (job.commits = true → ∀ mark ∈ job.held, ∀ userID ∈ demotionSkipped? mark, excepted userID)

instance (env : GroupEnv) (excepted : Uuid → Prop) [DecidablePred excepted] (system : GroupSessions) :
    (event : Sessions.Event GroupRequest) → Decidable (Ordinary env excepted system event)
  | .start _ => isTrue trivial
  | .advance i => inferInstanceAs (Decidable (∀ job ∈ system.jobs[i]?, (job.rollsBack = true → splits env job.purpose = false) ∧
      (job.commits = true → ∀ mark ∈ job.held, ∀ userID ∈ demotionSkipped? mark, excepted userID)))

/-- Also, the members of a group are not written while a deletion that has read them is
    open. -/
def Allowed (excepted : Uuid → Prop) (system : GroupSessions) (event : Sessions.Event GroupRequest) : Prop :=
  Sessions.Respects MembersAlone system event ∧ Ordinary env excepted system event

instance (env : GroupEnv) (excepted : Uuid → Prop) [DecidablePred excepted] (system : GroupSessions)
    (event : Sessions.Event GroupRequest) : Decidable (Allowed env excepted system event) :=
  inferInstanceAs (Decidable (Sessions.Respects MembersAlone system event ∧ Ordinary env excepted system event))

def Step : GroupSessions → Sessions.Event GroupRequest → GroupSessions → Prop :=
  Sessions.Step (program env) Mark.conflicts

section

variable {env : GroupEnv} {excepted : Uuid → Prop} {system next : GroupSessions} {userID : Uuid}

abbrev Keeping (env : GroupEnv) (system : GroupSessions) : Prop :=
  Sessions.Keeping MembersAlone (fun _ => True) Rely (promiseOf env) system

/-- A user that there is: the access follows the groups, or a derivation is to come, or
    one is under way that has not read old names; and after one that has read old names
    another one is to come. -/
structure Converging (env : GroupEnv) (excepted : Uuid → Prop) (system : GroupSessions) (userID : Uuid) : Prop where
  exist : (system.committed.user? userID).isSome = true
  locked : ∀ job ∈ system.jobs, ∀ names, .namesRead userID names ∈ job.held → .lock (.user userID) .forUpdate ∈ job.held
  stale : ∀ job ∈ system.jobs, ∀ names, .namesRead userID names ∈ job.held → names ≠ system.committed.groupNames userID →
    system.Awaits (promiseOf env) (.recomputing userID)
  current : Settled env.mapping (excepted userID) system.committed userID ∨ system.Awaits (promiseOf env) (.recomputing userID) ∨
    ∃ job ∈ system.jobs, .recomputing userID ∈ job.held ∧
      ∀ names, .namesRead userID names ∈ job.held → names = system.committed.groupNames userID

theorem converging_start (converging : Converging env excepted system userID) (req : GroupRequest) :
    Converging env excepted (system.start (program env) req) userID := by
  -- the new job holds no marks
  have old : ∀ job ∈ (system.start (program env) req).jobs, ∀ mark ∈ job.held, job ∈ system.jobs := by
    intro job mem mark isMark
    rcases List.mem_append.mp mem with isOld | isNew
    · exact isOld
    · rw [List.mem_singleton.mp isNew] at isMark
      cases isMark
  refine ⟨converging.exist, ?_, ?_, ?_⟩
  · exact fun job mem names isRead => converging.locked job (old job mem _ isRead) names isRead
  · exact fun job mem names isRead stale =>
      Sessions.awaits_start (converging.stale job (old job mem _ isRead) names isRead stale) req
  · rcases converging.current with settled | awaits | ⟨job, mem, derivesNow⟩
    · exact Or.inl settled
    · exact Or.inr (Or.inl (Sessions.awaits_start awaits req))
    · exact Or.inr (Or.inr ⟨job, List.mem_append_left _ mem, derivesNow⟩)

section

variable {i : Nat} {job job' : Job Directory Mark GroupRequest (Except Refusal Unit)}

theorem converging_waits (keepingNext : Keeping env next) (moved : Sessions.Moved system next i job job') {marks : List Mark}
    (same : next.committed = system.committed) (held : job'.held = job.held ++ marks) (noted : Notes job.held marks system.committed)
    (awaitsThen : system.Awaits (promiseOf env) (.recomputing userID) →
      next.Awaits (promiseOf env) (.recomputing userID) ∨ .recomputing userID ∈ marks)
    (converging : Converging env excepted system userID) : Converging env excepted next userID := by
  have isJob : job ∈ system.jobs := List.mem_of_getElem? moved.found
  -- names that the job has read are old ones, or current
  have readBefore : ∀ names, .namesRead userID names ∈ job'.held →
      .namesRead userID names ∈ job.held ∨ names = system.committed.groupNames userID ∧ .lock (.user userID) .forUpdate ∈ job.held := by
    intro names isRead
    rw [held] at isRead
    exact (List.mem_append.mp isRead).imp_right (noted.reads userID names)
  have locked : ∀ other ∈ next.jobs, ∀ names, .namesRead userID names ∈ other.held → .lock (.user userID) .forUpdate ∈ other.held := by
    intro other mem names isRead
    rcases moved.cases mem with rfl | ⟨j, _, isOther, _⟩
    · rw [held]
      apply List.mem_append_left
      rcases readBefore names isRead with before | ⟨_, locked⟩
      · exact converging.locked job isJob names before
      · exact locked
    · exact converging.locked other (List.mem_of_getElem? isOther) names isRead
  refine ⟨?_, locked, ?_, ?_⟩
  · rw [same]
    exact converging.exist
  · intro other mem names isRead stale
    rw [same] at stale
    have awaits : system.Awaits (promiseOf env) (.recomputing userID) := by
      rcases moved.cases mem with rfl | ⟨j, _, isOther, _⟩
      · rcases readBefore names isRead with before | ⟨current, _⟩
        · exact converging.stale job isJob names before stale
        · exact absurd current stale
      · exact converging.stale other (List.mem_of_getElem? isOther) names isRead stale
    rcases awaitsThen awaits with awaitsNext | isNoted
    · exact awaitsNext
    · -- a derivation of the same user cannot begin now
      obtain ⟨unread, locks⟩ := noted.begins userID isNoted
      rw [← held] at unread locks
      rcases moved.cases mem with rfl | ⟨j, distinct, _, isOther⟩
      · exact absurd isRead (unread names)
      · have apart := keepingNext.apart i j job' other (Ne.symm distinct) moved.self isOther
        exact absurd (locks converging.exist) (not_locked_of_apart apart (locked other mem names isRead))
  · rw [same]
    rcases converging.current with settled | awaits | ⟨other, mem, derivesNow, current⟩
    · exact Or.inl settled
    · rcases awaitsThen awaits with awaitsNext | isNoted
      · exact Or.inr (Or.inl awaitsNext)
      · refine Or.inr (Or.inr ⟨job', List.mem_of_getElem? moved.self, ?_, ?_⟩)
        · rw [held]
          exact List.mem_append_right _ isNoted
        · intro names isRead
          rw [held] at isRead
          exact absurd isRead ((noted.begins userID isNoted).1 names)
    · rcases moved.stays mem with rfl | stays
      · refine Or.inr (Or.inr ⟨job', List.mem_of_getElem? moved.self, ?_, ?_⟩)
        · rw [held]
          exact List.mem_append_left _ derivesNow
        · intro names isRead
          rcases readBefore names isRead with before | ⟨isCurrent, _⟩
          · exact current names before
          · exact isCurrent
      · exact Or.inr (Or.inr ⟨other, stays, derivesNow, current⟩)

theorem converging_ends (moved : Sessions.Moved system next i job job') (held : job'.held = [])
    (exist : (next.committed.user? userID).isSome = true)
    (stale : next.committed.groupNames userID ≠ system.committed.groupNames userID →
      next.Awaits (promiseOf env) (.recomputing userID))
    (awaitsThen : system.Awaits (promiseOf env) (.recomputing userID) → next.Awaits (promiseOf env) (.recomputing userID))
    (settled : next.committed.groupNames userID = system.committed.groupNames userID → .recomputing userID ∉ job.held →
      Settled env.mapping (excepted userID) system.committed userID → Settled env.mapping (excepted userID) next.committed userID)
    (derived : next.committed.groupNames userID = system.committed.groupNames userID → .recomputing userID ∈ job.held →
      Settled env.mapping (excepted userID) next.committed userID ∨
        ∃ names, .namesRead userID names ∈ job.held ∧ names ≠ system.committed.groupNames userID)
    (converging : Converging env excepted system userID) : Converging env excepted next userID := by
  have isJob : job ∈ system.jobs := List.mem_of_getElem? moved.found
  -- the job that moved holds no marks
  have old : ∀ other ∈ next.jobs, ∀ mark ∈ other.held, other ∈ system.jobs := by
    intro other mem mark isMark
    rcases moved.cases mem with rfl | ⟨j, _, isOther, _⟩
    · rw [held] at isMark
      cases isMark
    · exact List.mem_of_getElem? isOther
  refine ⟨exist, ?_, ?_, ?_⟩
  · exact fun other mem names isRead => converging.locked other (old other mem _ isRead) names isRead
  · intro other mem names isRead isStale
    by_cases same : next.committed.groupNames userID = system.committed.groupNames userID
    · rw [same] at isStale
      exact awaitsThen (converging.stale other (old other mem _ isRead) names isRead isStale)
    · exact stale same
  · by_cases same : next.committed.groupNames userID = system.committed.groupNames userID
    · have ends : .recomputing userID ∈ job.held → Settled env.mapping (excepted userID) next.committed userID ∨
          next.Awaits (promiseOf env) (.recomputing userID) := by
        intro derivesNow
        rcases derived same derivesNow with isSettled | ⟨names, isRead, isStale⟩
        · exact Or.inl isSettled
        · exact Or.inr (awaitsThen (converging.stale job isJob names isRead isStale))
      by_cases derivesNow : .recomputing userID ∈ job.held
      · exact (ends derivesNow).imp_right Or.inl
      · rcases converging.current with isSettled | awaits | ⟨other, mem, otherDerives, current⟩
        · exact Or.inl (settled same derivesNow isSettled)
        · exact Or.inr (Or.inl (awaitsThen awaits))
        · rcases moved.stays mem with rfl | stays
          · exact absurd otherDerives derivesNow
          · rw [← same] at current
            exact Or.inr (Or.inr ⟨other, stays, otherDerives, current⟩)
    · exact Or.inr (Or.inl (stale same))

theorem converging_advance (keeping : Keeping env system) (keepingNext : Keeping env next)
    (step : Sessions.Step (program env) MembersAlone system (.advance i) next) (ordinary : Ordinary env excepted system (.advance i))
    (converging : Converging env excepted system userID) : Converging env excepted next userID := by
  obtain ⟨job, job', moved, outcome⟩ := keeping.step_outcome rely_refl step
  obtain ⟨noRollback, skips⟩ := ordinary job moved.found
  have awaitsThen : system.Awaits (promiseOf env) (.recomputing userID) → next.Awaits (promiseOf env) (.recomputing userID) ∨
      ∃ marks, .recomputing userID ∈ marks ∧ job'.held = job.held ++ marks := by
    intro awaits
    rcases Sessions.awaits_step moved outcome awaits with awaitsNext | ⟨marks, isNoted, held, _⟩ | ⟨isRollback, _, splitting⟩
    · exact Or.inl awaitsNext
    · exact Or.inr ⟨marks, isNoted, held⟩
    · -- such a patch is not rolled back
      have splitsToo : splits env job.purpose = true := splitting
      rw [noRollback isRollback] at splitsToo
      cases splitsToo
  -- a job that holds nothing has noted nothing
  have awaitsEnd : job'.held = [] → system.Awaits (promiseOf env) (.recomputing userID) →
      next.Awaits (promiseOf env) (.recomputing userID) := by
    intro empty awaits
    rcases awaitsThen awaits with awaitsNext | ⟨marks, isNoted, held⟩
    · exact awaitsNext
    · rw [empty] at held
      rw [(List.nil_eq_append_iff.mp held).2] at isNoted
      cases isNoted
  cases outcome with
  | waits marks _ same held noted _ =>
    refine converging_waits keepingNext moved same held noted ?_ converging
    intro awaits
    refine (awaitsThen awaits).imp_right ?_
    rintro ⟨others, isNoted, heldToo⟩
    rw [List.append_cancel_left (held.symm.trans heldToo)]
    exact isNoted
  | fails _ _ same held lost _ =>
    apply converging_ends moved held _ _ (awaitsEnd held) _ _ converging
    · rw [same]
      exact converging.exist
    · rw [same]
      exact fun changed => absurd rfl changed
    · rw [same]
      exact fun _ _ settled => settled
    · intro _ derivesNow
      have missing := lost userID derivesNow
      exact absurd missing (Option.isSome_iff_ne_none.mp converging.exist)
  | commits isCommit held given _ =>
    apply converging_ends moved held _ _ (awaitsEnd held) _ _ converging
    · rw [given.exist]
      exact converging.exist
    · intro changed
      refine ⟨job', List.mem_of_getElem? moved.self, ?_⟩
      rw [moved.samePurpose]
      exact given.names userID changed
    · exact fun same unnoted settled => settled.congr (given.access userID (Or.inr unnoted)) same given.customers
    · intro same derivesNow
      obtain ⟨names, isRead, settles⟩ := given.settles userID derivesNow
      by_cases current : names = system.committed.groupNames userID
      · exact Or.inl ((settles current).weaken fun skipped => skips isCommit _ skipped userID rfl)
      · exact Or.inr ⟨names, isRead, current⟩

end

theorem keeping_step {event : Sessions.Event GroupRequest} (keeping : Keeping env system)
    (step : Sessions.Step (program env) MembersAlone system event next) : Keeping env next := by
  apply keeping.stepped rely_refl rely_trans (fun _ _ conflict => conflict.imp LocksConflict.symm Or.symm) _ _ step
  · exact fun _ _ _ _ _ _ apart _ given => rely_of_gives apart given
  · exact fun req _ => (triple_program req).meets _ _ _ trivial ⟨rfl, rfl⟩

theorem run_converging {db : Directory} {events : List (Sessions.Event GroupRequest)} {last : GroupSessions}
    (run : Run (Restricted (Allowed env excepted) (Step env)) ⟨db, []⟩ events last)
    (settled : Settled env.mapping (excepted userID) db userID) :
    Keeping env last ∧ (last.committed.user? userID).isSome = (db.user? userID).isSome ∧
      ((db.user? userID).isSome = true → Converging env excepted last userID) := by
  apply run.invariant
  · rintro system event next ⟨⟨respects, ordinary⟩, step⟩ ⟨keeping, same, converging⟩
    have strict := Sessions.step_stricter ⟨respects, step⟩
    have keepingNext := keeping_step keeping strict
    cases event with
    | start req =>
      cases step
      exact ⟨keepingNext, same, fun exist => converging_start (converging exist) req⟩
    | advance i =>
      refine ⟨keepingNext, ?_, fun exist => converging_advance keeping keepingNext strict ordinary (converging exist)⟩
      obtain ⟨_, _, _, outcome⟩ := keeping.step_outcome rely_refl strict
      rw [← same]
      cases outcome with
      | waits _ _ unchanged _ _ _ | fails _ _ unchanged _ _ _ => rw [unchanged]
      | commits _ _ given _ => exact given.exist userID
  · exact ⟨Sessions.keeping_idle trivial, rfl, fun exist =>
      ⟨exist, fun _ mem => (nomatch mem), fun _ mem => (nomatch mem), Or.inl settled⟩⟩

end

/-- Where the members of a group are not written while a deletion that has read them is
    open: when all requests have finished, the role and the grants of every managed user
    are those of the final groups, but for the excepted users, whose demotion from admin
    may have been skipped. -/
theorem groups_converge (excepted : Uuid → Prop) {db : Directory}
    (settled : ∀ user ∈ db.users, user.scimManaged = true → Follows env.mapping (excepted user.id) db user)
    {events : List (Sessions.Event GroupRequest)} {last : GroupSessions}
    (run : Run (Restricted (Allowed env excepted) (Step env)) ⟨db, []⟩ events last)
    (returned : ∀ job ∈ last.jobs, job.rest.isDone = true) :
    ∀ user ∈ last.committed.users, user.scimManaged = true → Follows env.mapping (excepted user.id) last.committed user := by
  intro user mem managed
  have found := mem_users_iff.mp mem
  have settledUser : Settled env.mapping (excepted user.id) db user.id := by
    intro row isRow isManaged
    have follows := settled row (List.mem_of_find?_eq_some isRow) isManaged
    rw [user?_id isRow] at follows
    exact follows
  obtain ⟨keeping, exist, converging⟩ := run_converging run settledUser
  rw [found] at exist
  rcases (converging exist.symm).current with settledLast | awaits | ⟨job, isJob, derivesNow, _⟩
  · exact settledLast user found managed
  · exact absurd awaits.owing (keeping.not_owing rely_refl returned _)
  · exact absurd ⟨job, isJob, Or.inl derivesNow⟩ (keeping.not_owing rely_refl returned (.recomputing user.id))

def plainEnv : GroupEnv where
  rolePrefix := "r:"
  customerPrefix := "c:"
  configuredRole := "viewer"
  text := ⟨id, id⟩
  parseUUID value := if value = "1" then some ⟨1⟩ else if value = "2" then some ⟨2⟩ else none
  memberFilter _ := none
  order users := users
  mem_order _ _ := Iff.rfl

def oneUser : Directory :=
  { users := [⟨⟨1⟩, "a", none, roleViewer, none, none, none, 0, true⟩]
    groups := [⟨⟨7⟩, none, "r:operator"⟩] }

def addition : GroupRequest := .patch ⟨7⟩ [⟨"add", "members", ⟨none, ["1"], none⟩⟩]

theorem oneUser_settled (skipped : Uuid → Prop) :
    ∀ user ∈ oneUser.users, user.scimManaged = true → Follows plainEnv.mapping (skipped user.id) oneUser user := by
  intro user mem _
  rw [List.mem_singleton.mp mem]
  constructor
  · left
    right
    refine ⟨?_, rfl⟩
    rintro other ⟨_, name, isName, _⟩
    cases isName
  · intro customerID
    constructor
    · intro isGrant
      cases isGrant
    · rintro ⟨name, isName, _⟩
      cases isName

def inTurn : List (Sessions.Event GroupRequest) :=
  [.start addition] ++ List.replicate 8 (.advance 0) ++ [.start (.delete ⟨7⟩)] ++ List.replicate 8 (.advance 1)

def afterInTurn : GroupSessions :=
  (performAll (Sessions.perform (program plainEnv) Mark.conflicts) ⟨oneUser, []⟩ inTurn).getD ⟨oneUser, []⟩

theorem inTurn_converges :
    (∀ job ∈ afterInTurn.jobs, job.rest.isDone = true) ∧
      ∀ user ∈ afterInTurn.committed.users, user.scimManaged = true → Follows plainEnv.mapping False afterInTurn.committed user := by
  have run : Run (Restricted (Allowed plainEnv fun _ => False) (Step plainEnv)) ⟨oneUser, []⟩ inTurn afterInTurn :=
    restricted_of_performAll rfl
  have returned : ∀ job ∈ afterInTurn.jobs, job.rest.isDone = true := by decide
  exact ⟨returned, groups_converge plainEnv (fun _ => False) (oneUser_settled fun _ => False) run returned⟩

/-- The deletion has read the members; then the user is added, and gets the role. -/
def addedMeanwhile : List (Sessions.Event GroupRequest) :=
  [.start (.delete ⟨7⟩), .advance 0, .start addition] ++ List.replicate 8 (.advance 1) ++ List.replicate 2 (.advance 0)

def afterAddedMeanwhile : GroupSessions :=
  (performAll (Sessions.perform (program plainEnv) Mark.conflicts) ⟨oneUser, []⟩ addedMeanwhile).getD ⟨oneUser, []⟩

/-- No transaction is rolled back and no demotion is skipped, and yet the user keeps the
    role of the group that is gone. -/
theorem addedMeanwhile_keeps_role :
    (∀ user ∈ oneUser.users, user.scimManaged = true → Follows plainEnv.mapping False oneUser user) ∧
      Run (Restricted (Ordinary plainEnv fun _ => False) (Step plainEnv)) ⟨oneUser, []⟩ addedMeanwhile afterAddedMeanwhile ∧
      (∀ job ∈ afterAddedMeanwhile.jobs, job.rest.isDone = true) ∧
      ∃ user ∈ afterAddedMeanwhile.committed.users, user.scimManaged = true ∧
        ¬ Follows plainEnv.mapping True afterAddedMeanwhile.committed user := by
  refine ⟨oneUser_settled fun _ => False, restricted_of_performAll rfl, by decide, ?_⟩
  refine ⟨⟨⟨1⟩, "a", none, roleOperator, none, none, none, 0, true⟩, by decide, rfl, ?_⟩
  intro follows
  have noNames : afterAddedMeanwhile.committed.groupNames ⟨1⟩ = [] := by decide
  rcases follows.role with (⟨⟨_, name, isName, _⟩, _⟩ | ⟨_, isDefault⟩) | ⟨_, isAdmin⟩
  · rw [noNames] at isName
    cases isName
  · revert isDefault
    decide
  · revert isAdmin
    decide

end OtelFleet.Verified.GroupConvergence
