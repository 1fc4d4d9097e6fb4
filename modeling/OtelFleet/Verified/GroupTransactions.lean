import OtelFleet.Verified.GroupChanges

/-! # The transactions on groups keep their promises

Each of them changes one group, whose row it has locked, and returns all users who get
other names by that.
-/

namespace OtelFleet.Verified.GroupTransactions

open Api Scim Semantics Semantics.Session Store Store.Directory
open Verified.DerivedAccess Verified.GroupChanges Verified.RowLocks

/-! ## Several members -/

section

variable {groupID userID : Uuid} {users : List Uuid} {db : Directory}

def addMembers (groupID : Uuid) (users : List Uuid) (db : Directory) : Directory :=
  users.foldl (fun db userID => db.addMember ⟨groupID, userID⟩) db

def removeMembers (groupID : Uuid) (users : List Uuid) (db : Directory) : Directory :=
  users.foldl (fun db userID => db.removeMember ⟨groupID, userID⟩) db

theorem regroups_addMembers (groupID : Uuid) (users : List Uuid) (db : Directory) :
    Regroups groupID db (addMembers groupID users db) :=
  List.foldlRecOn users _ (.refl groupID db) fun db regroups userID _ => regroups.trans (.addMember db groupID userID)

theorem regroups_removeMembers (groupID : Uuid) (users : List Uuid) (db : Directory) :
    Regroups groupID db (removeMembers groupID users db) :=
  List.foldlRecOn users _ (.refl groupID db) fun db regroups userID _ => regroups.trans (.removeMember db groupID userID)

theorem mem_addMember {member other : GroupMember} : other ∈ (db.addMember member).members ↔ other ∈ db.members ∨ other = member := by
  unfold addMember
  split
  · rename_i already
    exact (or_iff_left_of_imp fun same => same ▸ already).symm
  · simp

theorem mem_membersOf_addMembers : userID ∈ (addMembers groupID users db).membersOf groupID ↔
    userID ∈ db.membersOf groupID ∨ userID ∈ users := by
  induction users generalizing db with
  | nil => simp [addMembers]
  | cons first rest ih =>
    rw [addMembers, List.foldl_cons, ← addMembers, ih, mem_membersOf, mem_membersOf, mem_addMember]
    simp [or_assoc]

theorem rows_addMembers (absent : userID ∉ users) :
    ((addMembers groupID users db).members.filter fun member => member.userID = userID) =
      db.members.filter fun member => member.userID = userID := by
  refine List.foldlRecOn (motive := fun after : Directory => after.members.filter _ = _) users _ rfl ?_
  intro db same other isUser
  have distinct : other ≠ userID := fun isOther => absent (isOther ▸ isUser)
  rw [← same, addMember]
  split
  · rfl
  · simp [distinct]

theorem rows_removeMembers (absent : userID ∉ users) :
    ((removeMembers groupID users db).members.filter fun member => member.userID = userID) =
      db.members.filter fun member => member.userID = userID := by
  refine List.foldlRecOn (motive := fun after : Directory => after.members.filter _ = _) users _ rfl ?_
  intro db same other isUser
  rw [← same]
  apply Data.filter_filter_of_imp
  intro member _ isOwn
  apply decide_eq_true
  rintro rfl
  exact absent (of_decide_eq_true isOwn ▸ isUser)

theorem groups_addMembers (groupID : Uuid) (users : List Uuid) (db : Directory) : (addMembers groupID users db).groups = db.groups := by
  refine List.foldlRecOn (motive := fun after : Directory => after.groups = _) users _ rfl ?_
  intro db same userID _
  rw [← same, addMember]
  split <;> rfl

theorem groups_removeMembers (groupID : Uuid) (users : List Uuid) (db : Directory) :
    (removeMembers groupID users db).groups = db.groups :=
  List.foldlRecOn (motive := fun after : Directory => after.groups = _) users _ rfl fun _ same _ _ => same

end

/-! ## Transactions that fail or go on -/

variable {mapping : SCIMMapping} {mayFail : Prop} {id : Uuid} {facts : List Mark → Directory → Prop}
  {base : Directory → Directory}

def Plain (held : List Mark) : Prop := ∀ userID, .recomputing userID ∉ held

variable {held marks : List Mark}

theorem Plain.more (plain : Plain held) (isPlain : ∀ mark ∈ marks, derives mark = false) : Plain (held ++ marks) := by
  intro userID member
  rcases List.mem_append.mp member with old | new
  · exact plain userID old
  · exact nomatch isPlain _ new

structure Locked (id : Uuid) (held : List Mark) : Prop where
  locked : .lock (.group id) .forUpdate ∈ held
  plain : Plain held

theorem Locked.more (locked : Locked id held) (isPlain : ∀ mark ∈ marks, derives mark = false) :
    Locked id (held ++ marks) :=
  ⟨List.mem_append_left _ locked.locked, locked.plain.more isPlain⟩

theorem kept_locked (id : Uuid) : Kept fun held _ => Locked id held :=
  ⟨fun _ _ _ _ locked => locked, fun _ _ _ isPlain locked => locked.more isPlain⟩

theorem kept_lockedGroup (id : Uuid) (row : Option SCIMGroup) :
    Kept fun held now => Locked id held ∧ now.group? id = row where
  later _ _ _ rely known := ⟨known.1, (rely.groups id known.1.locked).row.trans known.2⟩
  more _ _ _ isPlain known := ⟨known.1.more isPlain, known.2⟩

theorem kept_lockedMembers (id : Uuid) (fact : List Uuid → Prop) :
    Kept fun held now => Locked id held ∧ fact (now.membersOf id) where
  later _ _ _ rely known := by
    refine ⟨known.1, ?_⟩
    rw [(rely.groups id known.1.locked).members]
    exact known.2
  more _ _ _ isPlain known := ⟨known.1.more isPlain, known.2⟩

def owedTo (affected : List Uuid) (mark : Mark) : Prop := ∃ userID ∈ affected, mark = .recomputing userID

def OrRefused {α : Type} (next : α → Assertion Directory Mark) (res : Except StoreError α) : Assertion Directory Mark :=
  fun pending held now => Plain held ∧ ∀ value, res = .ok value → next value pending held now

variable {α : Type} {next : α → Assertion Directory Mark}

theorem stable_orRefused (stable : ∀ value, Stable (fun _ => True) Rely (next value)) (res : Except StoreError α) :
    Stable (fun _ => True) Rely (OrRefused next res) :=
  fun _ _ _ _ rely _ _ holds =>
    ⟨holds.1, fun value isOk => stable value _ _ _ _ rely trivial trivial (holds.2 value isOk)⟩

variable (err : StoreError)

theorem triple_refuse {owed : α → Mark → Prop} :
    GroupTriple mapping mayFail (fun _ held _ => Plain held) (pure (.error err))
      (EndsOwing (fun _ => True) (promise mapping mayFail) owed) := by
  apply triple_pure fun _ _ _ _ _ _ _ plain => plain
  intro pending held now _ plain
  exact ⟨fun _ isOk => (nomatch isOk), fun _ _ userID member => absurd member (plain userID)⟩

theorem triple_orRefused {β : Type} {pre : Assertion Directory Mark} {first : DirectorySession (Except StoreError β)}
    {following : Except StoreError β → DirectorySession (Except StoreError α)} {goes : β → Assertion Directory Mark}
    {owed : α → Mark → Prop} (step : GroupTriple mapping mayFail pre first (OrRefused goes))
    (refuses : ∀ err, following (.error err) = pure (.error err))
    (rest : ∀ value, GroupTriple mapping mayFail (goes value) (following (.ok value))
      (EndsOwing (fun _ => True) (promise mapping mayFail) owed)) :
    GroupTriple mapping mayFail pre (first >>= following) (EndsOwing (fun _ => True) (promise mapping mayFail) owed) := by
  apply Triple.bind rely_refl step
  intro res
  cases res with
  | error err =>
    rw [refuses]
    exact (triple_refuse err).imp fun _ _ _ _ holds => holds.1
  | ok value => exact (rest value).imp fun _ _ _ _ holds => holds.2 value rfl

theorem triple_failed :
    GroupTriple mapping mayFail (fun _ held _ => Plain held) (pure (.error err)) (OrRefused next) :=
  triple_pure (fun _ _ _ _ _ _ _ plain => plain) fun _ _ _ _ plain => ⟨plain, fun _ isOk => (nomatch isOk)⟩

theorem triple_changeOr (kept : Kept facts) (plain : ∀ held now, facts held now → Plain held)
    {marks : Directory → List Mark} {effect : Directory → Except StoreError α × (Directory → Directory)}
    (change : Directory → Directory) (isPlain : ∀ seen, ∀ mark ∈ marks seen, derives mark = false)
    (same : ∀ seen value, (effect seen).1 = .ok value → (effect seen).2 = change) :
    GroupTriple mapping mayFail (At base facts) (execute marks effect)
      (OrRefused fun _ => At (fun db => change (base db)) facts) := by
  apply triple_noted (kept.stable base) fun res => stable_orRefused (fun _ => kept.stable _) res
  rintro _ held now _ ⟨rfl, known⟩
  refine ⟨notes_plain (isPlain _), (plain held now known).more (isPlain _), ?_⟩
  intro value isOk
  refine ⟨?_, kept.more _ _ _ (isPlain _) known⟩
  rw [same _ value isOk]

theorem groupLock_plain (mode : LockMode) (id : Uuid) (seen : Directory) : ∀ mark ∈ groupLock mode id seen, derives mark = false := by
  unfold groupLock
  split
  · simp [derives]
  · simp

theorem externalLock_plain (externalID : Option String) : ∀ mark ∈ externalLock externalID, derives mark = false := by
  unfold externalLock
  simp [derives]

theorem groupLock_of_found {mode : LockMode} {group : SCIMGroup} {seen : Directory} (found : seen.group? id = some group) :
    groupLock mode id seen = [.lock (.group id) mode] := by
  simp [groupLock, found]

theorem memberMarks_plain (groupID userID : Uuid) (seen : Directory) :
    ∀ mark ∈ groupLock .keyShare groupID seen ++ userLock .keyShare userID seen ++ [.membersWritten groupID], derives mark = false := by
  exact Data.forall_mem_append_row (List.forall_mem_append.mpr ⟨groupLock_plain _ _ _, userLock_plain _ _ _⟩) rfl

def Noting (groupID : Uuid) (users : List Uuid) (facts : List Mark → Directory → Prop) (held : List Mark) (now : Directory) : Prop :=
  facts held now ∧ (users ≠ [] → .membersWritten groupID ∈ held)

theorem kept_noting (kept : Kept facts) (groupID : Uuid) (users : List Uuid) : Kept (Noting groupID users facts) :=
  kept.and ⟨fun _ _ _ _ noted => noted, fun _ _ _ _ noted some => List.mem_append_left _ (noted some)⟩

theorem triple_insertGroupMembers (kept : Kept facts) (plain : ∀ held now, facts held now → Plain held) (groupID : Uuid)
    (users : List Uuid) :
    GroupTriple mapping mayFail (At base facts) (insertGroupMembers groupID users)
      (OrRefused fun _ => At (fun db => addMembers groupID users (base db)) (Noting groupID users facts)) := by
  induction users generalizing base facts with
  | nil =>
    apply triple_return kept
    exact fun held now known => ⟨plain held now known, fun _ _ => ⟨rfl, known, fun some => absurd rfl some⟩⟩
  | cons userID rest ih =>
    -- the note of the first insert stays
    have keptNote := kept.and (kept_mem (.membersWritten groupID))
    have insert : GroupTriple mapping mayFail (At base facts) (insertGroupMember groupID userID)
        (OrRefused fun _ => At (fun db => (base db).addMember ⟨groupID, userID⟩)
          fun held now => facts held now ∧ .membersWritten groupID ∈ held) := by
      apply triple_noted (kept.stable base) fun res => stable_orRefused (fun _ => keptNote.stable _) res
      rintro pending held now _ ⟨rfl, known⟩
      have isPlain := memberMarks_plain groupID userID (pending now)
      refine ⟨notes_plain isPlain, (plain held now known).more isPlain, ?_⟩
      intro value isOk
      refine ⟨?_, kept.more _ _ _ isPlain known, List.mem_append_right _ (List.mem_append_right _ List.mem_cons_self)⟩
      split
      · rfl
      · rename_i missing
        rw [if_neg missing] at isOk
        cases isOk
    apply Triple.bind rely_refl insert
    intro res
    cases res with
    | error err => exact (triple_failed err).imp fun _ _ _ _ holds => holds.1
    | ok value =>
      apply Triple.imp ((ih keptNote fun held now known => plain held now known.1).weaken ?_)
      · exact fun _ _ _ _ holds => holds.2 value rfl
      · rintro res pending held now _ ⟨isPlain, isOk⟩
        refine ⟨isPlain, ?_⟩
        intro value isValue
        obtain ⟨isBase, ⟨known, noted⟩, _⟩ := isOk value isValue
        exact ⟨isBase, known, fun _ => noted⟩

theorem triple_written (kept : Kept facts) (groupID : Uuid) (change : Directory → Directory) :
    GroupTriple mapping mayFail (At base facts) (execute (fun _ => [.membersWritten groupID]) fun _ => ((), change)) fun _ =>
      At (fun db => change (base db)) fun held now => facts held now ∧ .membersWritten groupID ∈ held := by
  apply triple_noted (kept.stable base) fun _ => (kept.and (kept_mem (.membersWritten groupID))).stable _
  rintro _ held now _ ⟨rfl, known⟩
  have isPlain : ∀ mark ∈ [Mark.membersWritten groupID], derives mark = false := by simp [derives]
  exact ⟨notes_plain isPlain, rfl, kept.more _ _ _ isPlain known, List.mem_append_right _ List.mem_cons_self⟩

theorem triple_removeGroupMembers (kept : Kept facts) (groupID : Uuid) (users : List Uuid) :
    GroupTriple mapping mayFail (At base facts) (removeGroupMembers groupID users) fun _ =>
      At (fun db => removeMembers groupID users (base db)) (Noting groupID users facts) := by
  induction users generalizing base facts with
  | nil =>
    apply triple_return kept
    exact fun held now known => ⟨rfl, known, fun some => absurd rfl some⟩
  | cons userID rest ih =>
    apply Triple.bind rely_refl (triple_written kept groupID fun db => db.removeMember ⟨groupID, userID⟩)
    intro _
    apply (ih (kept.and (kept_mem (.membersWritten groupID)))).weaken
    rintro _ pending held now _ ⟨isBase, ⟨known, noted⟩, _⟩
    exact ⟨isBase, known, fun _ => noted⟩

theorem gives_of_regroups {held : List Mark} {owed : Mark → Prop} {now after : Directory} (locked : Locked id held)
    (regroups : Regroups id now after) (written : .membersWritten id ∈ held ∨ after.membersOf id = now.membersOf id)
    (names : ∀ userID, after.groupNames userID ≠ now.groupNames userID → owed (.recomputing userID)) :
    Gives mapping held owed now after := by
  refine ⟨?_, regroups.customers, fun userID _ => regroups.sameAccess userID, ?_, ?_, names, ?_⟩
  · intro userID
    rw [(regroups.sameAccess userID).row]
  · intro other unlocked
    have distinct : other ≠ id := by
      rintro rfl
      exact unlocked locked.locked
    exact ⟨regroups.group?_eq distinct, regroups.membersOf_eq distinct⟩
  · intro other unwritten
    by_cases isOwn : other = id
    · subst isOwn
      exact written.resolve_left unwritten
    · exact regroups.membersOf_eq isOwn
  · exact fun userID noted => absurd noted (locked.plain userID)

variable {before after : Directory}

theorem owed_of_spared {affected : List Uuid}
    (spared : ∀ userID, userID ∉ affected → after.groupNames userID = before.groupNames userID) (userID : Uuid)
    (changed : after.groupNames userID ≠ before.groupNames userID) : owedTo affected (.recomputing userID) := by
  refine ⟨userID, ?_, rfl⟩
  by_contra absent
  exact changed (spared userID absent)

theorem within_insertGroupMembers (groupID : Uuid) (users : List Uuid) : Within (insertGroupMembers groupID users) := by
  induction users with
  | nil => trivial
  | cons userID rest ih => exact (within_execute _ _).orRefuse (fun _ => trivial) fun _ => ih

theorem within_removeGroupMembers (groupID : Uuid) (users : List Uuid) : Within (removeGroupMembers groupID users) := by
  induction users with
  | nil => trivial
  | cons userID rest ih => exact (within_execute _ _).bind fun _ => ih

theorem within_replaceIfGiven (id : Uuid) (members : Option (List Uuid)) : Within (replaceIfGiven id members) := by
  cases members with
  | none => trivial
  | some members => exact (within_execute _ _).bind fun _ => within_insertGroupMembers id members

/-! ## Creation -/

theorem triple_insertGroup (group : SCIMGroup) :
    GroupTriple mapping mayFail Idle (insertGroup group)
      (OrRefused fun _ => At (fun db => db.addGroup group) fun held _ => Locked group.id held) := by
  have isPlain : ∀ mark ∈ Mark.lock (.group group.id) .forUpdate :: externalLock group.externalID, derives mark = false := by
    intro mark member
    rcases List.mem_cons.mp member with rfl | isLock
    · rfl
    · exact externalLock_plain _ mark isLock
  apply triple_noted stable_idle fun res => stable_orRefused (fun _ => (kept_locked group.id).stable _) res
  rintro _ _ now _ ⟨rfl, rfl⟩
  have plain : Plain ([] ++ Mark.lock (.group group.id) .forUpdate :: externalLock group.externalID) :=
    Plain.more (fun _ => List.not_mem_nil) isPlain
  refine ⟨notes_plain isPlain, plain, ?_⟩
  intro value isOk
  refine ⟨?_, List.mem_cons_self, plain⟩
  split
  · rename_i taken
    rw [if_pos taken] at isOk
    cases isOk
  · rename_i free
    rw [if_neg free] at isOk
    split
    · rename_i exist
      rw [if_pos exist] at isOk
      cases isOk
    · rfl

theorem members_addGroup (db : Directory) (group : SCIMGroup) : (db.addGroup group).members = db.members := by
  unfold addGroup
  split <;> rfl

variable {userID : Uuid}

theorem mem_created {group : SCIMGroup} {members : List Uuid} {db : Directory} :
    userID ∈ (addMembers group.id members (db.addGroup group)).membersOf group.id ↔
      userID ∈ db.membersOf group.id ∨ userID ∈ members := by
  rw [mem_membersOf_addMembers, mem_membersOf, mem_membersOf, members_addGroup]

theorem transacts_createSCIMGroup (group : SCIMGroup) (members : List Uuid) :
    Transacts (fun _ => True) Rely (promise mapping mayFail) Idle owedTo (createSCIMGroup group members) := by
  have kept := kept_locked group.id
  have keptNote := kept_noting kept group.id members
  refine ⟨_, rfl, ?_, ?_⟩
  · refine (within_execute _ _).orRefuse (fun _ => trivial) fun _ => ?_
    exact (within_insertGroupMembers _ _).orRefuse (fun _ => trivial) fun _ => (within_execute _ _).bind fun _ => trivial
  have keptFound (found : List Uuid) := keptNote.and (kept_lockedMembers group.id fun before =>
    ∀ userID, userID ∈ found ↔ userID ∈ before ∨ userID ∈ members)
  have load : GroupTriple mapping mayFail
      (At (fun db => addMembers group.id members (db.addGroup group)) (Noting group.id members fun held _ => Locked group.id held))
      (loadGroupMembers [] group.id) fun found =>
        At (fun db => addMembers group.id members (db.addGroup group)) fun held now =>
          Noting group.id members (fun held _ => Locked group.id held) held now ∧
            (Locked group.id held ∧ ∀ userID, userID ∈ found ↔ userID ∈ now.membersOf group.id ∨ userID ∈ members) := by
    apply triple_noted (keptNote.stable _) fun found => (keptFound found).stable _
    rintro _ held now _ ⟨rfl, noting⟩
    refine ⟨notes_plain (by simp), rfl, keptNote.more _ _ _ (by simp) noting, noting.1.more (by simp), ?_⟩
    exact fun userID => mem_created
  refine triple_orRefused (triple_insertGroup group) (fun _ => rfl) fun _ => ?_
  refine triple_orRefused (triple_insertGroupMembers kept (fun _ _ locked => locked.plain) group.id members) (fun _ => rfl) fun _ => ?_
  apply Triple.bind rely_refl load
  intro found
  apply triple_return (keptFound found)
  rintro held now ⟨⟨locked, noted⟩, _, isFound⟩
  have regroups := (Regroups.addGroup now group).trans (regroups_addMembers group.id members (now.addGroup group))
  refine ends_ok (gives_of_regroups locked regroups ?_ (owed_of_spared ?_)) trivial
  · by_cases isEmpty : members = []
    · right
      rw [isEmpty]
      simp only [membersOf, addMembers, List.foldl_nil, members_addGroup]
    · exact Or.inl (noted isEmpty)
  · intro userID absent
    apply regroups.groupNames_eq
    · exact fun member => absent ((isFound userID).mpr (Or.inl member))
    · exact fun member => absent ((isFound userID).mpr (mem_created.mp member))

/-! ## Update -/

theorem triple_selectGroupForUpdate (id : Uuid) :
    GroupTriple mapping mayFail Idle (selectGroupForUpdate id) fun row pending held now =>
      Plain held ∧ ∀ group, row = some group →
        At (fun db => db) (fun held now => Locked id held ∧ now.group? id = some group) pending held now := by
  apply triple_noted stable_idle
  · rintro row pending held before after rely _ _ ⟨plain, found⟩
    exact ⟨plain, fun group isRow => (kept_lockedGroup id (some group)).stable _ _ _ _ _ rely trivial trivial (found group isRow)⟩
  · rintro _ _ now _ ⟨rfl, rfl⟩
    have plain : Plain ([] ++ groupLock .forUpdate id now) := Plain.more (fun _ => List.not_mem_nil) (groupLock_plain _ _ _)
    refine ⟨notes_plain (groupLock_plain _ _ _), plain, ?_⟩
    intro group (found : now.group? id = some group)
    refine ⟨rfl, ⟨?_, plain⟩, found⟩
    rw [id_eq, groupLock_of_found found]
    exact List.mem_cons_self

def Known (id : Uuid) (before : SCIMGroup) (oldMembers : List Uuid) (held : List Mark) (now : Directory) : Prop :=
  (Locked id held ∧ now.group? id = some before) ∧ (Locked id held ∧ now.membersOf id = oldMembers)

theorem kept_known (id : Uuid) (before : SCIMGroup) (oldMembers : List Uuid) : Kept (Known id before oldMembers) :=
  (kept_lockedGroup id (some before)).and (kept_lockedMembers id fun members => members = oldMembers)

theorem triple_loadOldMembers (id : Uuid) (before : SCIMGroup) :
    GroupTriple mapping mayFail (At (fun db => db) fun held now => Locked id held ∧ now.group? id = some before)
      (loadGroupMembers [] id) fun oldMembers => At (fun db => db) (Known id before oldMembers) := by
  have kept := kept_lockedGroup id (some before)
  apply triple_noted (kept.stable _) fun oldMembers => (kept_known id before oldMembers).stable _
  rintro _ held now _ ⟨rfl, known⟩
  exact ⟨notes_plain (by simp), rfl, kept.more _ _ _ (by simp) known, known.1.more (by simp), rfl⟩

def newColumns (displayName externalID : Option String) (group : SCIMGroup) : SCIMGroup :=
  { group with displayName := displayName.getD group.displayName, externalID := externalID.or group.externalID }

theorem triple_execUpdateGroup (kept : Kept facts) (plain : ∀ held now, facts held now → Plain held) (id : Uuid)
    (displayName externalID : Option String) :
    GroupTriple mapping mayFail (At base facts) (execUpdateGroup id displayName externalID)
      (OrRefused fun _ => At (fun db => (base db).changeGroup id (newColumns displayName externalID)) facts) := by
  apply triple_changeOr kept plain fun db => db.changeGroup id (newColumns displayName externalID)
  · exact fun seen => List.forall_mem_append.mpr ⟨groupLock_plain _ _ _, externalLock_plain _⟩
  · intro seen value isOk
    split at isOk
    · cases isOk
    · rename_i free
      rw [if_neg free]
      rfl

def replaced (id : Uuid) (members : Option (List Uuid)) (db : Directory) : Directory :=
  members.elim db fun members => addMembers id members (db.clearMembers id)

theorem triple_replaceIfGiven (kept : Kept facts) (plain : ∀ held now, facts held now → Plain held) (id : Uuid)
    (members : Option (List Uuid)) :
    GroupTriple mapping mayFail (At base facts) (replaceIfGiven id members)
      (OrRefused fun _ => At (fun db => replaced id members (base db))
        fun held now => facts held now ∧ (members ≠ none → .membersWritten id ∈ held)) := by
  cases members with
  | none =>
    exact triple_return kept fun held now known => ⟨plain held now known, fun _ _ => ⟨rfl, known, fun given => absurd rfl given⟩⟩
  | some members =>
    have keptNote := kept.and (kept_mem (.membersWritten id))
    apply Triple.bind rely_refl (triple_written kept id fun db => db.clearMembers id)
    intro _
    apply (triple_insertGroupMembers keptNote (fun held now known => plain held now known.1) id members).weaken
    rintro res pending held now _ ⟨isPlain, isOk⟩
    refine ⟨isPlain, ?_⟩
    intro value isValue
    obtain ⟨isBase, ⟨known, noted⟩, _⟩ := isOk value isValue
    exact ⟨isBase, known, fun _ => noted⟩

theorem groupNames_changeGroup {db : Directory} {change : SCIMGroup → SCIMGroup}
    (sameName : ∀ group, db.group? id = some group → (change group).displayName = group.displayName) (userID : Uuid) :
    (db.changeGroup id change).groupNames userID = db.groupNames userID := by
  have sameGroup : ∀ group ∈ db.groups, (regrouped id change group).displayName = group.displayName := by
    intro group member
    unfold regrouped
    split
    · rename_i isID
      apply sameName
      rw [← isID]
      exact Data.find?_of_mem db.groups_id member
    · rfl
  apply List.flatMap_congr
  intro member _
  simp only [changeGroup, List.filter_map, List.map_map]
  rw [show ((fun group : SCIMGroup => decide (group.id = member.groupID)) ∘ regrouped id change) =
    fun group => decide (group.id = member.groupID) by funext group; simp]
  apply List.map_congr_left
  intro group isGroup
  exact sameGroup group (List.mem_filter.mp isGroup).1

theorem spared_update {before : SCIMGroup} {displayName externalID : Option String} {members : Option (List Uuid)}
    {now : Directory} (found : now.group? id = some before)
    (absent : userID ∉ affectedByUpdate before displayName members (now.membersOf id)) :
    (replaced id members (now.changeGroup id (newColumns displayName externalID))).groupNames userID = now.groupNames userID := by
  have regroups := Regroups.changeGroup now id (newColumns displayName externalID)
  cases members with
  | some members =>
    obtain ⟨notOld, notNew⟩ := not_or.mp (List.mem_append.not.mp absent)
    have after := (regroups.trans (.clearMembers _ id)).trans (regroups_addMembers id members _)
    apply after.groupNames_eq notOld
    rw [mem_membersOf_addMembers]
    rintro (cleared | isNew)
    · rw [mem_membersOf] at cleared
      simp [clearMembers] at cleared
    · exact notNew isNew
  | none =>
    simp only [affectedByUpdate] at absent
    split at absent
    · exact regroups.groupNames_eq absent absent
    · -- the name is the same
      rename_i sameName
      apply groupNames_changeGroup
      intro group isGroup
      rw [found] at isGroup
      cases isGroup
      cases displayName with
      | none => rfl
      | some name => simpa [newColumns] using sameName

theorem regroups_replaced (id : Uuid) (members : Option (List Uuid)) (db : Directory) : Regroups id db (replaced id members db) := by
  cases members with
  | none => exact .refl id db
  | some members => exact (Regroups.clearMembers db id).trans (regroups_addMembers id members _)

theorem transacts_updateSCIMGroup (id : Uuid) (displayName externalID : Option String) (members : Option (List Uuid)) :
    Transacts (fun _ => True) Rely (promise mapping mayFail) Idle owedTo (updateSCIMGroup id displayName externalID members) := by
  refine ⟨_, rfl, ?_, ?_⟩
  · apply (within_execute _ _).bind
    intro row
    cases row with
    | none => trivial
    | some before =>
      refine (within_execute _ _).bind fun _ => (within_execute _ _).orRefuse (fun _ => trivial) fun _ => ?_
      exact (within_replaceIfGiven _ _).orRefuse (fun _ => trivial) fun _ => trivial
  apply Triple.bind rely_refl (triple_selectGroupForUpdate id)
  intro row
  cases row with
  | none => exact (triple_refuse .notFound).imp fun _ _ _ _ holds => holds.1
  | some before =>
    apply Triple.imp (Triple.bind rely_refl (triple_loadOldMembers id before) ?_)
    · exact fun _ _ _ _ holds => holds.2 before rfl
    intro oldMembers
    have kept := kept_known id before oldMembers
    have plain : ∀ held now, Known id before oldMembers held now → Plain held := fun held now known => known.1.1.plain
    have keptNote : Kept fun held now => Known id before oldMembers held now ∧ (members ≠ none → .membersWritten id ∈ held) :=
      kept.and ⟨fun _ _ _ _ noted => noted, fun _ _ _ _ noted given => List.mem_append_left _ (noted given)⟩
    refine triple_orRefused (triple_execUpdateGroup kept plain id displayName externalID) (fun _ => rfl) fun _ => ?_
    refine triple_orRefused (triple_replaceIfGiven kept plain id members) (fun _ => rfl) fun _ => ?_
    apply triple_return keptNote
    rintro held now ⟨⟨⟨locked, found⟩, _, rfl⟩, noted⟩
    have regroups := (Regroups.changeGroup now id (newColumns displayName externalID)).trans (regroups_replaced id members _)
    refine ends_ok (gives_of_regroups locked regroups ?_ (owed_of_spared ?_)) trivial
    · cases members with
      | none => exact Or.inr rfl
      | some members => exact Or.inl (noted (by simp))
    · intro userID absent
      rw [List.mem_dedup] at absent
      exact spared_update found absent

/-! ## Changes of members -/

theorem transacts_modifySCIMGroupMembers (id : Uuid) (add remove : List Uuid) :
    Transacts (fun _ => True) Rely (promise mapping mayFail) Idle owedTo (modifySCIMGroupMembers id add remove) := by
  refine ⟨_, rfl, ?_, ?_⟩
  · apply (within_execute _ _).bind
    intro row
    cases row with
    | none => trivial
    | some before =>
      exact (within_insertGroupMembers _ _).orRefuse (fun _ => trivial) fun _ =>
        (within_removeGroupMembers _ _).bind fun _ => trivial
  apply Triple.bind rely_refl (triple_selectGroupForUpdate id)
  intro row
  cases row with
  | none => exact (triple_refuse .notFound).imp fun _ _ _ _ holds => holds.1
  | some before =>
    have kept := kept_lockedGroup id (some before)
    have keptAdd := kept_noting kept id add
    refine Triple.imp ?_ fun _ _ _ _ holds => holds.2 before rfl
    refine triple_orRefused (triple_insertGroupMembers kept (fun _ _ known => known.1.plain) id add) (fun _ => rfl) fun _ => ?_
    apply Triple.bind rely_refl (triple_removeGroupMembers keptAdd id remove)
    intro _
    apply triple_return (kept_noting keptAdd id remove)
    rintro held now ⟨⟨⟨locked, _⟩, notedAdd⟩, notedRemove⟩
    have regroups := (regroups_addMembers id add now).trans (regroups_removeMembers id remove _)
    refine ends_ok (gives_of_regroups locked regroups ?_ (owed_of_spared ?_)) trivial
    · by_cases noAdd : add = []
      · by_cases noRemove : remove = []
        · right
          rw [noAdd, noRemove]
          rfl
        · exact Or.inl (notedRemove noRemove)
      · exact Or.inl (notedAdd noAdd)
    · intro userID absent
      rw [List.mem_dedup, List.mem_append, not_or] at absent
      rw [groupNames, groupNames, groups_removeMembers, groups_addMembers, rows_removeMembers absent.2, rows_addMembers absent.1]

/-! ## Deletion -/

def ReadMembers (id : Uuid) (formerMembers : List Uuid) (held : List Mark) (now : Directory) : Prop :=
  .membersRead id ∈ held ∧ Plain held ∧ now.membersOf id = formerMembers

theorem kept_readMembers (id : Uuid) (formerMembers : List Uuid) : Kept (ReadMembers id formerMembers) where
  later _ _ _ rely known := ⟨known.1, known.2.1, (rely.members id known.1).trans known.2.2⟩
  more _ _ _ isPlain known := ⟨List.mem_append_left _ known.1, known.2.1.more isPlain, known.2.2⟩

theorem transacts_deleteSCIMGroup (id : Uuid) :
    Transacts (fun _ => True) Rely (promise mapping mayFail) Idle owedTo (deleteSCIMGroup id) := by
  have load : GroupTriple mapping mayFail Idle (loadGroupMembers [.membersRead id] id) fun formerMembers =>
      At (fun db => db) (ReadMembers id formerMembers) := by
    apply triple_noted stable_idle fun formerMembers => (kept_readMembers id formerMembers).stable _
    rintro _ _ now _ ⟨rfl, rfl⟩
    have isPlain : ∀ mark ∈ [Mark.membersRead id], derives mark = false := by simp [derives]
    exact ⟨notes_plain isPlain, rfl, List.mem_cons_self, Plain.more (fun _ => List.not_mem_nil) isPlain, rfl⟩
  refine ⟨_, rfl, ?_, ?_⟩
  · refine (within_execute _ _).bind fun _ => (within_execute _ _).bind ?_
    intro found
    cases found with
    | false | true => trivial
  apply Triple.bind rely_refl load
  intro formerMembers
  have kept := kept_readMembers id formerMembers
  have keptLock (found : Bool) : Kept fun held now => ReadMembers id formerMembers held now ∧
      (found = true → .lock (.group id) .forUpdate ∈ held ∧ .membersWritten id ∈ held) :=
    kept.and ⟨fun _ _ _ _ noted => noted,
      fun _ _ _ _ noted isFound => ⟨List.mem_append_left _ (noted isFound).1, List.mem_append_left _ (noted isFound).2⟩⟩
  have delete : GroupTriple mapping mayFail (At (fun db => db) (ReadMembers id formerMembers)) (execDeleteGroup id) fun found =>
      At (fun db => db.removeGroup id) fun held now => ReadMembers id formerMembers held now ∧
        (found = true → .lock (.group id) .forUpdate ∈ held ∧ .membersWritten id ∈ held) := by
    apply triple_noted (kept.stable _) fun found => (keptLock found).stable _
    rintro _ held now _ ⟨rfl, known⟩
    have isPlain : ∀ mark ∈ groupLock .forUpdate id now ++ [.membersWritten id], derives mark = false :=
      Data.forall_mem_append_row (groupLock_plain _ _ _) rfl
    refine ⟨notes_plain isPlain, rfl, kept.more _ _ _ isPlain known, ?_⟩
    intro (isFound : (now.group? id).isSome = true)
    obtain ⟨group, found⟩ := Option.isSome_iff_exists.mp isFound
    rw [groupLock_of_found found]
    simp
  apply Triple.bind rely_refl delete
  intro found
  cases found with
  | false => exact (triple_refuse .notFound).imp fun _ _ _ _ holds => holds.2.1.2.1
  | true =>
    apply triple_return (keptLock true)
    rintro held now ⟨⟨_, plain, rfl⟩, noted⟩
    obtain ⟨locked, written⟩ := noted rfl
    have regroups := Regroups.removeGroup now id
    refine ends_ok (gives_of_regroups ⟨locked, plain⟩ regroups (Or.inl written) (owed_of_spared ?_)) trivial
    intro userID absent
    apply regroups.groupNames_eq absent
    rw [mem_membersOf]
    simp [removeGroup]

theorem transacts_getSCIMGroup (id : Uuid) :
    Transacts (fun _ => True) Rely (promise mapping mayFail) Idle (fun _ _ => False) (getSCIMGroup id) := by
  have find : GroupTriple mapping mayFail Idle (query fun seen => seen.group? id) fun _ =>
      At (fun db => db) fun held _ => Plain held ∧ held = [] := by
    apply triple_noted stable_idle fun _ _ _ _ _ _ _ _ holds => holds
    rintro _ _ now _ ⟨rfl, rfl⟩
    exact ⟨notes_plain (by simp), rfl, fun _ => List.not_mem_nil, rfl⟩
  refine ⟨_, rfl, ?_, ?_⟩
  · apply (within_execute _ _).bind
    intro row
    cases row with
    | none | some group => trivial
  apply Triple.bind rely_refl find
  intro row
  cases row with
  | none => exact (triple_refuse .notFound).imp fun _ _ _ _ holds => holds.2.1
  | some group =>
    apply triple_pure fun _ _ _ _ _ _ _ holds => holds
    rintro _ _ now _ ⟨rfl, plain, rfl⟩
    exact ends_ok ⟨fun _ => rfl, rfl, fun userID _ => sameAccess_refl now userID, fun _ _ => ⟨rfl, rfl⟩, fun _ _ => rfl,
      fun _ changed => absurd rfl changed, fun userID noted => absurd noted (plain userID)⟩ trivial

end OtelFleet.Verified.GroupTransactions
