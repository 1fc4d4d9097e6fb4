import OtelFleet.Scim.Groups
import OtelFleet.Verified.DerivedAccess
import OtelFleet.Verified.RowLocks

/-! # What the transactions on groups promise

A transaction that changes the names of a user's groups is followed by a derivation of
the user's access.  A derivation locks the row of the user before it reads the names;
what it writes is the access of the names that it has read.
-/

namespace OtelFleet.Verified.GroupChanges

open Api Scim Semantics Semantics.Session Store Store.Directory
open Verified.DerivedAccess Verified.RowLocks

/-! ## Promises -/

def membersRead? : Mark → Option Uuid
  | .membersRead id => some id
  | _ => none

def membersWritten? : Mark → Option Uuid
  | .membersWritten id => some id
  | _ => none

/-- Beside the locks of PostgreSQL, the members of a group are not written while a
    deletion that has read them is open. -/
def MembersAlone (mark other : Mark) : Prop :=
  mark.conflicts other ∨ (∃ id ∈ membersRead? mark, id ∈ membersWritten? other) ∨
    ∃ id ∈ membersRead? other, id ∈ membersWritten? mark

instance : DecidableRel MembersAlone := fun mark other =>
  inferInstanceAs (Decidable (mark.conflicts other ∨ (∃ id ∈ membersRead? mark, id ∈ membersWritten? other) ∨
    ∃ id ∈ membersRead? other, id ∈ membersWritten? mark))

structure SameGroup (before after : Directory) (id : Uuid) : Prop where
  row : after.group? id = before.group? id
  members : after.membersOf id = before.membersOf id

variable (held : List Mark)

/-- What the others leave: the users and customers that there are, the access of locked
    users, locked groups, and the members that a deletion has read. -/
structure Rely (before after : Directory) : Prop where
  exist : ∀ id, (after.user? id).isSome = (before.user? id).isSome
  customers : after.customers = before.customers
  access : ∀ id, .lock (.user id) .forUpdate ∈ held → SameAccess before after id
  groups : ∀ id, .lock (.group id) .forUpdate ∈ held → SameGroup before after id
  members : ∀ id, .membersRead id ∈ held → after.membersOf id = before.membersOf id

/-- What a commit does: only a derivation that has locked a user changes the access, and
    then it follows the names that it has read; groups are changed under a lock; and who
    gets other names is still to be derived. -/
structure Gives (mapping : SCIMMapping) (held : List Mark) (owed : Mark → Prop) (before after : Directory) : Prop where
  exist : ∀ id, (after.user? id).isSome = (before.user? id).isSome
  customers : after.customers = before.customers
  access : ∀ id, .lock (.user id) .forUpdate ∉ held ∨ .recomputing id ∉ held → SameAccess before after id
  groups : ∀ id, .lock (.group id) .forUpdate ∉ held → SameGroup before after id
  members : ∀ id, .membersWritten id ∉ held → after.membersOf id = before.membersOf id
  names : ∀ id, after.groupNames id ≠ before.groupNames id → owed (.recomputing id)
  settles : ∀ id, .recomputing id ∈ held → ∃ names, .namesRead id names ∈ held ∧
    (names = before.groupNames id → Settled mapping (.demotionSkipped id ∈ held) after id)

/-- What the notes say: a derivation begins with the lock, before it reads the names. -/
structure Notes (held marks : List Mark) (now : Directory) : Prop where
  begins : ∀ id, .recomputing id ∈ marks → (∀ names, .namesRead id names ∉ held ++ marks) ∧
    ((now.user? id).isSome → .lock (.user id) .forUpdate ∈ held ++ marks)
  reads : ∀ id names, .namesRead id names ∈ marks → names = now.groupNames id ∧ .lock (.user id) .forUpdate ∈ held

def promise (mapping : SCIMMapping) (mayFail : Prop) : Promise Directory Mark where
  notes := Notes
  gives := Gives mapping
  loses held now := ∀ id, .recomputing id ∈ held → now.user? id = none
  mayFail := mayFail
  mono implies given := { given with names := fun id changed => implies _ (given.names id changed) }

theorem rely_refl (db : Directory) : Rely held db db :=
  ⟨fun _ => rfl, rfl, fun id _ => sameAccess_refl db id, fun _ _ => ⟨rfl, rfl⟩, fun _ _ => rfl⟩

theorem rely_trans (a b c : Directory) (first : Rely held a b) (second : Rely held b c) : Rely held a c where
  exist id := (second.exist id).trans (first.exist id)
  customers := second.customers.trans first.customers
  access id locked := (first.access id locked).trans (second.access id locked)
  groups id locked :=
    ⟨(second.groups id locked).row.trans (first.groups id locked).row,
      (second.groups id locked).members.trans (first.groups id locked).members⟩
  members id isRead := (second.members id isRead).trans (first.members id isRead)

variable {held : List Mark}

theorem not_locked_of_apart {others : List Mark} {row : Lockable} (apart : Apart MembersAlone held others)
    (locked : .lock row .forUpdate ∈ others) : .lock row .forUpdate ∉ held :=
  fun lockedToo => apart _ lockedToo _ locked (Or.inl ⟨_, rfl, _, rfl, rfl, rfl⟩)

variable {owed : Mark → Prop}

theorem rely_of_gives {mapping : SCIMMapping} {others : List Mark} {a b : Directory}
    (apart : Apart MembersAlone held others) (given : Gives mapping held owed a b) : Rely others a b where
  exist := given.exist
  customers := given.customers
  access id locked := given.access id (Or.inl (not_locked_of_apart apart locked))
  groups id locked := given.groups id (not_locked_of_apart apart locked)
  members id isRead := by
    apply given.members
    exact fun isWritten => apart _ isWritten _ isRead (Or.inr (Or.inr ⟨id, rfl, rfl⟩))

abbrev GroupTriple {α : Type} (mapping : SCIMMapping) (mayFail : Prop) (pre : Assertion Directory Mark)
    (session : DirectorySession α) (post : α → Assertion Directory Mark) : Prop :=
  Triple (fun _ => True) Rely (promise mapping mayFail) pre session post

variable {now : Directory}

theorem notes_plain {marks : List Mark} (plain : ∀ mark ∈ marks, derives mark = false) : Notes held marks now where
  begins _ mem := nomatch plain _ mem
  reads _ _ mem := nomatch plain _ mem

/-! ## Statements one after the other -/

section

variable {α : Type} {mapping : SCIMMapping} {mayFail : Prop} {base change : Directory → Directory}
  {facts : List Mark → Directory → Prop}

def At (base : Directory → Directory) (facts : List Mark → Directory → Prop) : Assertion Directory Mark :=
  fun pending held now => pending = base ∧ facts held now

/-- Neither the others nor more marks disturb the facts. -/
structure Kept (facts : List Mark → Directory → Prop) : Prop where
  later : ∀ held before after, Rely held before after → facts held before → facts held after
  more : ∀ held marks now, (∀ mark ∈ marks, derives mark = false) → facts held now → facts (held ++ marks) now

theorem Kept.and {facts' : List Mark → Directory → Prop} (kept : Kept facts) (kept' : Kept facts') :
    Kept fun held now => facts held now ∧ facts' held now where
  later _ _ _ rely known := ⟨kept.later _ _ _ rely known.1, kept'.later _ _ _ rely known.2⟩
  more _ _ _ plain known := ⟨kept.more _ _ _ plain known.1, kept'.more _ _ _ plain known.2⟩

theorem kept_mem (mark : Mark) : Kept fun held _ => mark ∈ held where
  later _ _ _ _ mem := mem
  more _ _ _ _ mem := List.mem_append_left _ mem

theorem Kept.stable (kept : Kept facts) (base : Directory → Directory) : Stable (fun _ => True) Rely (At base facts) :=
  fun _ _ _ _ rely _ _ known => ⟨known.1, kept.later _ _ _ rely known.2⟩

theorem triple_change (kept : Kept facts) {marks : Directory → List Mark} {effect : Directory → α × (Directory → Directory)}
    (plain : ∀ seen, ∀ mark ∈ marks seen, derives mark = false) (same : ∀ seen, (effect seen).2 = change) :
    GroupTriple mapping mayFail (At base facts) (execute marks effect) fun _ => At (fun db => change (base db)) facts := by
  apply triple_noted (kept.stable base) fun _ => kept.stable _
  rintro _ held now _ ⟨rfl, known⟩
  refine ⟨notes_plain (plain _), ?_, kept.more _ _ _ (plain _) known⟩
  rw [same]

theorem triple_return (kept : Kept facts) {value : α} {post : α → Assertion Directory Mark}
    (implies : ∀ held now, facts held now → post value base held now) :
    GroupTriple mapping mayFail (At base facts) (pure value) post := by
  apply triple_pure (kept.stable base)
  rintro _ held now _ ⟨rfl, known⟩
  exact implies held now known

end

/-! ## The derivation of one user's access -/

variable {mapping : SCIMMapping} {mayFail : Prop} {id : Uuid} {user : User} {names : List String} {role : String}

structure HasRow (id : Uuid) (user : User) (held : List Mark) (now : Directory) : Prop where
  locked : .lock (.user id) .forUpdate ∈ held
  noted : .recomputing id ∈ held
  only : ∀ other, .recomputing other ∈ held → other = id
  found : now.user? id = some user

theorem HasRow.append {marks : List Mark} (hasRow : HasRow id user held now) (none : ∀ other, .recomputing other ∉ marks) :
    HasRow id user (held ++ marks) now where
  locked := List.mem_append_left _ hasRow.locked
  noted := List.mem_append_left _ hasRow.noted
  only other mem := (List.mem_append.mp mem).elim (hasRow.only other) fun isNew => absurd isNew (none other)
  found := hasRow.found

theorem kept_hasRow (id : Uuid) (user : User) : Kept (HasRow id user) where
  later _ _ _ rely hasRow := { hasRow with found := (rely.access id hasRow.locked).row.trans hasRow.found }
  more _ _ _ plain hasRow := hasRow.append fun _ isNew => nomatch plain _ isNew

def HasNames (id : Uuid) (user : User) (names : List String) (held : List Mark) (now : Directory) : Prop :=
  HasRow id user held now ∧ .namesRead id names ∈ held

theorem kept_hasNames (id : Uuid) (user : User) (names : List String) : Kept (HasNames id user names) :=
  (kept_hasRow id user).and (kept_mem _)

def MayWrite (mapping : SCIMMapping) (id : Uuid) (user : User) (names : List String) (role : String) (held : List Mark)
    (now : Directory) : Prop :=
  HasNames id user names held now ∧ known role = true ∧
    (DerivedRole mapping names role ∨ .demotionSkipped id ∈ held ∧ role = roleAdmin)

theorem kept_mayWrite (mapping : SCIMMapping) (id : Uuid) (user : User) (names : List String) (role : String) :
    Kept (MayWrite mapping id user names role) where
  later _ _ _ rely may := ⟨(kept_hasNames id user names).later _ _ _ rely may.1, may.2⟩
  more _ _ _ plain may :=
    ⟨(kept_hasNames id user names).more _ _ _ plain may.1, may.2.1, may.2.2.imp_right (And.imp_left (List.mem_append_left _))⟩

def Resolves (db : Directory) (slugs : List String) (customerID : Uuid) : Prop :=
  ∃ slug ∈ slugs, ∃ customer, db.customerBySlug slug = some customer ∧ customer.id = customerID

def Missing (id : Uuid) (held : List Mark) (now : Directory) : Prop :=
  (∀ other, .recomputing other ∈ held → other = id) ∧ now.user? id = none

theorem stable_missing (id : Uuid) : Stable (fun _ => True) Rely fun _ held now => Missing id held now := by
  rintro _ held before after rely _ _ ⟨only, missing⟩
  refine ⟨only, ?_⟩
  have same := rely.exist id
  rw [missing] at same
  exact Option.not_isSome_iff_eq_none.mp (by simp [same])

theorem stable_idle : Stable (fun _ => True) Rely Idle := fun _ _ _ _ _ _ _ idle => idle

theorem triple_selectUserForUpdate (id : Uuid) :
    GroupTriple mapping mayFail Idle (selectUserForUpdate [.recomputing id] id) fun row pending held now =>
      (row = none → Missing id held now) ∧ ∀ user, row = some user → At (fun db => db) (HasRow id user) pending held now := by
  apply triple_noted stable_idle
  · rintro row pending held before after rely _ _ ⟨missing, found⟩
    exact ⟨fun none => stable_missing id pending held _ _ rely trivial trivial (missing none),
      fun user isRow => (kept_hasRow id user).stable _ _ _ _ _ rely trivial trivial (found user isRow)⟩
  · rintro _ _ now _ ⟨rfl, rfl⟩
    simp only [id_eq]
    cases found : now.user? id with
    | none => refine ⟨⟨?_, ?_⟩, fun _ => ⟨?_, found⟩, ?_⟩ <;> simp [userLock]
    | some row =>
      refine ⟨⟨?_, ?_⟩, by simp, ?_⟩
      · simp [userLock]
      · simp [userLock]
      · rintro _ ⟨rfl⟩
        exact ⟨rfl, by simp [userLock, found], by simp, by simp [userLock], found⟩

theorem triple_selectGroupNames (id : Uuid) (user : User) :
    GroupTriple mapping mayFail (At (fun db => db) (HasRow id user)) (selectGroupNames id) fun names =>
      At (fun db => db) (HasNames id user names) := by
  apply triple_noted ((kept_hasRow id user).stable _) fun names => (kept_hasNames id user names).stable _
  rintro _ held now _ ⟨rfl, hasRow⟩
  refine ⟨⟨by simp, ?_⟩, rfl, hasRow.append (by simp), List.mem_append_right _ List.mem_cons_self⟩
  intro other names mem
  cases List.mem_singleton.mp mem
  exact ⟨rfl, hasRow.locked⟩

theorem triple_guardLastAdmin (isKnown : known mapping.defaultRole = true) (id : Uuid) (user : User) (names : List String) :
    GroupTriple mapping mayFail (At (fun db => db) (HasNames id user names))
      (guardLastAdmin id user.role ((derive mapping names).role mapping)) fun role =>
        At (fun db => db) (MayWrite mapping id user names role) := by
  have kept := kept_hasNames id user names
  have derived : ∀ held now, HasNames id user names held now →
      MayWrite mapping id user names ((derive mapping names).role mapping) held now :=
    fun held now hasNames => ⟨hasNames, known_role isKnown names, Or.inl (derivedRole_role mapping names)⟩
  have keptCount admins : Kept fun held _ => admins ≤ 1 → .demotionSkipped id ∈ held :=
    ⟨fun _ _ _ _ skipped => skipped, fun _ _ _ _ skipped few => List.mem_append_left _ (skipped few)⟩
  unfold guardLastAdmin
  split
  · have count : GroupTriple mapping mayFail (At (fun db => db) (HasNames id user names))
        (execute (fun seen => .adminsCounted :: if seen.enabledAdmins ≤ 1 then [.demotionSkipped id] else [])
          fun seen => (seen.enabledAdmins, fun db => db)) fun admins =>
            At (fun db => db) fun held now => HasNames id user names held now ∧ (admins ≤ 1 → .demotionSkipped id ∈ held) := by
      apply triple_noted (kept.stable _) fun admins => (kept.and (keptCount admins)).stable _
      rintro _ held now _ ⟨rfl, hasNames⟩
      have plain : ∀ mark ∈ (.adminsCounted :: if now.enabledAdmins ≤ 1 then [.demotionSkipped id] else []),
          derives mark = false := by
        split <;> simp [derives]
      refine ⟨notes_plain plain, rfl, kept.more _ _ _ plain hasNames, ?_⟩
      intro few
      simp [few]
    apply Triple.bind rely_refl count
    intro admins
    apply triple_return (kept.and (keptCount admins))
    rintro held now ⟨hasNames, skipped⟩
    refine ⟨rfl, ?_⟩
    split
    · rename_i few
      exact ⟨hasNames, by decide, Or.inr ⟨skipped few, rfl⟩⟩
    · exact derived held now hasNames
  · exact triple_return kept fun held now hasNames => ⟨rfl, derived held now hasNames⟩

theorem kept_customerBySlug (slug : String) (found : Option Customer) : Kept fun _ now => now.customerBySlug slug = found where
  later _ _ _ rely isFound := by
    rw [customerBySlug, rely.customers]
    exact isFound
  more _ _ _ _ isFound := isFound

theorem kept_resolves (slugs : List String) (isResolved : Uuid → Prop) :
    Kept fun _ now => ∀ customerID, isResolved customerID ↔ Resolves now slugs customerID where
  later _ _ _ rely same customerID := by
    rw [same]
    simp only [Resolves, customerBySlug, rely.customers]
  more _ _ _ _ same := same

variable {facts : List Mark → Directory → Prop}

theorem triple_findSlugs (kept : Kept facts) (slugs : List String) (grantSet : List Uuid) :
    GroupTriple mapping mayFail (At (fun db => db) facts) (resolveSlugs slugs grantSet) fun found =>
      At (fun db => db) fun held now => facts held now ∧
        ∀ customerID, customerID ∈ found ↔ customerID ∈ grantSet ∨ Resolves now slugs customerID := by
  induction slugs generalizing grantSet facts with
  | nil =>
    apply triple_return kept
    intro held now known
    refine ⟨rfl, known, ?_⟩
    simp [Resolves]
  | cons slug slugs ih =>
    have lookup : GroupTriple mapping mayFail (At (fun db => db) facts) (query fun seen => seen.customerBySlug slug)
        fun found => At (fun db => db) fun held now => facts held now ∧ now.customerBySlug slug = found := by
      apply triple_noted (kept.stable _) fun found => (kept.and (kept_customerBySlug slug found)).stable _
      rintro _ held now _ ⟨rfl, known⟩
      exact ⟨notes_plain (by simp), rfl, kept.more _ _ _ (by simp) known, rfl⟩
    apply Triple.bind rely_refl lookup
    intro found
    have keptFound := kept.and (kept_customerBySlug slug found)
    cases found with
    | none =>
      apply (ih keptFound grantSet).weaken
      rintro res pending held now _ ⟨isBase, ⟨known, isNone⟩, isFound⟩
      refine ⟨isBase, known, ?_⟩
      intro customerID
      rw [isFound]
      simp [Resolves, isNone]
    | some customer =>
      apply (ih keptFound _).weaken
      rintro res pending held now _ ⟨isBase, ⟨known, isSome⟩, isFound⟩
      refine ⟨isBase, known, ?_⟩
      intro customerID
      -- the customer is added unless it is there
      have added : customerID ∈ (if customer.id ∈ grantSet then grantSet else grantSet ++ [customer.id]) ↔
          customerID ∈ grantSet ∨ customer.id = customerID := by
        split
        · rename_i mem
          exact (or_iff_left_of_imp fun same => same ▸ mem).symm
        · simp [eq_comm]
      rw [isFound, added]
      simp [Resolves, isSome, or_assoc]

def addGrants (userID : Uuid) (grantSet : List Uuid) (db : Directory) : Directory :=
  { db with grants := db.grants ++ grantSet.map (Grant.mk userID) }

theorem triple_addGrants (kept : Kept facts) (grantSet : List Uuid) (base : Directory → Directory) :
    GroupTriple mapping mayFail (At base facts) (insertGrants id grantSet) fun _ =>
      At (fun db => addGrants id grantSet (base db)) facts := by
  induction grantSet generalizing base with
  | nil =>
    apply triple_return kept
    intro held now known
    refine ⟨?_, known⟩
    simp [addGrants]
  | cons customerID rest ih =>
    apply Triple.bind rely_refl (triple_change kept (fun _ => userLock_plain _ _ _) fun _ => rfl)
    intro _
    apply (ih _).weaken
    rintro _ pending held now _ ⟨rfl, known⟩
    refine ⟨?_, known⟩
    simp [addGrants, addGrant]

def accessWritten (id : Uuid) (role : String) (grantSet : List Uuid) (db : Directory) : Directory :=
  addGrants id grantSet ((db.updateUser id fun user => { user with scimManaged := true, role := role }).clearGrants id)

theorem writes_accessWritten (id : Uuid) (role : String) (grantSet : List Uuid) :
    Writes id (Option.map (updated id fun user => { user with scimManaged := true, role := role })) (accessWritten id role grantSet) :=
  @Writes.aside _ _ _ ((writes_nothing id).update _) (fun db => addGrants id grantSet (db.clearGrants id)) fun _ => rfl

variable {grantSet : List Uuid}

theorem mem_grants_accessWritten {db : Directory} {other customerID : Uuid} :
    ⟨other, customerID⟩ ∈ (accessWritten id role grantSet db).grants ↔
      if other = id then customerID ∈ grantSet else ⟨other, customerID⟩ ∈ db.grants := by
  simp only [accessWritten, addGrants, clearGrants]
  split
  · rename_i same
    simp [same]
  · rename_i distinct
    simp [distinct, Ne.symm distinct, updateUser]

theorem triple_writesAccess (kept : Kept facts) (isKnown : known role = true) (grantSet : List Uuid)
    {post : Except StoreError Unit → Assertion Directory Mark}
    (implies : ∀ held now, facts held now → post (.ok ()) (accessWritten id role grantSet) held now) :
    GroupTriple mapping mayFail (At (fun db => db) facts) (writeAccess id role grantSet) post := by
  have update : GroupTriple mapping mayFail (At (fun db => db) facts)
      (execUpdateRole "recompute" [.roleWritten id role] id role fun user => { user with scimManaged := true })
      fun res pending held now => ∃ found, res = .ok found ∧
        At (fun db => db.updateUser id fun user => { user with scimManaged := true, role := role }) facts pending held now := by
    rw [execUpdateRole, if_pos isKnown]
    have plain : ∀ seen, ∀ mark ∈ userLock .noKeyUpdate id seen ++ [.roleWritten id role], derives mark = false :=
      fun seen => Data.forall_mem_append_row (userLock_plain _ _ _) rfl
    apply triple_noted (kept.stable _)
    · rintro res pending held before after rely _ _ ⟨found, isOk, isBase, known⟩
      exact ⟨found, isOk, isBase, kept.later _ _ _ rely known⟩
    · rintro _ held now _ ⟨rfl, known⟩
      exact ⟨notes_plain (plain _), _, rfl, rfl, kept.more _ _ _ (plain _) known⟩
  apply Triple.bind rely_refl update
  intro res
  apply Triple.given (fun pending held now holds => Exists.imp (fun _ => And.left) holds)
  rintro ⟨found, rfl⟩
  have rest : GroupTriple mapping mayFail
      (At (fun db => db.updateUser id fun user => { user with scimManaged := true, role := role }) facts)
      (do
        execute (fun _ => []) fun _ => ((), fun db => db.clearGrants id)
        insertGrants id grantSet
        succeed) post := by
    apply Triple.bind rely_refl (triple_change kept (fun _ => by simp) fun _ => rfl)
    intro _
    apply Triple.bind rely_refl (triple_addGrants kept grantSet _)
    intro _
    exact triple_return kept implies
  exact rest.imp fun _ _ _ _ ⟨_, _, isBase⟩ => isBase

theorem settled_accessWritten {skipped : Prop} {db : Directory}
    (isRole : DerivedRole mapping (db.groupNames id) role ∨ skipped ∧ role = roleAdmin)
    (isGrantSet : ∀ customerID, customerID ∈ grantSet ↔ Resolves db (derive mapping (db.groupNames id)).slugs customerID) :
    Settled mapping skipped (accessWritten id role grantSet db) id := by
  intro user found _
  have isID : user.id = id := user?_id found
  rw [(writes_accessWritten id role grantSet).own] at found
  obtain ⟨row, isRow, isUser⟩ := Option.map_eq_some_iff.mp found
  have sameRole : user.role = role := by
    rw [← isUser, updated, if_pos (user?_id isRow)]
  constructor
  · rw [isID, sameRole]
    exact isRole
  · intro customerID
    -- neither the groups nor the customers are touched
    rw [isID, mem_grants_accessWritten, if_pos rfl, isGrantSet, derivedGrant_iff]
    rfl

theorem gives_accessWritten (may : MayWrite mapping id user names role held now)
    (isGrantSet : ∀ customerID, customerID ∈ grantSet ↔ Resolves now (derive mapping names).slugs customerID) :
    Gives mapping held owed now (accessWritten id role grantSet now) := by
  obtain ⟨⟨hasRow, isRead⟩, _, isRole⟩ := may
  have writes := writes_accessWritten id role grantSet
  have others : ∀ other, other ≠ id → SameAccess now (accessWritten id role grantSet now) other := by
    intro other distinct
    refine ⟨writes.others now other distinct, ?_⟩
    intro customerID
    rw [mem_grants_accessWritten, if_neg distinct]
  refine ⟨?_, rfl, ?_, fun _ _ => ⟨rfl, rfl⟩, fun _ _ => rfl, fun _ changed => absurd rfl changed, ?_⟩
  · intro other
    by_cases isOwn : other = id
    · rw [isOwn, writes.own, Option.isSome_map]
    · rw [writes.others now other isOwn]
  · intro other outside
    apply others
    rintro rfl
    exact outside.elim (fun unlocked => unlocked hasRow.locked) fun unnoted => unnoted hasRow.noted
  · intro other noted
    obtain rfl := hasRow.only other noted
    refine ⟨names, isRead, ?_⟩
    rintro rfl
    exact settled_accessWritten isRole isGrantSet

theorem gives_unmanaged (hasNames : HasNames id user names held now)
    (unmanaged : user.scimManaged = false) : Gives mapping held owed now now := by
  obtain ⟨hasRow, isRead⟩ := hasNames
  refine ⟨fun _ => rfl, rfl, fun other _ => sameAccess_refl now other, fun _ _ => ⟨rfl, rfl⟩, fun _ _ => rfl,
    fun _ changed => absurd rfl changed, ?_⟩
  intro other noted
  obtain rfl := hasRow.only other noted
  refine ⟨names, isRead, ?_⟩
  intro _ row found managed
  rw [hasRow.found] at found
  cases found
  rw [unmanaged] at managed
  cases managed

theorem transacts_recompute (isKnown : known mapping.defaultRole = true) (id : Uuid) :
    Transacts (fun _ => True) Rely (promise mapping mayFail) Idle (fun _ _ => False) (recomputeSCIMUserAccess mapping id) := by
  apply transacts_recomputeSCIMUserAccess rely_refl (triple_selectUserForUpdate id) _ (triple_selectGroupNames id) _
    (triple_guardLastAdmin isKnown id)
    fun user names role => triple_findSlugs (kept_mayWrite mapping id user names role) (derive mapping names).slugs []
  · intro user names role grantSet
    have kept := (kept_mayWrite mapping id user names role).and
      (kept_resolves (derive mapping names).slugs fun customerID => customerID ∈ grantSet)
    have write : GroupTriple mapping mayFail
        (At (fun db => db) fun held now => MayWrite mapping id user names role held now ∧
          ∀ customerID, customerID ∈ grantSet ↔ Resolves now (derive mapping names).slugs customerID)
        (writeAccess id role grantSet) (Ends (fun _ => True) (promise mapping mayFail)) := by
      apply Triple.given fun pending held now holds => holds.2.1.2.1
      intro isKnownRole
      apply triple_writesAccess kept isKnownRole
      rintro held now ⟨may, isGrantSet⟩
      exact ends_ok (gives_accessWritten may isGrantSet) trivial
    apply write.imp
    rintro pending held now _ ⟨isBase, may, isGrantSet⟩
    exact ⟨isBase, may, fun customerID => by simpa using isGrantSet customerID⟩
  · intro err
    apply triple_pure (stable_missing id)
    rintro pending held now _ ⟨only, missing⟩
    refine ⟨fun _ isOk => (nomatch isOk), ?_⟩
    intro _ _ other noted
    rw [only other noted]
    exact missing
  · intro user names isUnmanaged
    apply triple_return (kept_hasNames id user names)
    intro held now hasNames
    exact ends_ok (gives_unmanaged hasNames (Bool.or_eq_false_iff.mp isUnmanaged).1) trivial

end OtelFleet.Verified.GroupChanges
