import OtelFleet.Api.Customers

/-! # Deleted customers are cut off

A deletion revokes the keys that it sees and submits a purge afterwards.  That covers
every key as long as no key is created around the deletion, between the look-up of the
customer and the commit, and as long as the status is not set to deleted by an update.
-/

namespace OtelFleet.Verified.DeletedCustomers

open Api Semantics Semantics.Session Store Store.Roster

/-! ## Rows -/

variable {row : CustomerRow}

section

variable {db : Roster} {id : Uuid}

theorem customer?_id (found : db.customer? id = some row) : row.id = id := by
  simpa using List.find?_some found

theorem mem_customers_iff : row ∈ db.customers ↔ db.customer? row.id = some row :=
  ⟨fun mem => Data.find?_of_mem db.customers_id mem, fun found => List.mem_of_find?_eq_some found⟩

variable (change : CustomerRow → CustomerRow)

theorem customer?_changeCustomer (other : Uuid) :
    (db.changeCustomer id change).customer? other = (db.customer? other).map (changed id change) :=
  Data.find?_map_rows (changed_id id change) other

theorem customer?_changeCustomer_of_ne {other : Uuid} (distinct : other ≠ id) :
    (db.changeCustomer id change).customer? other = db.customer? other := by
  rw [customer?_changeCustomer]
  cases found : db.customer? other with
  | none => rfl
  | some row =>
    have notID : row.id ≠ id := by
      rw [customer?_id found]
      exact distinct
    simp only [Option.map_some, changed, if_neg notID]

theorem liveCustomer_eq_some : db.liveCustomer id = some row ↔ db.customer? id = some row ∧ row.status ≠ .deleted := by
  simp [liveCustomer]

def tenant (db : Roster) (id : Uuid) : Option (String × String) := (db.customer? id).map fun row => (row.clientID, row.region)

theorem tenant_changeCustomer (other : Uuid) : tenant (db.changeCustomer id change) other = tenant db other := by
  unfold tenant
  rw [customer?_changeCustomer, Option.map_map]
  congr 1
  funext row
  simp only [Function.comp_apply, changed]
  split <;> rfl

theorem mem_openKeys {key : APIKey} : key ∈ db.openKeys id ↔ key ∈ db.keys ∧ key.customerID = id ∧ key.revokedAt = none := by
  simp [openKeys]

end

/-! ## Promises -/

def KeysRevoked (db : Roster) : Prop := ∀ id row, db.customer? id = some row → row.status = .deleted → db.openKeys id = []

def found? : RosterMark → Option Uuid
  | .customerFound id => some id
  | _ => none

def revoked? : RosterMark → Option Uuid
  | .keysRevoked id => some id
  | _ => none

/-- Beside the locks of PostgreSQL, a key is not created while a deletion of its customer
    that has revoked the keys is open, nor the other way round. -/
def DeletesAlone (mark other : RosterMark) : Prop :=
  mark.conflicts other ∨ (∃ id ∈ found? mark, id ∈ revoked? other) ∨ ∃ id ∈ found? other, id ∈ revoked? mark

instance : DecidableRel DeletesAlone := fun mark other =>
  inferInstanceAs (Decidable (mark.conflicts other ∨ (∃ id ∈ found? mark, id ∈ revoked? other) ∨
    ∃ id ∈ found? other, id ∈ revoked? mark))

def NoNewKeys (before after : Roster) (id : Uuid) : Prop :=
  ∀ key ∈ after.openKeys id, ∃ old ∈ before.openKeys id, old.id = key.id

variable (held : List RosterMark)

structure Rely (before after : Roster) : Prop where
  tenants : ∀ id, tenant after id = tenant before id
  rows : ∀ id, .lock (.customer id) .noKeyUpdate ∈ held → after.customer? id = before.customer? id
  live : ∀ id, .customerFound id ∈ held → (before.liveCustomer id).isSome → (after.liveCustomer id).isSome
  keys : ∀ id, .keysRevoked id ∈ held → NoNewKeys before after id

structure Guar (env : CustomerEnv) (held : List RosterMark) (owed : RosterMark → Prop) (before after : Roster) : Prop where
  tenants : ∀ id, tenant after id = tenant before id
  rows : ∀ id, .lock (.customer id) .noKeyUpdate ∉ held → after.customer? id = before.customer? id
  live : ∀ id, .keysRevoked id ∉ held → (before.liveCustomer id).isSome → (after.liveCustomer id).isSome
  keys : ∀ id, .customerFound id ∉ held → NoNewKeys before after id
  purged : ∀ purge ∈ before.purged, purge ∈ after.purged
  debt : env.purgeOnDelete = true → ∀ id row, after.customer? id = some row → row.status = .deleted →
    (before.liveCustomer id).isSome → owed (.purgeSubmitted row.clientID row.region)
  paid : ∀ clientID region, .purgeSubmitted clientID region ∈ held → (clientID, region) ∈ after.purged

def Unpurged : Prop := ∀ clientID region, .purgeSubmitted clientID region ∉ held

variable (env : CustomerEnv)

def promise : Promise Roster RosterMark where
  notes _ _ _ := True
  gives := Guar env
  loses held _ := Unpurged held
  mayFail := False
  mono implies given := { given with
    debt := fun purges id row found deleted wasLive => implies _ (given.debt purges id row found deleted wasLive) }

theorem promise_quiet : (promise env).Quiet := fun _ _ _ => trivial

variable (db : Roster)

theorem noNewKeys_refl (id : Uuid) : NoNewKeys db db id := fun key mem => ⟨key, mem, rfl⟩

theorem rely_refl : Rely held db db :=
  ⟨fun _ => rfl, fun _ _ => rfl, fun _ _ isLive => isLive, fun id _ => noNewKeys_refl db id⟩

theorem rely_trans (a b c : Roster) (first : Rely held a b) (second : Rely held b c) : Rely held a c where
  tenants id := (second.tenants id).trans (first.tenants id)
  rows id locked := (second.rows id locked).trans (first.rows id locked)
  live id isFound isLive := second.live id isFound (first.live id isFound isLive)
  keys id isRevoked key mem := by
    obtain ⟨middle, isMiddle, same⟩ := second.keys id isRevoked key mem
    obtain ⟨old, isOld, sameOld⟩ := first.keys id isRevoked middle isMiddle
    exact ⟨old, isOld, sameOld.trans same⟩

theorem rely_of_guar (held : List RosterMark) (owed : RosterMark → Prop) (others : List RosterMark)
    (a b : Roster) (apart : Apart DeletesAlone held others) (guar : Guar env held owed a b) : Rely others a b where
  tenants := guar.tenants
  rows id locked := by
    apply guar.rows id
    exact fun lockedToo => apart _ lockedToo _ locked (Or.inl ⟨_, rfl, _, rfl, rfl, rfl⟩)
  live id isFound := by
    apply guar.live id
    exact fun isRevoked => apart _ isRevoked _ isFound (Or.inr (Or.inr ⟨id, rfl, rfl⟩))
  keys id isRevoked := by
    apply guar.keys id
    exact fun isFound => apart _ isFound _ isRevoked (Or.inr (Or.inl ⟨id, rfl, rfl⟩))

abbrev CustomerTriple {α : Type} (pre : Assertion Roster RosterMark) (session : RosterSession α)
    (post : α → Assertion Roster RosterMark) : Prop := Triple KeysRevoked Rely (promise env) pre session post

def OrFailed {ε α : Type} (ready : Assertion Roster RosterMark) : Except ε α → Assertion Roster RosterMark
  | .error _ => fun _ held _ => Unpurged held
  | .ok _ => ready

theorem stable_idle : Stable KeysRevoked Rely Idle := fun _ _ _ _ _ _ _ idle => idle

theorem triple_transaction {env : CustomerEnv} {ε α : Type} {pre ready : Assertion Roster RosterMark}
    {marks : Roster → List RosterMark} {effect : Roster → Except ε α × (Roster → Roster)}
    (stable : Stable KeysRevoked Rely pre) (stableReady : Stable KeysRevoked Rely ready)
    (runs : ∀ pending held now, pre pending held now → OrFailed ready (effect (pending now)).1
      (fun db => (effect (pending now)).2 (pending db)) (held ++ marks (pending now)) now)
    (ends : ∀ value pending held now, KeysRevoked now → ready pending held now →
      Ends KeysRevoked (promise env) (.ok value : Except ε α) pending held now) :
    CustomerTriple env pre (inTx (execute marks effect)) fun _ => Idle := by
  apply triple_inTx
  have executed : CustomerTriple env pre (execute marks effect) (OrFailed ready) := by
    apply triple_execute (promise_quiet _) stable
    · intro res
      cases res with
      | error err => exact fun _ _ _ _ _ _ _ unpurged => unpurged
      | ok value => exact stableReady
    · exact fun pending held now _ holds => runs pending held now holds
  apply executed.weaken
  intro res pending held now isInv holds
  cases res with
  | error err => exact ⟨fun _ isOk => (nomatch isOk), fun _ _ => holds⟩
  | ok value => exact ends value pending held now isInv holds

/-! ## Look-ups -/

variable {before after : Roster}

section

variable {env : CustomerEnv} {id : Uuid}

theorem liveCustomer_congr (same : after.customer? id = before.customer? id) :
    after.liveCustomer id = before.liveCustomer id := by
  unfold liveCustomer
  rw [same]

def HasTenant (id : Uuid) (customer : CustomerRow) (now : Roster) : Prop :=
  tenant now id = some (customer.clientID, customer.region)

theorem triple_getCustomer (env : CustomerEnv) (notes : List RosterMark) (id : Uuid)
    (stays : ∀ before after, Rely notes before after → (before.liveCustomer id).isSome →
      notes = [] ∨ (after.liveCustomer id).isSome) :
    CustomerTriple env Idle (getCustomer notes id) fun res pending held now =>
      (∀ err, res = .error err → Idle pending held now) ∧
        ∀ customer, res = .ok customer → pending = (fun db => db) ∧ held = notes ∧ HasTenant id customer now ∧
          (notes = [] ∨ (now.liveCustomer id).isSome) := by
  apply triple_execute (promise_quiet _) stable_idle
  · intro res pending held before after rely _ _ ⟨fails, finds⟩
    refine ⟨fails, fun customer isFound => ?_⟩
    obtain ⟨isPending, isHeld, hasTenant, live⟩ := finds customer isFound
    refine ⟨isPending, isHeld, (rely.tenants id).trans hasTenant, ?_⟩
    rcases live with none | isLive
    · exact Or.inl none
    · exact stays before after (isHeld ▸ rely) isLive
  · rintro pending held now _ ⟨rfl, rfl⟩
    rcases Option.eq_none_or_eq_some (now.liveCustomer id) with missing | ⟨row, live⟩
    · simp only [id_eq, missing]
      refine ⟨fun _ _ => ⟨rfl, rfl⟩, ?_⟩
      intro customer isFound
      cases isFound
    · simp only [id_eq, live]
      refine ⟨?_, ?_⟩
      · intro err isError
        cases isError
      · intro customer isFound
        cases isFound
        refine ⟨trivial, rfl, ?_, Or.inr rfl⟩
        rw [HasTenant, tenant, (liveCustomer_eq_some.mp live).1]
        rfl

end

/-! ## Updates -/

variable {held : List RosterMark} {pending : Roster → Roster} {db : Roster} {now : Roster}

section

variable {env : CustomerEnv} {id : Uuid} {upd : CustomerUpdate}

theorem parseStatus_deleted {status : String} (parsed : parseStatus status = some .deleted) : status = "deleted" := by
  unfold parseStatus at parsed
  split at parsed
  · cases parsed
  · split at parsed
    · cases parsed
    · split at parsed
      · assumption
      · cases parsed

theorem apply_live {row' : CustomerRow} (allowed : upd.status ≠ some "deleted") (applied : upd.apply row = some row')
    (live : row.status ≠ .deleted) : row'.status ≠ .deleted := by
  unfold CustomerUpdate.apply at applied
  generalize upd.status = found at allowed applied
  cases found with
  | none =>
    cases applied
    exact live
  | some status =>
    obtain ⟨parsed, isParsed, rfl⟩ := Option.map_eq_some_iff.mp applied
    rintro rfl
    rw [parseStatus_deleted isParsed] at allowed
    exact allowed rfl

def Updating (id : Uuid) (upd : CustomerUpdate) : Assertion Roster RosterMark := fun pending held now =>
  pending = (fun db => db.changeCustomer id fun row => (upd.apply row).getD row) ∧
    held = [.lock (.customer id) .noKeyUpdate] ∧ ∃ row row', now.liveCustomer id = some row ∧ upd.apply row = some row'

theorem stable_updating : Stable KeysRevoked Rely (Updating id upd) := by
  rintro pending held before after rely _ _ ⟨isPending, isHeld, row, row', live, applied⟩
  have locked : .lock (.customer id) .noKeyUpdate ∈ held := by
    rw [isHeld]
    exact List.mem_cons_self
  exact ⟨isPending, isHeld, row, row', (liveCustomer_congr (rely.rows id locked)).trans live, applied⟩

theorem changeCustomer_live {row' : CustomerRow} (live : now.liveCustomer id = some row)
    {change : CustomerRow → CustomerRow} (becomes : change row = row') (stays : row'.status ≠ .deleted) (other : Uuid)
    (wasLive : (now.liveCustomer other).isSome) : ((now.changeCustomer id change).liveCustomer other).isSome := by
  obtain ⟨found, _⟩ := liveCustomer_eq_some.mp live
  by_cases isOwn : other = id
  · subst isOwn
    have after : (now.changeCustomer other change).liveCustomer other = some (changed other change row) := by
      rw [liveCustomer_eq_some, customer?_changeCustomer, found]
      refine ⟨rfl, ?_⟩
      rw [changed, if_pos (customer?_id found), becomes]
      exact stays
    rw [after]
    rfl
  · rw [liveCustomer_congr (customer?_changeCustomer_of_ne change isOwn)]
    exact wasLive

theorem status_of_live (found : db.customer? id = some row) (live : (db.liveCustomer id).isSome) :
    row.status ≠ .deleted := by
  obtain ⟨row', isLive⟩ := Option.isSome_iff_exists.mp live
  obtain ⟨found', isRow⟩ := liveCustomer_eq_some.mp isLive
  cases found.symm.trans found'
  exact isRow

theorem updating_ends (allowed : upd.status ≠ some "deleted") (isInv : KeysRevoked now)
    (updating : Updating id upd pending held now) :
    Ends KeysRevoked (promise env) (.ok () : Except StoreError Unit) pending held now := by
  obtain ⟨rfl, rfl, row, row', live, applied⟩ := updating
  have stays : ∀ other, (now.liveCustomer other).isSome →
      ((now.changeCustomer id fun row => (upd.apply row).getD row).liveCustomer other).isSome := by
    have becomes : (fun row => (upd.apply row).getD row) row = row' := by simp [applied]
    exact changeCustomer_live live becomes (apply_live allowed applied (liveCustomer_eq_some.mp live).2)
  have others : ∀ other, other ≠ id →
      (now.changeCustomer id fun row => (upd.apply row).getD row).customer? other = now.customer? other :=
    fun other => customer?_changeCustomer_of_ne _
  apply ends_ok
  · refine ⟨tenant_changeCustomer _, ?_, fun other _ => stays other, fun _ _ => noNewKeys_refl _ _, fun _ mem => mem, ?_, ?_⟩
    · intro other unlocked
      apply others
      rintro rfl
      exact unlocked List.mem_cons_self
    · intro _ other row found deleted wasLive
      exact absurd deleted (status_of_live found (stays other wasLive))
    · intro clientID region mem
      simp at mem
  · intro other row found deleted
    by_cases isOwn : other = id
    · subst isOwn
      refine absurd deleted (status_of_live found (stays other ?_))
      rw [live]
      rfl
    · rw [others other isOwn] at found
      exact isInv other row found deleted

theorem triple_updateCustomer (allowed : upd.status ≠ some "deleted") :
    CustomerTriple env Idle (updateCustomer id upd) fun _ => Idle := by
  apply triple_transaction stable_idle (@stable_updating id upd) _ fun _ _ _ _ => updating_ends allowed
  rintro pending held now ⟨rfl, rfl⟩
  have unpurged : Unpurged ([] ++ customerLock id now) := by
    intro clientID region mem
    unfold customerLock at mem
    split at mem <;> simp at mem
  rcases Option.eq_none_or_eq_some (now.liveCustomer id) with missing | ⟨row, live⟩
  · simp only [id_eq, missing]
    exact unpurged
  · rcases Option.eq_none_or_eq_some (upd.apply row) with refused | ⟨row', applied⟩
    · simp only [id_eq, live, refused]
      exact unpurged
    · simp only [id_eq, customerLock, live, applied]
      exact ⟨rfl, rfl, row, row', live, applied⟩

end

/-! ## New keys -/

variable (key : APIKey)

section

variable {env : CustomerEnv}

def Inserting (key : APIKey) : Assertion Roster RosterMark := fun pending held now =>
  pending = (fun db => db.addKey { key with revokedAt := none }) ∧ .customerFound key.customerID ∈ held ∧ Unpurged held ∧
    (now.liveCustomer key.customerID).isSome

theorem stable_inserting : Stable KeysRevoked Rely (Inserting key) := by
  rintro pending held before after rely _ _ ⟨isPending, isFound, unpurged, live⟩
  exact ⟨isPending, isFound, unpurged, rely.live key.customerID isFound live⟩

theorem openKeys_addKey (key : APIKey) (id : Uuid) :
    (db.addKey key).openKeys id = db.openKeys id ++ if key.customerID = id ∧ key.revokedAt = none then [key] else [] := by
  unfold openKeys addKey
  split
  · rename_i isOpen
    simp [isOpen]
  · rename_i isOther
    simp [isOther]

theorem inserting_ends {key : APIKey} (isInv : KeysRevoked now) (inserting : Inserting key pending held now) :
    Ends KeysRevoked (promise env) (.ok () : Except StoreError Unit) pending held now := by
  obtain ⟨rfl, isFound, unpurged, live⟩ := inserting
  have others : ∀ id, id ≠ key.customerID → (now.addKey { key with revokedAt := none }).openKeys id = now.openKeys id := by
    intro id distinct
    rw [openKeys_addKey]
    simp [Ne.symm distinct]
  apply ends_ok
  · refine ⟨fun _ => rfl, fun _ _ => rfl, fun _ _ isLive => isLive, ?_, fun _ mem => mem, ?_, ?_⟩
    · intro id unfound new mem
      rw [others id] at mem
      · exact ⟨new, mem, rfl⟩
      · rintro rfl
        exact unfound isFound
    · intro _ id row found deleted wasLive
      exact absurd deleted (status_of_live found wasLive)
    · exact fun clientID region mem => absurd mem (unpurged clientID region)
  · intro id row found deleted
    by_cases isOwn : id = key.customerID
    · subst isOwn
      exact absurd deleted (status_of_live found live)
    · rw [others id isOwn]
      exact isInv id row found deleted

theorem triple_insertAPIKey :
    CustomerTriple env
      (fun pending held now => pending = (fun db => db) ∧ held = [.customerFound key.customerID] ∧
        (now.liveCustomer key.customerID).isSome)
      (inTx (insertAPIKey key)) fun _ => Idle := by
  apply triple_transaction _ (stable_inserting key) _ fun _ _ _ _ => inserting_ends
  · rintro pending held before after rely _ _ ⟨isPending, rfl, live⟩
    exact ⟨isPending, rfl, rely.live key.customerID List.mem_cons_self live⟩
  · rintro pending held now ⟨rfl, rfl, live⟩
    have unpurged : Unpurged ([.customerFound key.customerID] ++
        [.lock (.customer key.customerID) .keyShare, .lock (.apiKey key.id) .forUpdate]) := by
      intro clientID region mem
      simp at mem
    split
    · exact unpurged
    · split
      · exact ⟨rfl, List.mem_cons_self, unpurged, live⟩
      · exact unpurged

theorem triple_idle {α : Type} {res : α} : CustomerTriple env Idle (pure res) fun _ => Idle :=
  triple_pure stable_idle fun _ _ _ _ idle => idle

theorem triple_createAPIKey : CustomerTriple env Idle (createAPIKey key) fun _ => Idle := by
  have lookup := triple_getCustomer env [.customerFound key.customerID] key.customerID
    fun before after rely live => Or.inr (rely.live _ List.mem_cons_self live)
  apply Triple.bind rely_refl lookup
  intro res
  cases res with
  | error err =>
    exact triple_idle.imp fun _ _ _ _ holds => holds.1 err rfl
  | ok customer =>
    apply (triple_insertAPIKey key).imp
    rintro pending held now _ ⟨_, finds⟩
    obtain ⟨isPending, isHeld, _, live⟩ := finds customer rfl
    exact ⟨isPending, isHeld, live.resolve_left (by simp)⟩

end

/-! ## Deletions -/

section

variable {env : CustomerEnv} {id : Uuid} {customer : CustomerRow} {now : Roster}

def markDeleted (id : Uuid) (db : Roster) : Roster := db.changeCustomer id fun row => { row with status := .deleted }

def Marked (id : Uuid) (customer : CustomerRow) : Assertion Roster RosterMark := fun pending held now =>
  pending = markDeleted id ∧ held = [.lock (.customer id) .noKeyUpdate] ∧ HasTenant id customer now

structure Revoking (id : Uuid) (customer : CustomerRow) (pending : Roster → Roster) (held : List RosterMark) (now : Roster) :
    Prop where
  isPending : ∃ ids time, pending = (fun db => (markDeleted id db).revokeKeys ids time) ∧ ∀ key ∈ now.openKeys id, key.id ∈ ids
  locked : .lock (.customer id) .noKeyUpdate ∈ held
  noted : .keysRevoked id ∈ held
  unpurged : Unpurged held
  hasTenant : HasTenant id customer now

theorem stable_marked : Stable KeysRevoked Rely (Marked id customer) := by
  rintro pending held before after rely _ _ ⟨isPending, isHeld, hasTenant⟩
  exact ⟨isPending, isHeld, (rely.tenants id).trans hasTenant⟩

theorem stable_revoking : Stable KeysRevoked Rely (Revoking id customer) := by
  rintro pending held before after rely _ _ revoking
  refine { revoking with isPending := ?_, hasTenant := (rely.tenants id).trans revoking.hasTenant }
  obtain ⟨ids, time, isPending, seen⟩ := revoking.isPending
  refine ⟨ids, time, isPending, ?_⟩
  intro key mem
  obtain ⟨old, isOld, same⟩ := rely.keys id revoking.noted key mem
  rw [← same]
  exact seen old isOld

theorem mem_openKeys_revokeKeys {ids : List Uuid} {time : Int} {owner : Uuid} {key : APIKey}
    (mem : key ∈ (db.revokeKeys ids time).openKeys owner) : key ∈ db.openKeys owner ∧ key.id ∉ ids := by
  obtain ⟨isKey, isOwner, isOpen⟩ := mem_openKeys.mp mem
  obtain ⟨old, isOld, rfl⟩ := List.mem_map.mp isKey
  split at isOpen
  · cases isOpen
  · rename_i kept
    rw [if_neg kept] at isOwner ⊢
    exact ⟨mem_openKeys.mpr ⟨isOld, isOwner, isOpen⟩, kept⟩

theorem revoking_ends (isInv : KeysRevoked now) (revoking : Revoking id customer pending held now) :
    EndsOwing KeysRevoked (promise env)
      (fun _ mark => env.purgeOnDelete = true ∧ mark = .purgeSubmitted customer.clientID customer.region)
      (.ok () : Except StoreError Unit) pending held now := by
  obtain ⟨ids, time, rfl, seen⟩ := revoking.isPending
  have others : ∀ other, other ≠ id → ((markDeleted id now).revokeKeys ids time).customer? other = now.customer? other :=
    fun other => customer?_changeCustomer_of_ne _
  have tenants : ∀ other, tenant ((markDeleted id now).revokeKeys ids time) other = tenant now other :=
    fun other => @tenant_changeCustomer now id _ other
  have keys : ∀ other key, key ∈ ((markDeleted id now).revokeKeys ids time).openKeys other →
      key ∈ now.openKeys other ∧ key.id ∉ ids :=
    fun other key mem => mem_openKeys_revokeKeys mem
  apply ends_ok
  · refine ⟨tenants, ?_, ?_, fun other _ key mem => ⟨key, (keys other key mem).1, rfl⟩, fun _ mem => mem, ?_, ?_⟩
    · intro other unlocked
      apply others
      rintro rfl
      exact unlocked revoking.locked
    · intro other unnoted isLive
      have distinct : other ≠ id := by
        rintro rfl
        exact unnoted revoking.noted
      rw [liveCustomer_congr (others other distinct)]
      exact isLive
    · intro purges other row found deleted wasLive
      refine ⟨purges, ?_⟩
      by_cases isOwn : other = id
      · subst isOwn
        have same := tenants other
        rw [revoking.hasTenant, tenant, found] at same
        obtain ⟨isClient, isRegion⟩ := Prod.mk.inj (Option.some.inj same)
        rw [isClient, isRegion]
      · rw [others other isOwn] at found
        exact absurd deleted (status_of_live found wasLive)
    · exact fun clientID region mem => absurd mem (revoking.unpurged clientID region)
  · intro other row found deleted
    rw [List.eq_nil_iff_forall_not_mem]
    intro key mem
    obtain ⟨wasOpen, kept⟩ := keys other key mem
    by_cases isOwn : other = id
    · subst isOwn
      exact kept (seen key wasOpen)
    · rw [others other isOwn] at found
      rw [isInv other row found deleted] at wasOpen
      cases wasOpen

theorem triple_refused {err : StoreError} {owed : Unit → RosterMark → Prop} :
    CustomerTriple env (fun _ held _ => Unpurged held) (pure (.error err)) (EndsOwing KeysRevoked (promise env) owed) := by
  apply triple_pure
  · exact fun _ _ _ _ _ _ _ unpurged => unpurged
  · exact fun _ _ _ _ unpurged => ⟨fun _ isOk => (nomatch isOk), fun _ _ => unpurged⟩

def HasRead (id : Uuid) (customer : CustomerRow) : Assertion Roster RosterMark := fun pending held now =>
  pending = (fun db => db) ∧ held = [] ∧ HasTenant id customer now

theorem triple_execMarkDeleted (id : Uuid) (customer : CustomerRow) :
    CustomerTriple env (HasRead id customer) (execMarkDeleted id) fun found pending held now =>
      Unpurged held ∧ (found = true → Marked id customer pending held now) := by
  apply triple_execute (promise_quiet _)
  · rintro pending held before after rely _ _ ⟨isPending, isHeld, hasTenant⟩
    exact ⟨isPending, isHeld, (rely.tenants id).trans hasTenant⟩
  · rintro found pending held before after rely isInv isInvAfter ⟨unpurged, marks⟩
    exact ⟨unpurged, fun isFound => stable_marked _ _ _ _ rely isInv isInvAfter (marks isFound)⟩
  · rintro pending held now _ ⟨rfl, rfl, hasTenant⟩
    refine ⟨?_, fun isFound => ?_⟩
    · intro clientID region mem
      unfold customerLock at mem
      split at mem <;> simp at mem
    · dsimp only at isFound
      simp only [customerLock, isFound]
      exact ⟨rfl, rfl, hasTenant⟩

theorem triple_execRevokeKeys (id : Uuid) (customer : CustomerRow) (time : Int) :
    CustomerTriple env (Marked id customer) (execRevokeKeys id time) fun _ => Revoking id customer := by
  apply triple_execute (promise_quiet _) stable_marked fun _ => stable_revoking
  rintro pending held now _ ⟨rfl, rfl, hasTenant⟩
  refine ⟨⟨_, time, rfl, ?_⟩, by simp, by simp, ?_, hasTenant⟩
  · intro key mem
    exact List.mem_map_of_mem mem
  · intro clientID region mem
    simp at mem

theorem triple_softDelete (id : Uuid) (customer : CustomerRow) (time : Int) :
    CustomerTriple env (HasRead id customer) (softDelete id time)
      (EndsOwing KeysRevoked (promise env)
        fun _ mark => env.purgeOnDelete = true ∧ mark = .purgeSubmitted customer.clientID customer.region) := by
  apply Triple.bind rely_refl (triple_execMarkDeleted id customer)
  intro found
  cases found with
  | true =>
    apply Triple.imp (Triple.bind rely_refl (triple_execRevokeKeys id customer time) fun _ =>
      triple_pure stable_revoking fun pending held now isInv revoking => revoking_ends isInv revoking)
    exact fun _ _ _ _ holds => holds.2 rfl
  | false => exact triple_refused.imp fun _ _ _ _ holds => holds.1

/-! ## Purges -/

variable (clientID region : String)

theorem triple_submitPurge : CustomerTriple env Idle (submitPurge clientID region) fun _ => Idle := by
  let submitted : Assertion Roster RosterMark := fun pending held _ =>
    pending = (fun db => db.submitPurge clientID region) ∧ held = [.purgeSubmitted clientID region]
  apply @triple_transaction _ _ _ _ submitted _ _ stable_idle fun _ _ _ _ _ _ _ holds => holds
  · rintro pending held now ⟨rfl, rfl⟩
    exact ⟨rfl, rfl⟩
  rintro value pending held now isInv ⟨rfl, rfl⟩
  apply ends_ok
  · refine ⟨fun _ => rfl, fun _ _ => rfl, fun _ _ isLive => isLive, fun id _ => noNewKeys_refl now id, ?_, ?_, ?_⟩
    · exact fun _ mem => List.mem_append_left _ mem
    · intro _ id row found deleted wasLive
      exact absurd deleted (status_of_live found wasLive)
    · intro clientID' region' mem
      cases List.mem_singleton.mp mem
      exact List.mem_append_right _ List.mem_cons_self
  · exact isInv

end

/-! ## Calls -/

variable {call : CustomerCall}

section

variable {env : CustomerEnv}

theorem triple_handleDeleteCustomer (id : Uuid) (time : Int) :
    CustomerTriple env Idle (handleDeleteCustomer env id time) fun _ => Idle := by
  apply Triple.bind rely_refl (triple_getCustomer env [] id fun _ _ _ _ => Or.inl rfl)
  intro res
  cases res with
  | error err => exact triple_idle.imp fun _ _ _ _ holds => holds.1 err rfl
  | ok customer =>
    refine Triple.imp (?_ : CustomerTriple env (HasRead id customer) _ fun _ => Idle) ?_
    · apply triple_inTx_bind (triple_softDelete id customer time)
      · rintro _ mark ⟨purges, rfl⟩
        simp only [purges]
        exact fun _ => Or.inl List.mem_cons_self
      · intro res
        cases res with
        | error err => exact triple_idle
        | ok value =>
          dsimp only
          split
          · exact triple_submitPurge _ _
          · exact triple_idle
    · rintro pending held now _ ⟨_, finds⟩
      obtain ⟨isPending, isHeld, hasTenant, _⟩ := finds customer rfl
      exact ⟨isPending, isHeld, hasTenant⟩

theorem checkName_status {body upd : CustomerUpdate} (checked : checkName env body = .ok upd) : upd.status = body.status := by
  unfold checkName at checked
  split at checked
  · cases checked
    rfl
  · dsimp only at checked
    split at checked
    · cases checked
      rfl
    · cases checked

theorem triple_handleUpdateCustomer (id : Uuid) {body : CustomerUpdate} (allowed : body.status ≠ some "deleted") :
    CustomerTriple env Idle (handleUpdateCustomer env id body) fun _ => Idle := by
  unfold handleUpdateCustomer
  split
  · exact triple_idle
  · split
    · exact triple_idle
    · rename_i upd checked
      apply Triple.bind rely_refl (triple_updateCustomer (by rwa [checkName_status checked]))
      intro res
      cases res with
      | error err | ok value => exact triple_idle

theorem triple_handleCreateAPIKey : CustomerTriple env Idle (handleCreateAPIKey env key) fun _ => Idle := by
  unfold handleCreateAPIKey
  dsimp only
  split
  · apply Triple.bind rely_refl (triple_createAPIKey _)
    intro res
    cases res with
    | error err | ok value => exact triple_idle
  · exact triple_idle

/-- An update that does not say that the customer is deleted, a deletion or a new key. -/
def MayStart : CustomerCall → Prop
  | .update _ body => body.status ≠ some "deleted"
  | .delete _ _ | .createKey _ => True

instance : DecidablePred MayStart
  | .update _ body => inferInstanceAs (Decidable (body.status ≠ some "deleted"))
  | .delete _ _ | .createKey _ => isTrue trivial

theorem program_meets (may : MayStart call) (db : Roster) (isInv : KeysRevoked db) :
    Meets KeysRevoked Rely (promise env) (fun _ => Idle) (call.program env) id [] db := by
  cases call with
  | update customerID body => exact (triple_handleUpdateCustomer customerID may).meets _ _ _ isInv ⟨rfl, rfl⟩
  | delete customerID time => exact (triple_handleDeleteCustomer customerID time).meets _ _ _ isInv ⟨rfl, rfl⟩
  | createKey key => exact (triple_handleCreateAPIKey key).meets _ _ _ isInv ⟨rfl, rfl⟩

end

/-! ## Runs -/

/-- A deleted customer has no key that is not revoked, and its purge was submitted if
    purges are configured. -/
def CutOff (db : Roster) : Prop :=
  ∀ customer ∈ db.customers, customer.status = .deleted →
    (∀ key ∈ db.keys, key.customerID = customer.id → key.revokedAt ≠ none) ∧
      (env.purgeOnDelete = true → (customer.clientID, customer.region) ∈ db.purged)

/-- No status is set to deleted by an update, and no key is created while a deletion of
    its customer is revoking keys. -/
def Allowed (calls : CustomerCalls) (event : Sessions.Event CustomerCall) : Prop :=
  (∀ call, event = .start call → MayStart call) ∧ calls.Respects DeletesAlone event

variable {env : CustomerEnv}

/-- The purge of a deleted customer was submitted or is still to come. -/
def Debts (env : CustomerEnv) (calls : CustomerCalls) : Prop :=
  env.purgeOnDelete = true → ∀ id row, calls.committed.customer? id = some row → row.status = .deleted →
    (row.clientID, row.region) ∈ calls.committed.purged ∨ calls.Owing (fun _ => promise env) (.purgeSubmitted row.clientID row.region)

abbrev KeepingCalls (env : CustomerEnv) (calls : CustomerCalls) : Prop :=
  Sessions.Keeping DeletesAlone KeysRevoked Rely (fun _ => promise env) calls

variable {calls next : CustomerCalls} {event : Sessions.Event CustomerCall}

theorem strict_step
    (step : Restricted Allowed (Sessions.Step (CustomerCall.program env) RosterMark.conflicts) calls event next) :
    Sessions.Step (CustomerCall.program env) DeletesAlone calls event next :=
  Sessions.step_stricter ⟨step.1.2, step.2⟩

theorem keeping_step (keeping : KeepingCalls env calls)
    (step : Restricted Allowed (Sessions.Step (CustomerCall.program env) RosterMark.conflicts) calls event next) :
    KeepingCalls env next := by
  apply keeping.stepped rely_refl rely_trans (fun _ _ conflict => conflict.imp LocksConflict.symm Or.symm) _ _ (strict_step step)
  · exact fun _ held owed others a b apart _ => rely_of_guar env held owed others a b apart
  · exact fun call isStart => program_meets (step.1.1 call isStart) _ keeping.holds

theorem deleted_before {owed : RosterMark → Prop} (purges : env.purgeOnDelete = true)
    (given : Guar env held owed before after) {id : Uuid} (found : after.customer? id = some row)
    (deleted : row.status = .deleted) : owed (.purgeSubmitted row.clientID row.region) ∨
      ∃ old, before.customer? id = some old ∧ old.status = .deleted ∧ old.clientID = row.clientID ∧ old.region = row.region := by
  have same := given.tenants id
  simp only [tenant, found] at same
  obtain ⟨old, isOld, isTenant⟩ := Option.map_eq_some_iff.mp same.symm
  by_cases wasDeleted : old.status = .deleted
  · exact Or.inr ⟨old, isOld, wasDeleted, (Prod.mk.inj isTenant).1, (Prod.mk.inj isTenant).2⟩
  · apply Or.inl (given.debt purges id row found deleted _)
    rw [liveCustomer_eq_some.mpr ⟨isOld, wasDeleted⟩]
    rfl

theorem debts_step (keeping : KeepingCalls env calls)
    (step : Restricted Allowed (Sessions.Step (CustomerCall.program env) RosterMark.conflicts) calls event next)
    (debts : Debts env calls) : Debts env next := by
  intro purges id row found deleted
  cases event with
  | start call =>
    cases step.2
    exact (debts purges id row found deleted).imp_right fun owing => Sessions.owing_start owing call
  | advance i =>
    obtain ⟨job, job', moved, outcome⟩ := keeping.step_outcome rely_refl (strict_step step)
    -- The jobs that owe the purge, after the step.
    have stays : calls.Owing (fun _ => promise env) (.purgeSubmitted row.clientID row.region) →
        (row.clientID, row.region) ∈ next.committed.purged ∨ next.Owing (fun _ => promise env) (.purgeSubmitted row.clientID row.region) := by
      intro owing
      rcases Sessions.owing_step moved outcome owing with owingThen | ⟨isHeld, given⟩ | ⟨_, lost, isHeld | fails⟩
      · exact Or.inr owingThen
      · exact Or.inl (given.paid _ _ isHeld)
      · exact absurd isHeld (lost _ _)
      · exact fails.elim
    have unchanged : next.committed = calls.committed →
        (row.clientID, row.region) ∈ next.committed.purged ∨ next.Owing (fun _ => promise env) (.purgeSubmitted row.clientID row.region) := by
      intro same
      rw [same] at found
      rcases debts purges id row found deleted with purged | owing
      · rw [same]
        exact Or.inl purged
      · exact stays owing
    cases outcome with
    | waits _ _ same _ _ _ | fails _ _ same _ _ _ => exact unchanged same
    | commits _ _ given _ =>
      rcases deleted_before purges given found deleted with will | ⟨old, isOld, wasDeleted, sameClient, sameRegion⟩
      · refine Or.inr ⟨job', List.mem_of_getElem? moved.self, Or.inr ?_⟩
        exact will
      · have before := debts purges id old isOld wasDeleted
        rw [sameClient, sameRegion] at before
        rcases before with purged | owing
        · exact Or.inl (given.purged _ purged)
        · exact stays owing

theorem run_keeps (starts : CutOff env db) {events : List (Sessions.Event CustomerCall)} {last : CustomerCalls}
    (run : Run (Restricted Allowed (Sessions.Step (CustomerCall.program env) RosterMark.conflicts)) ⟨db, []⟩ events last) :
    KeepingCalls env last ∧ Debts env last := by
  apply run.invariant
  · exact fun calls event next step ⟨keeping, debts⟩ => ⟨keeping_step keeping step, debts_step keeping step debts⟩
  · constructor
    · apply Sessions.keeping_idle
      intro id row found deleted
      rw [List.eq_nil_iff_forall_not_mem]
      intro key mem
      obtain ⟨isKey, isOwner, isOpen⟩ := mem_openKeys.mp mem
      have isRow : row.id = id := customer?_id found
      exact (starts row (List.mem_of_find?_eq_some found) deleted).1 key isKey (isOwner.trans isRow.symm) isOpen
    · intro purges id row found deleted
      exact Or.inl ((starts row (List.mem_of_find?_eq_some found) deleted).2 purges)

/-- When all calls have returned, every deleted customer is cut off, if no status is set
    to deleted by an update and no key is created around a deletion of its customer. -/
theorem deleted_cut_off {db : Roster} (starts : CutOff env db) {events : List (Sessions.Event CustomerCall)} {last : CustomerCalls}
    (run : Run (Restricted Allowed (Sessions.Step (CustomerCall.program env) RosterMark.conflicts)) ⟨db, []⟩ events last)
    (returned : ∀ job ∈ last.jobs, job.rest.isDone = true) : CutOff env last.committed := by
  obtain ⟨keeping, debts⟩ := run_keeps starts run
  intro customer mem deleted
  have found := mem_customers_iff.mp mem
  constructor
  · intro key isKey isOwner isOpen
    have isEmpty := keeping.holds customer.id customer found deleted
    have isOpenKey : key ∈ last.committed.openKeys customer.id := mem_openKeys.mpr ⟨isKey, isOwner, isOpen⟩
    rw [isEmpty] at isOpenKey
    cases isOpenKey
  · intro purges
    rcases debts purges customer.id customer found deleted with purged | owing
    · exact purged
    · exact absurd owing (keeping.not_owing rely_refl returned _)

def oneCustomer : Roster :=
  ⟨[⟨⟨⟨1⟩, "acme", "Acme", "c1", .active⟩, "eu", none, none⟩], by decide,
    [⟨⟨10⟩, ⟨1⟩, "default", "otm_a", [], none, none, none⟩], []⟩

def purging : CustomerEnv := ⟨.ascii, true⟩

def secondKey : APIKey := ⟨⟨11⟩, ⟨1⟩, "second", "otm_b", [], none, none, none⟩

theorem oneCustomer_starts : CutOff purging oneCustomer := by
  intro customer mem deleted
  rw [List.mem_singleton.mp mem] at deleted
  cases deleted

def createThenDelete : List (Sessions.Event CustomerCall) :=
  [.start (.createKey secondKey), .advance 0, .advance 0, .advance 0, .start (.delete ⟨1⟩ 7), .advance 1, .advance 1, .advance 1,
    .advance 1, .advance 1, .advance 1]

theorem allowed_start : MayStart call ↔ Allowed calls (.start call) :=
  ⟨fun may => ⟨fun _ isStart => Sessions.Event.start.inj isStart ▸ may, trivial⟩, fun allowed => allowed.1 call rfl⟩

theorem allowed_advance {i : Nat} : calls.Respects DeletesAlone (.advance i) ↔ Allowed calls (.advance i) :=
  ⟨fun respects => ⟨fun _ isStart => (nomatch isStart), respects⟩, And.right⟩

instance (calls : CustomerCalls) : (event : Sessions.Event CustomerCall) → Decidable (Allowed calls event)
  | .start _ => decidable_of_iff _ allowed_start
  | .advance _ => decidable_of_iff _ allowed_advance

def afterDelete : CustomerCalls :=
  (performAll (fun calls event =>
    if Allowed calls event then calls.perform (CustomerCall.program purging) RosterMark.conflicts event else none)
    ⟨oneCustomer, []⟩ createThenDelete).getD ⟨oneCustomer, []⟩

theorem createThenDelete_cut_off :
    afterDelete.committed.customers.map (fun customer => customer.status) = [.deleted] ∧
      afterDelete.committed.keys.map APIKey.revokedAt = [some 7, some 7] ∧ CutOff purging afterDelete.committed := by
  have run : Run (Restricted Allowed (Sessions.Step (CustomerCall.program purging) RosterMark.conflicts)) ⟨oneCustomer, []⟩
      createThenDelete afterDelete := restricted_of_performAll rfl
  have returned : ∀ job ∈ afterDelete.jobs, job.rest.isDone = true := by
    have both : afterDelete.jobs.map (fun job => job.rest.isDone) = [true, true] := rfl
    intro job mem
    have isDone := List.mem_map_of_mem (f := fun job => job.rest.isDone) mem
    rw [both] at isDone
    simpa using isDone
  exact ⟨rfl, rfl, deleted_cut_off oneCustomer_starts run returned⟩

/-- The key is created while the deletion runs: the customer is found, then deleted with
    the keys that there are, and then the key is inserted. -/
def createAround : List (Sessions.Event CustomerCall) :=
  [.start (.createKey secondKey), .advance 0, .start (.delete ⟨1⟩ 7), .advance 1, .advance 1, .advance 1, .advance 1, .advance 1,
    .advance 1, .advance 0, .advance 0]

def updateToDeleted : List (Sessions.Event CustomerCall) :=
  [.start (.update ⟨1⟩ { status := some "deleted" }), .advance 0, .advance 0]

def runCalls (events : List (Sessions.Event CustomerCall)) : CustomerCalls :=
  (performAll (Sessions.perform (CustomerCall.program purging) RosterMark.conflicts) ⟨oneCustomer, []⟩ events).getD ⟨oneCustomer, []⟩

/-- After the first run a deleted customer has an open key; after the second one it also
    was not purged. -/
theorem deleted_not_cut_off :
    (Run (Sessions.Step (CustomerCall.program purging) RosterMark.conflicts) ⟨oneCustomer, []⟩ createAround (runCalls createAround) ∧
        (runCalls createAround).jobs.map (fun job => job.rest.isDone) = [true, true] ∧
          (runCalls createAround).committed.customers.map (fun customer => customer.status) = [.deleted] ∧
            (runCalls createAround).committed.keys.map APIKey.revokedAt = [some 7, none]) ∧
      Run (Sessions.Step (CustomerCall.program purging) RosterMark.conflicts) ⟨oneCustomer, []⟩ updateToDeleted
          (runCalls updateToDeleted) ∧
        (runCalls updateToDeleted).jobs.map (fun job => job.rest.isDone) = [true] ∧
          (runCalls updateToDeleted).committed.customers.map (fun customer => customer.status) = [.deleted] ∧
            (runCalls updateToDeleted).committed.keys.map APIKey.revokedAt = [none] ∧
              (runCalls updateToDeleted).committed.purged = [] :=
  ⟨⟨run_of_performAll rfl, rfl, rfl, rfl⟩, run_of_performAll rfl, rfl, rfl, rfl, rfl⟩

end OtelFleet.Verified.DeletedCustomers
