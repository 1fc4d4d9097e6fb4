import OtelFleet.Collector.TenantStamp

/-! # When a stamped resource carries only the authenticated identity

`stamp` removes each reserved key once and puts it once.  An attribute list may
repeat a key, so a removal followed by a put deals with two entries and no more.
`stamp_stamped_iff` gives the exact lists for which every `pcommon.Map` that
keeps its promises ends up with the authenticated identity alone.
-/

namespace OtelFleet.Verified.TenantStamp

open Data Collector.TenantStamp

def reserved (key : String) : Bool :=
  key = attrTenantID || key = attrClientID || key = attrCustomerID

variable (key value : String) (attrs : Attributes)

/-- Every entry of the key carries the value, and an empty value leaves none. -/
def Carries : Prop :=
  ∀ entry ∈ entriesOf key attrs, value ≠ "" ∧ entry = (key, .str value)

/-- What a client must not be able to prevent. -/
structure Stamped (id : Identity) (before after : Attributes) : Prop where
  tenant : Carries attrTenantID id.tenantID after
  client : Carries attrClientID id.clientID after
  customer : Carries attrCustomerID id.customerID after
  others : (select (fun key => !reserved key) after).Perm (select (fun key => !reserved key) before)

/-- The lists one removal and one put can deal with: at most two entries of the
    key, or only the authenticated value.  Without a value to put it is one. -/
def Manageable : Prop :=
  if value = "" then (entriesOf key attrs).length ≤ 1
  else (entriesOf key attrs).length ≤ 2 ∨ ∀ entry ∈ entriesOf key attrs, entry = (key, .str value)

structure Unspoofed (id : Identity) (attrs : Attributes) : Prop where
  tenant : Manageable attrTenantID id.tenantID attrs
  client : Manageable attrClientID id.clientID attrs
  customer : Manageable attrCustomerID id.customerID attrs

/-- A batch is stamped resource by resource, and its telemetry is kept. -/
def BatchStamped {τ : Type*} (id : Identity) (before after : List (ResourceData τ)) : Prop :=
  List.Forall₂ (fun b a => Stamped id b.attributes a.attributes ∧ a.telemetry = b.telemetry) before after

/-! ## One key

The four operations on a key commute with those on the other two, so each key
sees a removal followed by at most one put. -/

def putNonempty : Attributes :=
  if value ≠ "" then putStr key value attrs else attrs

theorem entriesOf_putNonempty :
    entriesOf key (putNonempty key value attrs) =
      if value = "" then entriesOf key attrs
      else (key, .str value) :: (entriesOf key attrs).tail := by
  by_cases empty : value = ""
  · simp [putNonempty, empty]
  · simp [putNonempty, empty, putStr, entriesOf_putFirst]

variable {key : String}

theorem select_putNonempty {keep : String → Bool} (dropped : keep key = false) (value : String) (attrs : Attributes) :
    select keep (putNonempty key value attrs) = select keep attrs := by
  unfold putNonempty
  split
  · exact select_putFirst dropped _ _
  · rfl

theorem entriesOf_putNonempty_of_ne {other : String} (distinct : other ≠ key) (value : String) (attrs : Attributes) :
    entriesOf key (putNonempty other value attrs) = entriesOf key attrs :=
  select_putNonempty (by simp [distinct]) value attrs

def reservedKeys : List String := [attrTenantID, attrClientID, attrCustomerID]

theorem reservedKeys_nodup : reservedKeys.Nodup := by decide

variable {id : Identity}

theorem stamp_eq (authenticated : id.tenantID ≠ "") (lib : PcommonMap) (attrs : Attributes) :
    stamp lib attrs id = putNonempty attrCustomerID id.customerID
      (putNonempty attrClientID id.clientID
        (putNonempty attrTenantID id.tenantID (lib.removeEach reservedKeys attrs))) := by
  simp only [stamp, putNonempty, EntryList.removeEach, reservedKeys, List.foldl_cons, List.foldl_nil,
    ne_eq, authenticated, not_false_eq_true, if_true]

def valueOf (id : Identity) (key : String) : String :=
  if key = attrTenantID then id.tenantID
  else if key = attrClientID then id.clientID
  else id.customerID

theorem forall_reservedKeys {P : String → Prop} :
    (∀ key ∈ reservedKeys, P key) ↔ P attrTenantID ∧ P attrClientID ∧ P attrCustomerID := by
  simp [reservedKeys]

section

variable (authenticated : id.tenantID ≠ "") (lib : PcommonMap)
include authenticated lib

theorem entriesOf_stamp (attrs : Attributes) :
    ∀ key ∈ reservedKeys, entriesOf key (stamp lib attrs id) =
      if valueOf id key = "" then entriesOf key (lib.removeEach reservedKeys attrs)
      else (key, .str (valueOf id key)) :: (entriesOf key (lib.removeEach reservedKeys attrs)).tail := by
  have tenantClient : attrTenantID ≠ attrClientID := by decide
  have tenantCustomer : attrTenantID ≠ attrCustomerID := by decide
  have clientCustomer : attrClientID ≠ attrCustomerID := by decide
  rw [stamp_eq authenticated, forall_reservedKeys]
  refine ⟨?_, ?_, ?_⟩
  · rw [entriesOf_putNonempty_of_ne tenantCustomer.symm, entriesOf_putNonempty_of_ne tenantClient.symm,
      entriesOf_putNonempty, valueOf, if_pos rfl]
  · rw [entriesOf_putNonempty_of_ne clientCustomer.symm, entriesOf_putNonempty,
      entriesOf_putNonempty_of_ne tenantClient, valueOf, if_neg tenantClient.symm, if_pos rfl]
  · rw [entriesOf_putNonempty, entriesOf_putNonempty_of_ne clientCustomer,
      entriesOf_putNonempty_of_ne tenantCustomer, valueOf, if_neg tenantCustomer.symm,
      if_neg clientCustomer.symm]

theorem select_stamp (attrs : Attributes) :
    (select (fun key => !reserved key) (stamp lib attrs id)).Perm
      (select (fun key => !reserved key) attrs) := by
  rw [stamp_eq authenticated, select_putNonempty (by decide), select_putNonempty (by decide),
    select_putNonempty (by decide)]
  exact lib.select_removeEach (by decide) attrs

theorem carries_of_manageable {attrs : Attributes} (isReserved : key ∈ reservedKeys)
    (manageable : Manageable key (valueOf id key) attrs) : Carries key (valueOf id key) (stamp lib attrs id) := by
  intro entry mem
  rw [entriesOf_stamp authenticated lib attrs key isReserved] at mem
  obtain ⟨part, length⟩ := lib.entriesOf_removeEach isReserved reservedKeys_nodup attrs
  unfold Manageable at manageable
  by_cases empty : valueOf id key = ""
  · -- the one entry there may be is gone and none is put
    rw [if_pos empty] at mem manageable
    have positive := List.length_pos_of_mem mem
    omega
  · rw [if_neg empty] at mem manageable
    refine ⟨empty, ?_⟩
    rcases List.mem_cons.mp mem with put | kept
    · exact put
    · rcases manageable with few | all
      · have positive := List.length_pos_of_mem kept
        rw [List.length_tail] at positive
        omega
      · exact all entry (part.subset (List.mem_of_mem_tail kept))

end

open Classical in
theorem manageable_of_carries {id : Identity} (authenticated : id.tenantID ≠ "") {attrs : Attributes}
    (isReserved : key ∈ reservedKeys)
    (carries : ∀ lib : PcommonMap, Carries key (valueOf id key) (stamp lib attrs id)) :
    Manageable key (valueOf id key) attrs := by
  by_contra spoofed
  unfold Manageable at spoofed
  by_cases empty : valueOf id key = ""
  · -- an entry is left over, whichever one went
    rw [if_pos empty, Nat.not_le] at spoofed
    have left := carries EntryList.first
    rw [Carries, entriesOf_stamp authenticated _ attrs key isReserved, if_pos empty] at left
    obtain ⟨_, length⟩ := EntryList.first.entriesOf_removeEach isReserved reservedKeys_nodup attrs
    obtain ⟨entry, mem⟩ := List.exists_mem_of_length_pos (length ▸ Nat.sub_pos_of_lt spoofed)
    exact (left entry mem).1 empty
  · rw [if_neg empty] at spoofed
    push Not at spoofed
    obtain ⟨many, entry, mem, wrong⟩ := spoofed
    obtain ⟨inAttrs, rfl⟩ := mem_entriesOf.mp mem
    -- a removal that spares this entry and moves it behind the others
    have deferred := deferred_removeEach isReserved reservedKeys_nodup inAttrs (by omega)
    obtain ⟨_, length⟩ := (EntryList.deferring entry).entriesOf_removeEach isReserved reservedKeys_nodup attrs
    have kept := deferred.mem_tail (by omega)
    have left := carries (EntryList.deferring entry)
    rw [Carries, entriesOf_stamp authenticated _ attrs entry.1 isReserved, if_neg empty] at left
    exact wrong (left entry (List.mem_cons_of_mem _ kept)).2

/-! ## Resources and batches -/

theorem stamped_iff (authenticated : id.tenantID ≠ "") (attrs : Attributes) :
    (∀ lib : PcommonMap, Stamped id attrs (stamp lib attrs id)) ↔ Unspoofed id attrs := by
  have tenantValue : valueOf id attrTenantID = id.tenantID := rfl
  have clientValue : valueOf id attrClientID = id.clientID := rfl
  have customerValue : valueOf id attrCustomerID = id.customerID := rfl
  have mem := forall_reservedKeys.mp fun key mem => (mem : key ∈ reservedKeys)
  obtain ⟨tenantMem, clientMem, customerMem⟩ := mem
  constructor
  · intro stamped
    exact ⟨tenantValue ▸ manageable_of_carries authenticated tenantMem fun lib => (stamped lib).tenant,
      clientValue ▸ manageable_of_carries authenticated clientMem fun lib => (stamped lib).client,
      customerValue ▸ manageable_of_carries authenticated customerMem fun lib => (stamped lib).customer⟩
  · intro unspoofed lib
    exact ⟨carries_of_manageable authenticated lib tenantMem unspoofed.tenant,
      carries_of_manageable authenticated lib clientMem unspoofed.client,
      carries_of_manageable authenticated lib customerMem unspoofed.customer,
      select_stamp authenticated lib attrs⟩

section

variable {auth : AuthData} (authenticated : (identityOf auth).tenantID ≠ "") (signal : String)
include authenticated signal

theorem batchStamped_iff {τ : Type*} (s : Stamper) (now : Int) (batch : List (ResourceData τ)) :
    (∀ lib : PcommonMap, ∃ after, (process signal lib s now (some auth) batch).2 = some after ∧
      BatchStamped (identityOf auth) batch after) ↔
      ∀ resource ∈ batch, Unspoofed (identityOf auth) resource.attributes := by
  have mapped lib : (∃ after, (process signal lib s now (some auth) batch).2 = some after ∧
      BatchStamped (identityOf auth) batch after) ↔ ∀ resource ∈ batch,
        Stamped (identityOf auth) resource.attributes (stamp lib resource.attributes (identityOf auth)) := by
    simp [process, Stamper.identityFromContext, authenticated, BatchStamped]
  simp only [mapped, ← stamped_iff authenticated]
  exact ⟨fun stamped resource mem lib => stamped lib resource mem,
    fun stamped lib resource mem => stamped resource mem lib⟩

end

/-- A stamped resource carries the authenticated identity alone, under every map
    that keeps its promises, exactly when the client sent no key too often; and
    so does every resource of a batch of any signal. -/
theorem stamp_stamped_iff {Spans LogRecords DataPoints : Type} (id : Identity)
    (authenticated : id.tenantID ≠ "") (auth : AuthData) (carried : identityOf auth = id)
    (s : Stamper) (now : Int) :
    (∀ attrs, (∀ lib : PcommonMap, Stamped id attrs (stamp lib attrs id)) ↔ Unspoofed id attrs) ∧
    (∀ batch : List (ResourceData Spans),
      (∀ lib, ∃ after, (processTraces lib s now (some auth) batch).2 = some after ∧
        BatchStamped id batch after) ↔ ∀ resource ∈ batch, Unspoofed id resource.attributes) ∧
    (∀ batch : List (ResourceData LogRecords),
      (∀ lib, ∃ after, (processLogs lib s now (some auth) batch).2 = some after ∧
        BatchStamped id batch after) ↔ ∀ resource ∈ batch, Unspoofed id resource.attributes) ∧
    (∀ batch : List (ResourceData DataPoints),
      (∀ lib, ∃ after, (processMetrics lib s now (some auth) batch).2 = some after ∧
        BatchStamped id batch after) ↔ ∀ resource ∈ batch, Unspoofed id resource.attributes) := by
  subst id
  exact ⟨stamped_iff authenticated, batchStamped_iff authenticated "traces" s now,
    batchStamped_iff authenticated "logs" s now, batchStamped_iff authenticated "metrics" s now⟩

/-! ## Three tenants on one resource -/

def acmeAuth : AuthData := fun name => [(attrTenantID, "acme"), (attrClientID, "cust_acme")].lookup name

def acme : Identity := ⟨"acme", "cust_acme", ""⟩

def spoofing : Attributes := List.replicate 3 (attrTenantID, .str "globex")

theorem acme_stamped_iff : acme.tenantID ≠ "" ∧ identityOf acmeAuth = acme ∧
    ((∀ lib : PcommonMap, Stamped acme spoofing (stamp lib spoofing acme)) ↔ Unspoofed acme spoofing) :=
  ⟨by decide, by decide,
    (@stamp_stamped_iff Unit Unit Unit acme (by decide) acmeAuth (by decide) {} 0).1 spoofing⟩

/-- Whatever a removal takes away, one of the three entries survives. -/
theorem spoofing_survives : ¬ ∃ lib : PcommonMap, Stamped acme spoofing (stamp lib spoofing acme) := by
  rintro ⟨lib, stamped⟩
  have tenantMem : attrTenantID ∈ reservedKeys := by decide
  have entries : entriesOf attrTenantID spoofing = spoofing := rfl
  have left := stamped.tenant
  rw [Carries, entriesOf_stamp (by decide) lib spoofing _ tenantMem] at left
  obtain ⟨part, length⟩ := lib.entriesOf_removeEach tenantMem reservedKeys_nodup spoofing
  rw [entries] at part length
  obtain ⟨second, mem⟩ := List.exists_mem_of_length_pos
    (show 0 < (entriesOf attrTenantID (lib.removeEach reservedKeys spoofing)).tail.length by
      rw [List.length_tail, length]
      decide)
  have sent := List.eq_of_mem_replicate (part.subset (List.mem_of_mem_tail mem))
  have carried := (left second (List.mem_cons_of_mem _ mem)).2
  rw [sent] at carried
  simp [acme] at carried

end OtelFleet.Verified.TenantStamp
