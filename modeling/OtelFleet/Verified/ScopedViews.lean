import OtelFleet.Api.Listings
import OtelFleet.Semantics.Effect
import OtelFleet.Verified.CountedOnce

/-! # A scoped view is the view of a smaller fleet

`scoped_view`: what a tenant-scoped principal is shown is what an unscoped one is shown of
the fleet without the other customers.  The exception is the number of active customers:
for a scoped principal it is the number of its grants.
-/

variable (granted : List Uuid)

namespace OtelFleet.Store.FleetStore

/-! ## The smaller fleet -/

/-- The store without the other customers, and without what belongs to none. -/
def restrict (store : FleetStore) (granted : List Uuid) : FleetStore where
  customers := store.customers.filter fun customer => customer.id ∈ granted
  pipelines := store.pipelines.filter fun row => row.customerID ∈ granted
  versions := store.versions.filter fun version =>
    ∃ row ∈ store.pipelines, row.customerID ∈ granted ∧ row.id = version.pipelineID
  agents := store.agents.filter fun agent => agent.customerID.any fun id => granted.contains id
  customers_id := Data.nodup_filter_rows _ store.customers_id
  customers_clientID := Data.nodup_filter_rows _ store.customers_clientID
  versions_id := Data.nodup_filter_rows _ store.versions_id
  active_own row isRow versionID isActive := by
    obtain ⟨isRow, isGranted⟩ := List.mem_filter.mp isRow
    obtain ⟨version, isVersion, sameID, own⟩ := store.active_own row isRow versionID isActive
    refine ⟨version, List.mem_filter.mpr ⟨isVersion, decide_eq_true ?_⟩, sameID, own⟩
    exact ⟨row, isRow, of_decide_eq_true isGranted, own.symm⟩

def tenant (store : FleetStore) (granted : List Uuid) (tenantID : String) : Bool :=
  store.customers.any fun customer => customer.id ∈ granted && customer.clientID = tenantID

variable (store : FleetStore)

theorem tenant_iff (tenantID : String) :
    store.tenant granted tenantID = true ↔ ∃ ref ∈ store.listCustomerRefs, ref.id ∈ granted ∧ ref.clientID = tenantID := by
  simp [tenant, listCustomerRefs]

theorem listCustomerRefs_restrict :
    (store.restrict granted).listCustomerRefs = store.listCustomerRefs.filter fun ref => ref.id ∈ granted := by
  simp [listCustomerRefs, restrict, List.filter_map, Function.comp_def]

theorem nodup_clientID_refs : (store.listCustomerRefs.map fun ref => ref.clientID).Nodup := by
  rw [listCustomerRefs, List.map_map]
  exact store.customers_clientID

end OtelFleet.Store.FleetStore

namespace OtelFleet.Stats

def ClickHouse.restrict (tables : ClickHouse) (tenant : String → Bool) : ClickHouse where
  counts := tables.counts.filter fun row => tenant row.tenantID
  logs := tables.logs.filter fun row => tenant row.tenantID

def Servers.restrict {σ : Type} (servers : Servers σ) (tenant : String → Bool) : Servers σ where
  locate := servers.locate
  tables store := (servers.tables store).map fun tables => tables.restrict tenant
  toDate := servers.toDate

end OtelFleet.Stats

/-! ## What is read of the smaller fleet -/

namespace OtelFleet.Stats

open Data Store

section

variable {tenant : String → Bool}

theorem overviewRows_restrict (start stop : Int) (tables : ClickHouse) :
    overviewRows start stop (tables.restrict tenant) = (overviewRows start stop tables).filter fun row => tenant row.1.1 := by
  have entries : overviewEntries start stop (tables.restrict tenant) =
      (overviewEntries start stop tables).filter fun row => tenant row.1.1 := by
    simp only [overviewEntries, ClickHouse.restrict, List.filter_map, Function.comp_def]
    rw [List.filter_comm]
  rw [overviewRows, entries, tally_filter fun key : String × String => tenant key.1, overviewRows, List.filter_map]
  rfl

theorem costRows_restrict (toDate : Int → Int) (start stop : Int) (tables : ClickHouse) :
    costRows toDate start stop (tables.restrict tenant) = (costRows toDate start stop tables).filter fun row => tenant row.1.1 := by
  have entries : costEntries toDate start stop (tables.restrict tenant) =
      (costEntries toDate start stop tables).filter fun row => tenant row.1.1 := by
    simp only [costEntries, ClickHouse.restrict, List.filter_map, Function.comp_def]
    rw [List.filter_comm]
  rw [costRows, entries, tally_filter fun key : String × Int => tenant key.1, costRows, List.filter_map]
  let inOrder := byThen (fun row => row.1.1) fun a b : (String × Int) × Nat × Nat => a.1.2 ≤ b.1.2
  exact congrArg (List.map _) (filter_insertionSort inOrder (fun row => tenant row.1.1) _).symm

variable {σ : Type} {reg : Registry} {servers : Servers σ}

theorem fanOut_restrict {ε ρ : Type} {failed : String → String → ε} {query : ClickHouse → List ρ} {keep : ρ → Bool}
    (commutes : ∀ tables : ClickHouse, query (tables.restrict tenant) = (query tables).filter keep) (regions : List String) :
    fanOut reg (servers.restrict tenant) failed query regions =
      (fanOut reg servers failed query regions).map (·.filter keep) := by
  induction regions with
  | nil => rfl
  | cons region regions ih =>
    rw [fanOut, fanOut, ih]
    simp only [Servers.restrict]
    cases servers.tables (servers.locate (reg.clickHouse region)) with
    | error err => rfl
    | ok tables =>
      simp only [Except.map, commutes]
      cases fanOut reg servers failed query regions with
      | error err => rfl
      | ok rows => simp

def Answers (reg : Registry) (servers : Servers σ) : Prop :=
  ∀ region ∈ reg.names, ∃ tables, servers.tables (servers.locate (reg.clickHouse region)) = .ok tables

theorem fanOut_ok_iff {ε ρ : Type} {failed : String → String → ε} {query : ClickHouse → List ρ} {regions : List String} :
    (∃ rows, fanOut reg servers failed query regions = .ok rows) ↔
      ∀ region ∈ regions, ∃ tables, servers.tables (servers.locate (reg.clickHouse region)) = .ok tables := by
  induction regions with
  | nil => exact ⟨fun _ _ mem => (nomatch mem), fun _ => ⟨[], rfl⟩⟩
  | cons region regions ih =>
    rw [List.forall_mem_cons, ← ih, fanOut]
    cases servers.tables (servers.locate (reg.clickHouse region)) with
    | error err => simp
    | ok tables => cases fanOut reg servers failed query regions <;> simp [Except.map]

end

theorem dedup_filter {α : Type} [DecidableEq α] (p : α → Bool) (list : List α) : (list.filter p).dedup = list.dedup.filter p := by
  induction list with
  | nil => rfl
  | cons one list ih =>
    by_cases mem : one ∈ list <;> cases holds : p one <;>
      simp [mem, holds, ih]

theorem tenants_filter {κ ν : Type} (tenant : String → Bool) (rows : List ((String × κ) × ν)) :
    (rows.filter fun row => tenant row.1.1).map (fun row => row.1.1) = (rows.map fun row => row.1.1).filter tenant :=
  List.filter_map.symm

theorem tenantOrder_filter (tenant : String → Bool) (rows : List ((String × Int) × Int64 × Int64)) :
    tenantOrder (rows.filter fun row => tenant row.1.1) = (tenantOrder rows).filter tenant := by
  rw [tenantOrder, tenants_filter, ← List.filter_reverse, dedup_filter, ← List.filter_reverse]
  rfl

variable {tenantID : String}

theorem filter_tenant {κ ν : Type} {tenant : String → Bool} (holds : tenant tenantID = true)
    {rows : List ((String × κ) × ν)} :
    (rows.filter fun row => tenant row.1.1).filter (fun row => row.1.1 = tenantID) = rows.filter fun row => row.1.1 = tenantID :=
  filter_filter_of_imp fun _ _ same => of_decide_eq_true same ▸ holds

section

variable {refs : List CustomerRef} (distinct : (refs.map fun ref => ref.clientID).Nodup) {granted : List Uuid}
  {tenant : String → Bool} (isTenant : ∀ tenantID, tenant tenantID = true ↔ ∃ ref ∈ refs, ref.id ∈ granted ∧ ref.clientID = tenantID)

include distinct isTenant

theorem byClientID_granted (holds : tenant tenantID = true) :
    ∃ ref, ref.id ∈ granted ∧ byClientID refs tenantID = some ref ∧
      byClientID (refs.filter fun ref => ref.id ∈ granted) tenantID = some ref := by
  obtain ⟨ref, isRef, isGranted, sameID⟩ := (isTenant tenantID).mp holds
  refine ⟨ref, isGranted, (byClientID_eq_some distinct).mpr ⟨isRef, sameID⟩, ?_⟩
  apply (byClientID_eq_some (nodup_filter_rows _ distinct)).mpr
  exact ⟨List.mem_filter.mpr ⟨isRef, decide_eq_true isGranted⟩, sameID⟩

theorem byClientID_other (other : ¬ tenant tenantID = true) {ref : CustomerRef}
    (found : byClientID refs tenantID = some ref) : ref.id ∉ granted := by
  obtain ⟨isRef, sameID⟩ := (byClientID_eq_some distinct).mp found
  exact fun isGranted => other ((isTenant tenantID).mpr ⟨ref, isRef, isGranted, sameID⟩)

theorem countedTenants_restrict (rows : List ((String × String) × Int64)) :
    countedTenants (rows.filter fun row => tenant row.1.1) (refs.filter fun ref => ref.id ∈ granted) none =
      countedTenants rows refs (some granted) := by
  rw [countedTenants, tenants_filter, dedup_filter, List.filterMap_filter]
  apply List.filterMap_congr
  intro tenantID _
  by_cases holds : tenant tenantID = true
  · obtain ⟨ref, isGranted, found, foundToo⟩ := byClientID_granted distinct isTenant holds
    simp [holds, found, foundToo, isAllowed, isGranted, filter_tenant holds]
  · rw [if_neg holds]
    cases found : byClientID refs tenantID with
    | none => rfl
    | some ref => simp [isAllowed, byClientID_other distinct isTenant holds found]

theorem costs_restrict (rows : List ((String × Int) × Int64 × Int64)) :
    ((tenantOrder (rows.filter fun row => tenant row.1.1)).filterMap fun tenantID =>
        (byClientID (refs.filter fun ref => ref.id ∈ granted) tenantID).map
          (customerCost (rows.filter fun row => tenant row.1.1) tenantID)) =
      ((tenantOrder rows).filterMap fun tenantID => (byClientID refs tenantID).map (customerCost rows tenantID)).filter fun cost =>
        granted.contains cost.customerID := by
  rw [tenantOrder_filter, List.filterMap_filter, List.filter_filterMap]
  apply List.filterMap_congr
  intro tenantID _
  by_cases holds : tenant tenantID = true
  · obtain ⟨ref, isGranted, found, foundToo⟩ := byClientID_granted distinct isTenant holds
    simp [holds, found, foundToo, customerCost, filter_tenant holds, Option.filter, isGranted]
  · rw [if_neg holds]
    cases found : byClientID refs tenantID with
    | none => rfl
    | some ref => simp [customerCost, Option.filter, byClientID_other distinct isTenant holds found]

end

end OtelFleet.Stats

namespace OtelFleet.Api

open Data Stats Store Semantics.Eff

section

variable {store : FleetStore} {limited full : Principal} {granted : List Uuid}

/-! ## Listings -/

theorem find?_restrict {id : Uuid} (isGranted : id ∈ granted) :
    (store.restrict granted).customers.find? (fun customer => customer.id = id) =
      store.customers.find? fun customer => customer.id = id := by
  apply find?_filter_of_imp
  intro customer _ isOwner
  have same : customer.id = id := by simpa using isOwner
  simpa [same] using isGranted

section

variable {row : PipelineRow} (isGranted : row.customerID ∈ granted)
include isGranted

theorem customer_restrict :
    (store.restrict granted).pipelineTables.customer row.customerID = store.pipelineTables.customer row.customerID := by
  simp only [PipelineTables.customer, FleetStore.pipelineTables, List.find?_map]
  exact congrArg (Option.map _) (find?_restrict isGranted)

variable (isRow : row ∈ store.pipelines)
include isRow

theorem version_restrict {versionID : Uuid} (isActive : versionID ∈ row.activeVersionID) :
    (store.restrict granted).pipelineTables.versionByID versionID = store.pipelineTables.versionByID versionID := by
  obtain ⟨version, isVersion, sameID, own⟩ := store.active_own row isRow versionID isActive
  refine find?_filter_of_imp fun other isOther same => decide_eq_true ⟨row, isRow, isGranted, ?_⟩
  have isSame : other = version := by
    apply List.inj_on_of_nodup_map store.versions_id isOther isVersion
    rw [sameID]
    simpa using same
  rw [isSame, own]

theorem latestVersion_restrict :
    (store.restrict granted).pipelineTables.latestVersion row.id = store.pipelineTables.latestVersion row.id := by
  simp only [PipelineTables.latestVersion]
  congr 2
  exact filter_filter_of_imp fun _ _ own => decide_eq_true ⟨row, isRow, isGranted, (of_decide_eq_true own).symm⟩

theorem listedRow_restrict :
    (store.restrict granted).pipelineTables.listedRow row = store.pipelineTables.listedRow row := by
  have active : row.activeVersionID.bind (store.restrict granted).pipelineTables.versionByID =
      row.activeVersionID.bind store.pipelineTables.versionByID := by
    cases isActive : row.activeVersionID with
    | none => rfl
    | some versionID => exact version_restrict isGranted isRow isActive
  simp only [PipelineTables.listedRow, PipelineTables.joinPipeline, customer_restrict isGranted, active,
    latestVersion_restrict isGranted isRow]

end

theorem customerID_listedRow {tables : PipelineTables} {row : PipelineRow} {pipeline : Pipeline}
    (listed : tables.listedRow row = some pipeline) : pipeline.customerID = row.customerID := by
  simp only [PipelineTables.listedRow, PipelineTables.joinPipeline] at listed
  generalize tables.customer row.customerID = found at listed
  cases found with
  | none => simp at listed
  | some customer =>
    simp only [Option.bind_eq_bind, Option.bind_some] at listed
    split at listed
    · cases listed
    · cases listed
      rfl

section

variable (isLimited : customerScope (some limited) = some granted) (isFull : customerScope (some full) = none)

include isLimited in
theorem shows_limited (customerID : Option Uuid) :
    shows (some limited) customerID = customerID.any fun id => granted.contains id := by
  rw [shows, isLimited, Option.all_some]

include isFull in
theorem shows_full (customerID : Option Uuid) : shows (some full) customerID = true := by
  rw [shows, isFull, Option.all_none]

include isLimited isFull

theorem listCustomers_limited (status : Option CustomerStatus) :
    listCustomers store (some limited) status = listCustomers (store.restrict granted) (some full) status := by
  simp only [listCustomers, shows_limited isLimited, shows_full isFull, FleetStore.listCustomers, filter_insertionSort,
    FleetStore.restrict, List.filter_filter]
  congr 3
  simp [Bool.and_comm]

theorem listPipelines_limited :
    listPipelines store (some limited) = listPipelines (store.restrict granted) (some full) := by
  simp only [listPipelines, shows_limited isLimited, shows_full isFull, List.filter_true, PipelineTables.listPipelines,
    filter_insertionSort, List.filter_filterMap, Option.all_none]
  congr 2
  change List.filterMap _ store.pipelines = List.filterMap _ (store.pipelines.filter fun row => row.customerID ∈ granted)
  rw [List.filterMap_filter]
  apply List.filterMap_congr
  intro row isRow
  by_cases isGranted : row.customerID ∈ granted
  · rw [if_pos (decide_eq_true isGranted), listedRow_restrict isGranted isRow]
    cases listed : store.pipelineTables.listedRow row with
    | none => rfl
    | some pipeline => simp [Option.filter, customerID_listedRow listed, isGranted]
  · rw [if_neg (by simpa using isGranted)]
    cases listed : store.pipelineTables.listedRow row with
    | none => rfl
    | some pipeline => simp [customerID_listedRow listed, isGranted]

theorem listAgents_limited (filter : AgentFilter) :
    listAgents store (some limited) filter = listAgents (store.restrict granted) (some full) filter := by
  simp only [listAgents, shows_limited isLimited, shows_full isFull, List.filter_true, FleetStore.listAgents, List.filter_map,
    List.map_map, Function.comp_def, filter_insertionSort]
  have same : ∀ agent : AgentRecord, agent.customerID.any (fun id => granted.contains id) = true →
      store.customerName agent = (store.restrict granted).customerName agent := by
    intro agent isGranted
    cases isCustomer : agent.customerID with
    | none => simp [FleetStore.customerName, isCustomer]
    | some id =>
      simp only [isCustomer, Option.any_some, List.contains_iff_mem] at isGranted
      simp only [FleetStore.customerName, isCustomer, Option.bind_some, find?_restrict isGranted]
  have kept : ∀ p : AgentRecord → Bool, (store.restrict granted).agents.filter p =
      (store.agents.filter p).filter fun agent => agent.customerID.any fun id => granted.contains id := by
    intro p
    rw [List.filter_comm]
    rfl
  rw [kept]
  apply List.map_congr_left
  intro agent isAgent
  have isGranted := (List.mem_filter.mp ((List.perm_insertionSort _ _).mem_iff.mp isAgent)).2
  rw [same agent isGranted]

/-! ## Figures -/

/-- The first entries of two orders of the same customers. -/
def SameTop (top top' : List TopCustomer) : Prop :=
  ∃ all all', SameUpToTies TopCustomer.before all all' ∧ top = all.take topCustomersLimit ∧ top' = all'.take topCustomersLimit

variable {σ : Type} {reg : Registry} {servers : Servers σ}

theorem getStatsOverview_limited (sorter sorter' : Sorter TopCustomer.before) (refusedFromVM : String → Int64) (start stop : Int) :
    Agree
      (fun overview overview' => overview.activeCustomers = granted.dedup.length ∧
        overview'.activeCustomers = (store.restrict granted).countActiveCustomers ∧
        overview.totals = overview'.totals ∧ SameTop overview.topCustomers overview'.topCustomers)
      (getStatsOverview store (some limited) reg servers sorter refusedFromVM start stop)
      (getStatsOverview (store.restrict granted) (some full) reg
        (servers.restrict (store.tenant granted)) sorter' refusedFromVM start stop) := by
  simp only [getStatsOverview, FleetStore.statsStore, isLimited, isFull, getOverview_eq, FleetStore.listCustomerRefs_restrict]
  by_cases inOrder : start < stop
  · rw [if_neg (not_not.mpr inOrder), if_neg (not_not.mpr inOrder), fanOut_restrict (overviewRows_restrict start stop)]
    cases fanOut reg servers clickHouseFailed (overviewRows start stop) reg.names with
    | error err => exact .error _
    | ok rows =>
      have counted := countedTenants_restrict store.nodup_clientID_refs (store.tenant_iff granted) (tally rows)
      rw [← tally_filter fun key : String × String => store.tenant granted key.1] at counted
      refine .ok ⟨rfl, rfl, ?_, _, _, sorter.sameUpToTies sorter' _, rfl, ?_⟩
      all_goals simp only [toOverview, overviewOf, counted]
  · rw [if_pos inOrder, if_pos inOrder]
    exact .error _

theorem getCostStats_limited (sorter sorter' : Sorter CustomerCost.before) (start stop : Int) :
    Agree (SameUpToTies CustomerCost.before) (getCostStats store (some limited) reg servers sorter start stop)
      (getCostStats (store.restrict granted) (some full) reg
        (servers.restrict (store.tenant granted)) sorter' start stop) := by
  simp only [getCostStats, FleetStore.statsStore, getCost_eq, FleetStore.listCustomerRefs_restrict]
  by_cases inOrder : start < stop
  · rw [if_neg (not_not.mpr inOrder), if_neg (not_not.mpr inOrder), fanOut_restrict (costRows_restrict _ start stop)]
    change Agree _ _ (((Except.map _ (Except.map _ (fanOut reg servers clickHouseFailed (costRows servers.toDate start stop)
      reg.names))).mapError _).map _)
    cases fanOut reg servers clickHouseFailed (costRows servers.toDate start stop) reg.names with
    | error err => exact .error _
    | ok rows =>
      apply Agree.ok
      simp only [shows_limited isLimited, shows_full isFull, List.filter_true,
        costs_restrict store.nodup_clientID_refs (store.tenant_iff granted)]
      exact sorter.sameUpToTies_filter sorter' _ _
  · rw [if_pos inOrder, if_pos inOrder]
    exact .error _

end

variable (isLimited : limited.allCustomers = false) (isFull : full.allCustomers = true) {σ : Type} {reg : Registry}
  {servers : Servers σ}

/-! ## The number of active customers -/

theorem countActiveCustomers_restrict :
    granted.dedup.length = (store.restrict granted).countActiveCustomers ↔
      ∀ id ∈ granted, ∃ customer ∈ store.customers, customer.id = id ∧ customer.status = .active := by
  let active := (store.restrict granted).customers.filter fun customer => customer.status = .active
  have count : (store.restrict granted).countActiveCustomers = (active.map fun customer => customer.id).length := by
    rw [FleetStore.countActiveCustomers, List.countP_eq_length_filter, List.length_map]
  have mem_active : ∀ id, id ∈ (active.map fun customer => customer.id) ↔
      id ∈ granted ∧ ∃ customer ∈ store.customers, customer.id = id ∧ customer.status = .active := by
    intro id
    simp only [active, FleetStore.restrict, List.mem_map, List.mem_filter, decide_eq_true_eq]
    constructor
    · rintro ⟨customer, ⟨⟨isCustomer, isGranted⟩, isActive⟩, rfl⟩
      exact ⟨isGranted, customer, isCustomer, rfl, isActive⟩
    · rintro ⟨isGranted, customer, isCustomer, rfl, isActive⟩
      exact ⟨customer, ⟨⟨isCustomer, isGranted⟩, isActive⟩, rfl⟩
  have distinct : (active.map fun customer => customer.id).Nodup :=
    nodup_filter_rows _ (store.restrict granted).customers_id
  have among : (active.map fun customer => customer.id) ⊆ granted.dedup :=
    fun id isActive => List.mem_dedup.mpr ((mem_active id).mp isActive).1
  rw [count]
  constructor
  · intro same id isGranted
    have perm := (List.subperm_of_subset distinct among).perm_of_length_le same.le
    exact ((mem_active id).mp (perm.mem_iff.mpr (List.mem_dedup.mpr isGranted))).2
  · intro allActive
    have perm := (List.perm_ext_iff_of_nodup (List.nodup_dedup granted) distinct).mpr fun id => by
      rw [List.mem_dedup, mem_active]
      exact ⟨fun isGranted => ⟨isGranted, allActive id isGranted⟩, And.left⟩
    exact perm.length_eq

/-- What `limited` is shown is what `full` is shown of the smaller fleet, up to the order
    of entries that tie and without the counter of refused requests. -/
structure SameViews (store : FleetStore) (limited full : Principal) (reg : Registry) (servers : Servers σ) : Prop where
  customers : ∀ status,
    listCustomers store (some limited) status = listCustomers (store.restrict limited.allowedCustomers) (some full) status
  pipelines : listPipelines store (some limited) = listPipelines (store.restrict limited.allowedCustomers) (some full)
  agents : ∀ filter,
    listAgents store (some limited) filter = listAgents (store.restrict limited.allowedCustomers) (some full) filter
  overview : ∀ sorter sorter' refusedFromVM start stop,
    Agree
      (fun overview overview' => overview.activeCustomers = overview'.activeCustomers ∧ overview.totals = overview'.totals ∧
        SameTop overview.topCustomers overview'.topCustomers)
      (getStatsOverview store (some limited) reg servers sorter refusedFromVM start stop)
      (getStatsOverview (store.restrict limited.allowedCustomers) (some full) reg
        (servers.restrict (store.tenant limited.allowedCustomers)) sorter' refusedFromVM start stop)
  cost : ∀ sorter sorter' start stop,
    Agree (SameUpToTies CustomerCost.before) (getCostStats store (some limited) reg servers sorter start stop)
      (getCostStats (store.restrict limited.allowedCustomers) (some full) reg
        (servers.restrict (store.tenant limited.allowedCustomers)) sorter' start stop)

variable {sorter : Sorter TopCustomer.before} {refusedFromVM : String → Int64} {principal : Option Principal}

theorem getStatsOverview_ok_iff {start stop : Int} :
    (∃ overview, getStatsOverview store principal reg servers sorter refusedFromVM start stop = .ok overview) ↔
      start < stop ∧ Answers reg servers := by
  have fanned : (∃ rows, fanOut reg servers clickHouseFailed (overviewRows start stop) reg.names = .ok rows) ↔
      Answers reg servers := fanOut_ok_iff
  rw [← fanned]
  simp only [getStatsOverview, FleetStore.statsStore, getOverview_eq]
  cases fanOut reg servers clickHouseFailed (overviewRows start stop) reg.names <;>
    by_cases inOrder : start < stop <;> simp [inOrder, Except.map, Except.mapError]

section

include isLimited isFull

theorem customerScope_views :
    customerScope (some limited) = some limited.allowedCustomers ∧ customerScope (some full) = none := by
  simp [customerScope, isLimited, isFull]

theorem active_of_sameViews (same : SameViews store limited full reg servers) (answers : Answers reg servers) :
    ∀ id ∈ limited.allowedCustomers, ∃ customer ∈ store.customers, customer.id = id ∧ customer.status = .active := by
  obtain ⟨scope, noScope⟩ := customerScope_views isLimited isFull
  let sorter : Sorter TopCustomer.before := .byKey TopCustomer.rank TopCustomer.before_iff
  obtain ⟨overview, answered⟩ : ∃ overview, getStatsOverview store (some limited) reg servers sorter (fun _ => 0) 0 1 =
      .ok overview := getStatsOverview_ok_iff.mpr ⟨by decide, answers⟩
  have agree : Agree _ (getStatsOverview store (some limited) reg servers sorter (fun _ => 0) 0 1) _ :=
    getStatsOverview_limited scope noScope sorter sorter (fun _ => 0) 0 1
  have counted := same.overview sorter sorter (fun _ => 0) 0 1
  rw [answered] at agree counted
  generalize getStatsOverview (store.restrict limited.allowedCustomers) (some full) reg _ sorter (fun _ => 0) 0 1 = other
    at agree counted
  cases agree with
  | ok parts =>
    cases counted with
    | ok counted => exact countActiveCustomers_restrict.mp (parts.1.symm.trans (counted.1.trans parts.2.1))

/-- The views are the same exactly when every granted customer is active, or the overview
    cannot be had at all. -/
theorem scoped_view :
    SameViews store limited full reg servers ↔
      (Answers reg servers →
        ∀ id ∈ limited.allowedCustomers, ∃ customer ∈ store.customers, customer.id = id ∧ customer.status = .active) := by
  refine ⟨active_of_sameViews isLimited isFull, ?_⟩
  intro active
  obtain ⟨scope, noScope⟩ := customerScope_views isLimited isFull
  refine ⟨listCustomers_limited scope noScope, listPipelines_limited scope noScope, listAgents_limited scope noScope,
    fun sorter sorter' refusedFromVM start stop => ?_, getCostStats_limited scope noScope⟩
  have agree : Agree _ (getStatsOverview store (some limited) reg servers sorter refusedFromVM start stop) _ :=
    getStatsOverview_limited scope noScope sorter sorter' refusedFromVM start stop
  generalize getStatsOverview (store.restrict limited.allowedCustomers) (some full) reg _ sorter' refusedFromVM start stop =
    other at agree ⊢
  generalize answered : getStatsOverview store (some limited) reg servers sorter refusedFromVM start stop = one at agree ⊢
  cases agree with
  | error err => exact .error err
  | ok parts =>
    have count := countActiveCustomers_restrict.mpr (active (getStatsOverview_ok_iff.mp ⟨_, answered⟩).2)
    exact .ok ⟨parts.1.trans (count.trans parts.2.1.symm), parts.2.2⟩

end

end

/-! ## A suspended customer among the grants -/

def activeAndSuspended : FleetStore where
  customers := [
    { id := ⟨1⟩, slug := "acme", name := "ACME", clientID := "cust-1", status := .active, region := "eu", createdAt := 0 },
    { id := ⟨2⟩, slug := "globex", name := "Globex", clientID := "cust-2", status := .suspended, region := "eu", createdAt := 1 }]
  pipelines := []
  versions := []
  agents := []
  customers_id := by decide
  customers_clientID := by decide
  versions_id := by decide
  active_own := fun _ isRow => nomatch isRow

def grantedTo : Principal :=
  ⟨{ id := ⟨9⟩, email := "ops@example.com", role := roleViewer, createdAt := 0 }, false, granted⟩

def everyone : Principal := ⟨{ id := ⟨8⟩, email := "root@example.com", role := roleAdmin, createdAt := 0 }, true, []⟩

def oneRegion : Registry where
  config := ⟨[{ name := "eu" }], "eu"⟩
  distinct := by decide
  hasDefault := by decide

def quiet : Servers Unit := answering (fun _ => ()) (fun _ => {}) id

/-- With grants for active customers only, the views are the same. -/
theorem active_grant_view : SameViews activeAndSuspended (grantedTo [⟨1⟩]) everyone oneRegion quiet :=
  (scoped_view rfl rfl).mpr fun _ => by decide

/-- A granted customer that is suspended counts as active for the scoped principal, and
    does not count in the smaller fleet. -/
theorem suspended_grant_view :
    let sorter : Sorter TopCustomer.before := .byKey TopCustomer.rank TopCustomer.before_iff
    (getStatsOverview activeAndSuspended (some (grantedTo [⟨1⟩, ⟨2⟩])) oneRegion quiet sorter (fun _ => 0) 0 1).map
        OverviewView.activeCustomers = .ok 2 ∧
      (getStatsOverview (activeAndSuspended.restrict [⟨1⟩, ⟨2⟩]) (some everyone) oneRegion
        (quiet.restrict (activeAndSuspended.tenant [⟨1⟩, ⟨2⟩])) sorter (fun _ => 0) 0 1).map OverviewView.activeCustomers = .ok 1 ∧
      ¬ SameViews activeAndSuspended (grantedTo [⟨1⟩, ⟨2⟩]) everyone oneRegion quiet := by
  refine ⟨rfl, rfl, fun same => ?_⟩
  have active := active_of_sameViews rfl rfl same fun _ _ => ⟨_, rfl⟩
  exact absurd (active ⟨2⟩ (by decide)) (by decide)

end OtelFleet.Api
