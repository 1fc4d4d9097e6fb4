import OtelFleet.Stats.Usage

/-! # Every row is counted once

The figures are sums over the regions, so a row counts as often as regions lead to its
database.  `counted_once`: all figures are the sums over the distinct stored rows, for
every content of the databases and as far as the number types hold the sums, exactly when
no two regions lead to the same one.
-/

namespace OtelFleet.Stats

open Data Store

section

variable {σ : Type}

/-! ## Going through the regions -/

def answering (locate : String × String → σ) (tables : σ → ClickHouse) (toDate : Int → Int) : Servers σ where
  locate := locate
  tables store := .ok (tables store)
  toDate := toDate

variable {reg : Registry} {locate : String × String → σ} {tables : σ → ClickHouse} {toDate : Int → Int}

def Registry.stores (reg : Registry) (locate : String × String → σ) : List σ :=
  reg.names.map fun region => locate (reg.clickHouse region)

theorem fanOut_answering {ε ρ : Type} (failed : String → String → ε) (query : ClickHouse → List ρ) (regions : List String) :
    fanOut reg (answering locate tables toDate) failed query regions =
      .ok (regions.flatMap fun region => query (tables (locate (reg.clickHouse region)))) := by
  induction regions with
  | nil => rfl
  | cons region regions ih =>
    rw [fanOut, ih]
    rfl

theorem stores_perm (reg : Registry) (locate : String × String → σ) :
    (reg.stores locate).Perm
      (reg.config.regions.map fun region => locate (region.clickHouseAddr, region.clickHouseDatabase)) := by
  have perm := reg.map_names_perm.map locate
  rwa [List.map_map, List.map_map] at perm

/-! ## The figures as sums over the rows that were read -/

variable {κ M : Type} [AddCommMonoid M]

def readEntries (reg : Registry) (locate : String × String → σ) (tables : σ → ClickHouse)
    (entries : ClickHouse → List (κ × M)) : List (κ × M) :=
  (reg.stores locate).flatMap fun store => entries (tables store)

def storedEntries [DecidableEq σ] (reg : Registry) (locate : String × String → σ) (tables : σ → ClickHouse)
    (entries : ClickHouse → List (κ × M)) : List (κ × M) :=
  (reg.stores locate).dedup.flatMap fun store => entries (tables store)

variable {entries : ClickHouse → List (κ × M)} {p : κ → Prop}

theorem sumWhere_read_eq [DecidablePred p] {N : Type} [AddCommMonoid N] (f : M →+ N) {query : ClickHouse → List (κ × N)}
    (same : ∀ tables, sumWhere p (query tables) = f (sumWhere p (entries tables))) :
    sumWhere p (reg.names.flatMap fun region => query (tables (locate (reg.clickHouse region)))) =
      f (sumWhere p (readEntries reg locate tables entries)) := by
  rw [readEntries, Registry.stores, List.flatMap_map, sumWhere_flatMap, sumWhere_flatMap, map_list_sum, List.map_map]
  simp only [same, Function.comp_def]

/-! ## Overview -/

variable {ref : CustomerRef} {tenantID : String}

section

variable {refs : List CustomerRef} (distinct : (refs.map fun ref => ref.clientID).Nodup) {allowed : Option (List Uuid)}

include distinct in
theorem byClientID_eq_some : byClientID refs tenantID = some ref ↔ ref ∈ refs ∧ ref.clientID = tenantID := by
  constructor
  · intro found
    exact ⟨List.mem_reverse.mp (List.mem_of_find?_eq_some found), by simpa using List.find?_some found⟩
  · rintro ⟨mem, rfl⟩
    have distinctReversed : (refs.reverse.map fun ref => ref.clientID).Nodup := by
      rw [List.map_reverse]
      exact List.nodup_reverse.mpr distinct
    exact find?_of_mem distinctReversed (List.mem_reverse.mpr mem)

def Counts (refs : List CustomerRef) (allowed : Option (List Uuid)) (tenantID : String) : Prop :=
  ∃ ref ∈ refs, ref.clientID = tenantID ∧ ∀ ids ∈ allowed, ref.id ∈ ids

instance (tenantID : String) : Decidable (Counts refs allowed tenantID) :=
  inferInstanceAs (Decidable (∃ ref ∈ refs, _))

variable {perTenantSignal : List ((String × String) × Int64)}

include distinct in
theorem mem_countedTenants {own : List (String × Int64)} :
    (ref, own) ∈ countedTenants perTenantSignal refs allowed ↔
      ref ∈ refs ∧ (∀ ids ∈ allowed, ref.id ∈ ids) ∧ ref.clientID ∈ perTenantSignal.map (fun entry => entry.1.1) ∧
        own = (perTenantSignal.filter fun entry => entry.1.1 = ref.clientID).map fun entry => (entry.1.2, entry.2) := by
  simp only [countedTenants, List.mem_filterMap, List.mem_dedup, Option.bind_eq_some_iff, byClientID_eq_some distinct]
  constructor
  · rintro ⟨tenantID, isTenant, other, ⟨isRef, rfl⟩, found⟩
    split at found
    · rename_i inScope
      cases found
      exact ⟨isRef, isAllowed_iff.mp inScope, isTenant, rfl⟩
    · cases found
  · rintro ⟨isRef, inScope, isTenant, rfl⟩
    exact ⟨ref.clientID, isTenant, ref, ⟨isRef, rfl⟩, if_pos (isAllowed_iff.mpr inScope)⟩

include distinct in
theorem sum_countedTenants (signal : String) :
    ((countedTenants perTenantSignal refs allowed).map fun tenant => sumWhere (· = signal) tenant.2).sum =
      sumWhere (fun key => key.2 = signal ∧ Counts refs allowed key.1) perTenantSignal := by
  have covered : ∀ entry ∈ perTenantSignal, entry.1.1 ∈ (perTenantSignal.map fun entry => entry.1.1).dedup :=
    fun entry mem => List.mem_dedup.mpr (List.mem_map_of_mem mem)
  rw [countedTenants, sum_map_filterMap, ← sum_groups (List.nodup_dedup _) covered]
  congr 1
  apply List.map_congr_left
  intro tenantID _
  by_cases counts : Counts refs allowed tenantID
  · obtain ⟨ref, isRef, rfl, inScope⟩ := counts
    have found := (byClientID_eq_some distinct).mpr ⟨isRef, rfl⟩
    rw [if_pos ⟨ref, isRef, rfl, inScope⟩, found, Option.bind_some, if_pos (isAllowed_iff.mpr inScope), Option.elim_some,
      sumWhere_map_key, sumWhere_filter fun key : String × String => key.1 = ref.clientID]
  · rw [if_neg counts]
    cases found : byClientID refs tenantID with
    | none => rfl
    | some ref =>
      obtain ⟨isRef, same⟩ := (byClientID_eq_some distinct).mp found
      have outside : ¬ isAllowed allowed ref.id = true :=
        fun inScope => counts ⟨ref, isRef, same, isAllowed_iff.mp inScope⟩
      rw [Option.bind_some, if_neg outside]
      rfl

end

/-! ## Cost -/

section

def dayEntries (costs : List CustomerCost) : List ((Uuid × Int) × Int64 × Int64) :=
  costs.flatMap fun cost => cost.days.map fun day => ((cost.customerID, day.date), day.items, day.bytes)

variable {refs : List CustomerRef} (distinctIDs : (refs.map fun ref => ref.id).Nodup)
  (distinct : (refs.map fun ref => ref.clientID).Nodup) {rows : List ((String × Int) × Int64 × Int64)}

theorem filterMap_single {α β : Type} [DecidableEq α] {list : List α} (nodup : list.Nodup) (one : α) (value : β) :
    list.filterMap (fun other => if other = one then some value else none) = if one ∈ list then [value] else [] := by
  induction list with
  | nil => rfl
  | cons first list ih =>
    rw [List.nodup_cons] at nodup
    by_cases same : first = one
    · subst same
      simp [ih nodup.2, nodup.1]
    · simp [ih nodup.2, same, Ne.symm same]

include distinctIDs distinct in
theorem filter_costs (isRef : ref ∈ refs) :
    ((tenantOrder rows).filterMap fun tenantID => (byClientID refs tenantID).map (customerCost rows tenantID)).filter
        (fun cost => cost.customerID = ref.id) =
      if ref.clientID ∈ tenantOrder rows then [customerCost rows ref.clientID ref] else [] := by
  have nodup : (tenantOrder rows).Nodup := List.nodup_reverse.mpr (List.nodup_dedup _)
  rw [List.filter_filterMap, ← filterMap_single nodup]
  apply List.filterMap_congr
  intro tenantID _
  by_cases own : tenantID = ref.clientID
  · subst own
    rw [(byClientID_eq_some distinct).mpr ⟨isRef, rfl⟩]
    simp [customerCost]
  · rw [if_neg own]
    cases found : byClientID refs tenantID with
    | none => rfl
    | some other =>
      obtain ⟨isOther, same⟩ := (byClientID_eq_some distinct).mp found
      have differs : other.id ≠ ref.id := by
        intro sameID
        rw [List.inj_on_of_nodup_map distinctIDs isOther isRef sameID] at same
        exact own same.symm
      simp [customerCost, differs]

theorem mem_tenantOrder : tenantID ∈ tenantOrder rows ↔ ∃ row ∈ rows, row.1.1 = tenantID := by
  simp [tenantOrder]

theorem sumWhere_absent (absent : tenantID ∉ tenantOrder rows) {p : String × Int → Prop} [DecidablePred p]
    (own : ∀ key, p key → key.1 = tenantID) : sumWhere p rows = 0 :=
  sumWhere_eq_zero fun row mem holds => absent (mem_tenantOrder.mpr ⟨row, mem, own _ holds⟩)

theorem customerCost_sums (tenantID : String) (ref : CustomerRef) :
    ((customerCost rows tenantID ref).items, (customerCost rows tenantID ref).bytes) =
      sumWhere (fun key => key.1 = tenantID) rows := by
  simp only [customerCost, sumWhere]
  induction rows.filter fun row => row.1.1 = tenantID with
  | nil => rfl
  | cons row own ih =>
    simp only [List.map_cons, List.sum_cons, ← ih]
    rfl

theorem customerCost_days (tenantID : String) (ref : CustomerRef) (date : Int) :
    sumWhere (· = (ref.id, date)) (dayEntries [customerCost rows tenantID ref]) = sumWhere (· = (tenantID, date)) rows := by
  have days : dayEntries [customerCost rows tenantID ref] =
      (rows.filter fun row => row.1.1 = tenantID).map fun row => ((ref.id, row.1.2), row.2) := by
    simp [dayEntries, customerCost]
  rw [days, sumWhere_map_key fun key : String × Int => (ref.id, key.2), sumWhere_filter fun key : String × Int => key.1 = tenantID]
  apply sumWhere_congr
  simp [and_comm]

variable {costs : List CustomerCost}
  (listed : costs.Perm ((tenantOrder rows).filterMap fun tenantID =>
    (byClientID refs tenantID).map (customerCost rows tenantID)))

include distinctIDs distinct listed

theorem filter_listed (isRef : ref ∈ refs) :
    costs.filter (fun cost => cost.customerID = ref.id) =
      if ref.clientID ∈ tenantOrder rows then [customerCost rows ref.clientID ref] else [] := by
  have perm := listed.filter fun cost => cost.customerID = ref.id
  rw [filter_costs distinctIDs distinct isRef] at perm
  by_cases mem : ref.clientID ∈ tenantOrder rows
  · rw [if_pos mem] at perm ⊢
    exact List.perm_singleton.mp perm
  · rw [if_neg mem] at perm ⊢
    exact List.perm_nil.mp perm

theorem sumWhere_costs (isRef : ref ∈ refs) :
    sumWhere (· = ref.id) (costs.map fun cost => (cost.customerID, cost.items, cost.bytes)) =
      sumWhere (fun key => key.1 = ref.clientID) rows := by
  have own : sumWhere (· = ref.id) (costs.map fun cost => (cost.customerID, cost.items, cost.bytes)) =
      ((costs.filter fun cost => cost.customerID = ref.id).map fun cost => (cost.items, cost.bytes)).sum := by
    simp [sumWhere, List.filter_map, Function.comp_def]
  rw [own, filter_listed distinctIDs distinct listed isRef]
  by_cases mem : ref.clientID ∈ tenantOrder rows
  · rw [if_pos mem, List.map_singleton, List.sum_singleton, customerCost_sums]
  · rw [if_neg mem, sumWhere_absent mem fun _ same => same]
    rfl

theorem sumWhere_dayEntries (isRef : ref ∈ refs) (date : Int) :
    sumWhere (· = (ref.id, date)) (dayEntries costs) = sumWhere (· = (ref.clientID, date)) rows := by
  have others : ∀ cost : CustomerCost, ¬ cost.customerID = ref.id →
      sumWhere (· = (ref.id, date)) (cost.days.map fun day => ((cost.customerID, day.date), day.items, day.bytes)) = 0 := by
    intro cost differs
    apply sumWhere_eq_zero
    intro entry mem same
    obtain ⟨day, _, rfl⟩ := List.mem_map.mp mem
    exact differs (congrArg Prod.fst same)
  rw [dayEntries, sumWhere_flatMap_filter others, filter_listed distinctIDs distinct listed isRef]
  by_cases mem : ref.clientID ∈ tenantOrder rows
  · rw [if_pos mem]
    exact customerCost_days ref.clientID ref date
  · rw [if_neg mem, sumWhere_absent mem fun _ same => congrArg Prod.fst same]
    rfl

end

/-! ## The figures -/

structure KnownCustomers where
  refs : List CustomerRef
  ids : (refs.map fun ref => ref.id).Nodup
  clientIDs : (refs.map fun ref => ref.clientID).Nodup

def overviewOf (reg : Registry) (refs : List CustomerRef) (active : Nat) (sorter : Sorter TopCustomer.before)
    (refusedFromVM : String → Int64) (start stop : Int) (allowed : Option (List Uuid)) (rows : List ((String × String) × Int64)) :
    Overview :=
  let counted := countedTenants (tally rows) refs allowed
  { activeCustomers := allowed.elim active fun ids => ids.dedup.length
    totals := fun signal => (counted.map fun tenant => sumWhere (· = signal) tenant.2).sum
    refusedRequests := if allowed.isSome then 0 else refusedRequests reg refusedFromVM start stop
    topCustomers := (sorter.sort (counted.map topCustomer)).take topCustomersLimit }

variable {known : KnownCustomers} {servers : Servers σ}

section

variable {refs : List CustomerRef} {active : Nat} {sorter : Sorter TopCustomer.before} {refusedFromVM : String → Int64}
  {start stop : Int} {allowed : Option (List Uuid)}

theorem getOverview_eq :
    getOverview reg servers ⟨.ok active, .ok refs⟩ sorter refusedFromVM start stop allowed =
      (fanOut reg servers clickHouseFailed (overviewRows start stop) reg.names).map
        (overviewOf reg refs active sorter refusedFromVM start stop allowed) := by
  rw [getOverview]
  cases fanOut reg servers clickHouseFailed _ reg.names with
  | error err => rfl
  | ok rows => cases allowed <;> rfl

theorem getOverview_answering :
    getOverview reg (answering locate tables toDate) ⟨.ok active, .ok refs⟩ sorter refusedFromVM start stop allowed =
      .ok (overviewOf reg refs active sorter refusedFromVM start stop allowed (reg.names.flatMap fun region =>
        overviewRows start stop (tables (locate (reg.clickHouse region))))) := by
  rw [getOverview_eq, fanOut_answering]
  rfl

theorem sumWhere_overviewRows {p : String × String → Prop} [DecidablePred p] (start stop : Int) :
    sumWhere p (tally (reg.names.flatMap fun region =>
      overviewRows start stop (tables (locate (reg.clickHouse region))))) =
      toInt64 (sumWhere p (readEntries reg locate tables (overviewEntries start stop))) := by
  rw [sumWhere_tally]
  apply sumWhere_read_eq
  intro tables
  rw [overviewRows, sumWhere_map_value, sumWhere_tally]

theorem overview_read {overview : Overview}
    (answered : getOverview reg (answering locate tables toDate) ⟨.ok active, .ok known.refs⟩ sorter refusedFromVM start stop
      allowed = .ok overview) :
    (∀ signal, overview.totals signal =
      toInt64 (sumWhere (fun key => key.2 = signal ∧ Counts known.refs allowed key.1)
        (readEntries reg locate tables (overviewEntries start stop)))) ∧
      ∀ top ∈ overview.topCustomers, ∃ ref ∈ known.refs, top.customerID = ref.id ∧
        top.items =
          toInt64 (sumWhere (fun key => key.1 = ref.clientID) (readEntries reg locate tables (overviewEntries start stop))) := by
  cases getOverview_answering.symm.trans answered
  refine ⟨fun signal => ?_, fun top isTop => ?_⟩
  · simp only [overviewOf]
    rw [sum_countedTenants known.clientIDs, sumWhere_overviewRows]
  · have mem := (sorter.perm _).mem_iff.mp (List.mem_of_mem_take isTop)
    obtain ⟨⟨ref, own⟩, isCounted, rfl⟩ := List.mem_map.mp mem
    obtain ⟨isRef, _, _, rfl⟩ := (mem_countedTenants known.clientIDs).mp isCounted
    refine ⟨ref, isRef, rfl, ?_⟩
    rw [← sumWhere_overviewRows]
    simp [topCustomer, sumWhere, Function.comp_def]

end

variable {start stop : Int}

def toInt64s : Nat × Nat →+ Int64 × Int64 := toInt64.prodMap toInt64

theorem sumWhere_costRows {p : String × Int → Prop} [DecidablePred p] (tables : ClickHouse) :
    sumWhere p (costRows toDate start stop tables) = toInt64s (sumWhere p (costEntries toDate start stop tables)) := by
  refine (sumWhere_map_value toInt64s _).trans (congrArg toInt64s ?_)
  rw [sumWhere_perm (List.perm_insertionSort _ _), sumWhere_tally]

def readCosts (reg : Registry) (locate : String × String → σ) (tables : σ → ClickHouse) (toDate : Int → Int) (start stop : Int) :
    List ((String × Int) × Int64 × Int64) :=
  reg.names.flatMap fun region => costRows toDate start stop (tables (locate (reg.clickHouse region)))

variable {sorter : Sorter CustomerCost.before} {active : Nat} {refs : List CustomerRef}

theorem getCost_eq :
    getCost reg servers ⟨.ok active, .ok refs⟩ sorter start stop =
      (fanOut reg servers clickHouseFailed (costRows servers.toDate start stop) reg.names).map fun rows =>
        sorter.sort ((tenantOrder rows).filterMap fun tenantID => (byClientID refs tenantID).map (customerCost rows tenantID)) := by
  rw [getCost]
  cases fanOut reg servers clickHouseFailed _ reg.names <;> rfl

theorem getCost_answering :
    getCost reg (answering locate tables toDate) ⟨.ok active, .ok refs⟩ sorter start stop =
      .ok (sorter.sort ((tenantOrder (readCosts reg locate tables toDate start stop)).filterMap fun tenantID =>
        (byClientID refs tenantID).map (customerCost (readCosts reg locate tables toDate start stop) tenantID))) := by
  rw [getCost_eq, fanOut_answering]
  rfl

theorem sumWhere_readCosts {p : String × Int → Prop} [DecidablePred p] (start stop : Int) :
    sumWhere p (readCosts reg locate tables toDate start stop) =
      toInt64s (sumWhere p (readEntries reg locate tables (costEntries toDate start stop))) :=
  sumWhere_read_eq toInt64s sumWhere_costRows

theorem cost_read {costs : List CustomerCost}
    (answered : getCost reg (answering locate tables toDate) ⟨.ok active, .ok known.refs⟩ sorter start stop = .ok costs)
    (isRef : ref ∈ known.refs) :
    sumWhere (· = ref.id) (costs.map fun cost => (cost.customerID, cost.items, cost.bytes)) =
        toInt64s (sumWhere (fun key => key.1 = ref.clientID) (readEntries reg locate tables (costEntries toDate start stop))) ∧
      ∀ date, sumWhere (· = (ref.id, date)) (dayEntries costs) =
        toInt64s (sumWhere (· = (ref.clientID, date)) (readEntries reg locate tables (costEntries toDate start stop))) := by
  cases getCost_answering.symm.trans answered
  have listed := sorter.perm ((tenantOrder (readCosts reg locate tables toDate start stop)).filterMap fun tenantID =>
    (byClientID known.refs tenantID).map (customerCost (readCosts reg locate tables toDate start stop) tenantID))
  refine ⟨?_, fun date => ?_⟩
  · rw [sumWhere_costs known.ids known.clientIDs listed isRef, sumWhere_readCosts]
  · rw [sumWhere_dayEntries known.ids known.clientIDs listed isRef, sumWhere_readCosts]

section

variable {rows : List (String × Nat)}

theorem addFloats_append (row : String × Nat) :
    (addFloats (rows ++ [row]) tenantID).getD 0 =
      if row.1 = tenantID then nearestFloat64 ((addFloats rows tenantID).getD 0 + nearestFloat64 (row.2 % 2 ^ 64 : Nat))
      else (addFloats rows tenantID).getD 0 := by
  rw [addFloats, List.foldl_append, List.foldl_cons, List.foldl_nil]
  split <;> rfl

theorem addFloats_eq (fits : sumWhere (· = tenantID) rows < 2 ^ 53) :
    (addFloats rows tenantID).getD 0 = sumWhere (· = tenantID) rows := by
  induction rows using List.reverseRecOn with
  | nil => rfl
  | append_singleton rows row ih =>
    rw [sumWhere_append] at fits ⊢
    rw [addFloats_append, ih (by omega)]
    by_cases own : row.1 = tenantID
    · have value : sumWhere (· = tenantID) [row] = row.2 := by simp [sumWhere, own]
      rw [value] at fits ⊢
      rw [if_pos own, Nat.mod_eq_of_lt (by omega), nearestFloat64_natCast (by omega), ← Nat.cast_add, nearestFloat64_natCast fits]
    · simp [sumWhere, own]

theorem le_addFloats (scanned : ∀ row ∈ rows, row.2 < 2 ^ 64) {n : Nat} (small : n < 2 ^ 53)
    (le : n ≤ sumWhere (· = tenantID) rows) : n ≤ (addFloats rows tenantID).getD 0 := by
  induction rows using List.reverseRecOn generalizing n with
  | nil => simpa [addFloats, sumWhere] using le
  | append_singleton rows row ih =>
    obtain ⟨before, last⟩ := List.forall_mem_append.mp scanned
    rw [sumWhere_append] at le
    rw [addFloats_append]
    by_cases own : row.1 = tenantID
    · have value : sumWhere (· = tenantID) [row] = row.2 := by simp [sumWhere, own]
      rw [value] at le
      -- the sum of the rows before covers a part of `n`, and the row the rest
      have first := ih before (by omega : min n (sumWhere (· = tenantID) rows) < 2 ^ 53) (min_le_right _ _)
      have rest : ((n - min n (sumWhere (· = tenantID) rows) : Nat) : ℚ) ≤ nearestFloat64 (row.2 % 2 ^ 64 : Nat) := by
        rw [Nat.mod_eq_of_lt (last row List.mem_cons_self)]
        exact le_nearestFloat64 (by omega) (Nat.cast_le.mpr (by omega))
      rw [if_pos own]
      apply le_nearestFloat64 small
      rw [← Nat.add_sub_of_le (min_le_left n (sumWhere (· = tenantID) rows)), Nat.cast_add]
      exact add_le_add first rest
    · rw [if_neg own]
      exact ih before small (by simpa [sumWhere, own] using le)

end

theorem metricSource_answering [PrintTable] {metric : String} {since : Int} {entries : ClickHouse → List (String × Nat)}
    (known : metricEntries metric since = some entries) :
    ∃ rows, metricSource reg (answering locate tables toDate) metric since = .ok (addFloats rows) ∧
      rows = (reg.names.flatMap fun region => tally (entries (tables (locate (reg.clickHouse region))))) ∧
      ∀ tenantID, sumWhere (· = tenantID) rows = sumWhere (· = tenantID) (readEntries reg locate tables entries) := by
  rw [metricSource, known]
  dsimp only
  rw [fanOut_answering]
  exact ⟨_, rfl, rfl, fun tenantID => sumWhere_read_eq (.id Nat) fun tables => sumWhere_tally _⟩

variable [DecidableEq σ]

/-- The figure is the sum, if the sum is one of an `int64`. -/
def Shows (figure : Int64) (sum : Nat) : Prop := sum < 2 ^ 63 → figure.toInt = sum

/-- The totals and the leaderboard are sums over the distinct rows, of the known customers
    in scope. -/
def OverviewCounts (reg : Registry) (locate : String × String → σ) (tables : σ → ClickHouse) : Prop :=
  ∀ (toDate : Int → Int) (known : KnownCustomers) (active : Nat) (sorter : Sorter TopCustomer.before) (refusedFromVM : String → Int64)
    (start stop : Int) (allowed : Option (List Uuid)),
    ∃ overview, getOverview reg (answering locate tables toDate) ⟨.ok active, .ok known.refs⟩ sorter refusedFromVM start stop
        allowed = .ok overview ∧
      (∀ signal, Shows (overview.totals signal)
        (sumWhere (fun key => key.2 = signal ∧ Counts known.refs allowed key.1)
          (storedEntries reg locate tables (overviewEntries start stop)))) ∧
      ∀ top ∈ overview.topCustomers, ∃ ref ∈ known.refs, top.customerID = ref.id ∧
        Shows top.items (sumWhere (fun key => key.1 = ref.clientID) (storedEntries reg locate tables (overviewEntries start stop)))

def ShowsBoth (figures : Int64 × Int64) (sums : Nat × Nat) : Prop := Shows figures.1 sums.1 ∧ Shows figures.2 sums.2

/-- The items and bytes of every customer, of each of its days and of its line of the
    statement are sums over the distinct rows. -/
def CostCounts (reg : Registry) (locate : String × String → σ) (tables : σ → ClickHouse) : Prop :=
  ∀ (toDate : Int → Int) (known : KnownCustomers) (active : Nat) (sorter : Sorter CustomerCost.before) (start stop : Int),
    ∃ costs, getCost reg (answering locate tables toDate) ⟨.ok active, .ok known.refs⟩ sorter start stop = .ok costs ∧
      ∀ ref ∈ known.refs,
        let stored := storedEntries reg locate tables (costEntries toDate start stop)
        ShowsBoth (sumWhere (· = ref.id) (costs.map fun cost => (cost.customerID, cost.items, cost.bytes)))
            (sumWhere (fun key => key.1 = ref.clientID) stored) ∧
          (∀ date, ShowsBoth (sumWhere (· = (ref.id, date)) (dayEntries costs)) (sumWhere (· = (ref.clientID, date)) stored)) ∧
          ∀ month settings overrides,
            ShowsBoth
              (sumWhere (· = ref.id) ((computeStatement month costs settings overrides).lines.map fun line =>
                (line.customerID, line.items, line.bytes)))
              (sumWhere (fun key => key.1 = ref.clientID) stored)

/-- The value of a known metric is the sum over the distinct rows, if that is below `2 ^ 53`;
    an absent tenant counts as 0. -/
def MetricCounts [PrintTable] (reg : Registry) (locate : String × String → σ) (tables : σ → ClickHouse) : Prop :=
  ∀ (toDate : Int → Int) (metric : String) (since : Int) (entries : ClickHouse → List (String × Nat)),
    metricEntries metric since = some entries →
    ∃ values, metricSource reg (answering locate tables toDate) metric since = .ok values ∧
      ∀ tenantID, sumWhere (· = tenantID) (storedEntries reg locate tables entries) < 2 ^ 53 →
        (values tenantID).getD 0 = sumWhere (· = tenantID) (storedEntries reg locate tables entries)

def CountedOnce [PrintTable] (reg : Registry) (locate : String × String → σ) : Prop :=
  ∀ tables, OverviewCounts reg locate tables ∧ CostCounts reg locate tables ∧ MetricCounts reg locate tables

omit [AddCommMonoid M] in
theorem storedEntries_eq (single : (reg.stores locate).Nodup) (entries : ClickHouse → List (κ × M)) :
    storedEntries reg locate tables entries = readEntries reg locate tables entries := by
  rw [storedEntries, readEntries, single.dedup]

theorem shows_of_eq {figure : Int64} {sum : Nat} (same : figure = toInt64 sum) : Shows figure sum := by
  rw [same]
  exact toInt_toInt64

theorem showsBoth_of_eq {figures : Int64 × Int64} {sums : Nat × Nat} (same : figures = toInt64s sums) : ShowsBoth figures sums :=
  ⟨shows_of_eq (congrArg Prod.fst same), shows_of_eq (congrArg Prod.snd same)⟩

theorem overviewCounts (single : (reg.stores locate).Nodup) : OverviewCounts reg locate tables := by
  intro toDate known active sorter refusedFromVM start stop allowed
  rw [storedEntries_eq single]
  have answered := @getOverview_answering _ reg locate tables toDate known.refs active sorter refusedFromVM start stop allowed
  obtain ⟨totals, top⟩ := overview_read answered
  refine ⟨_, answered, fun signal => shows_of_eq (totals signal), fun customer isTop => ?_⟩
  obtain ⟨ref, isRef, same, items⟩ := top customer isTop
  exact ⟨ref, isRef, same, shows_of_eq items⟩

theorem costCounts (single : (reg.stores locate).Nodup) : CostCounts reg locate tables := by
  intro toDate known active sorter start stop
  have answered := @getCost_answering _ reg locate tables toDate start stop sorter active known.refs
  refine ⟨_, answered, fun ref isRef => ?_⟩
  rw [storedEntries_eq single]
  obtain ⟨total, days⟩ := cost_read answered isRef
  refine ⟨showsBoth_of_eq total, fun date => showsBoth_of_eq (days date), fun month settings overrides => showsBoth_of_eq ?_⟩
  rw [← total, computeStatement, sumWhere_perm ((List.perm_insertionSort _ _).map _), List.map_map]
  rfl

/-! ## A database that is read twice -/

def oneItem : ClickHouse where
  counts := [{ tenantID := "cust", signal := "logs", minute := 0, items := 1 }]

def oneRow (store other : σ) : ClickHouse := if other = store then oneItem else {}

theorem sumWhere_oneRow [DecidablePred p] (empty : entries {} = []) (store : σ) (stores : List σ) :
    sumWhere p (stores.flatMap fun other => entries (oneRow store other)) = stores.count store • sumWhere p (entries oneItem) := by
  induction stores with
  | nil => exact (zero_nsmul _).symm
  | cons other stores ih =>
    rw [List.flatMap_cons, sumWhere_append, ih, List.count_cons, add_nsmul, add_comm]
    by_cases same : other = store
    · rw [oneRow, if_pos same, if_pos (beq_iff_eq.mpr same), one_nsmul]
    · simp [oneRow, same, empty]

theorem count_le_one_of_metric [PrintTable] {store : σ} (counts : MetricCounts reg locate (oneRow store)) :
    (reg.stores locate).count store ≤ 1 := by
  obtain ⟨entries, known, empty, one⟩ : ∃ entries, metricEntries alertMetricIngestItems 0 = some entries ∧
      entries {} = [] ∧ entries oneItem = [("cust", 1)] := ⟨_, rfl, rfl, rfl⟩
  obtain ⟨values, answered, stored⟩ := counts id alertMetricIngestItems 0 entries known
  obtain ⟨rows, same, isRows, read⟩ := metricSource_answering known
  cases answered.symm.trans same
  have item : sumWhere (· = "cust") (entries oneItem) = 1 := by
    rw [one]
    rfl
  have ones : ∀ n : Nat, n • 1 = n := fun n => by simp
  have shown := stored "cust"
  rw [storedEntries, sumWhere_oneRow empty, item, ones] at shown
  have once := List.nodup_iff_count_le_one.mp (List.nodup_dedup (reg.stores locate)) store
  by_contra many
  have twice : 2 ≤ sumWhere (· = "cust") rows := by
    rw [read, readEntries, sumWhere_oneRow empty, item, ones]
    exact Nat.lt_of_not_le many
  have scanned : ∀ row ∈ rows, row.2 < 2 ^ 64 := by
    intro row isRow
    rw [isRows] at isRow
    obtain ⟨region, _, isRow⟩ := List.mem_flatMap.mp isRow
    unfold oneRow at isRow
    split at isRow
    · rw [one] at isRow
      cases List.mem_singleton.mp (isRow : row ∈ [("cust", 1)])
      decide
    · rw [empty] at isRow
      cases isRow
  have least := le_addFloats scanned (by decide : 2 < 2 ^ 53) twice
  rw [shown (by omega), Nat.cast_le] at least
  omega

theorem counted_once [PrintTable] (text : CaseMap) {settings : RegionSettings} {config : RegionConfig}
    (loaded : loadRegions text settings = .ok config) (locate : String × String → σ) :
    CountedOnce ⟨config, (loadRegions_spec text loaded).1, (loadRegions_spec text loaded).2⟩ locate ↔
      (config.regions.map fun region => locate (region.clickHouseAddr, region.clickHouseDatabase)).Nodup := by
  rw [← (stores_perm ⟨config, (loadRegions_spec text loaded).1, (loadRegions_spec text loaded).2⟩ locate).nodup_iff]
  constructor
  · intro counted
    exact List.nodup_iff_count_le_one.mpr fun store => count_le_one_of_metric (counted (oneRow store)).2.2
  · intro single tables
    refine ⟨overviewCounts single, costCounts single, ?_⟩
    intro toDate metric since entries known
    obtain ⟨rows, answered, _, read⟩ := metricSource_answering known
    refine ⟨addFloats rows, answered, fun tenantID fits => ?_⟩
    rw [storedEntries_eq single, ← read] at fits ⊢
    exact addFloats_eq fits

end

/-! ## Two regions -/

attribute [local instance] asciiPrintTable

def twoRegions (usAddr : String) : RegionConfig where
  regions := [{ name := "eu", clickHouseAddr := "eu-ch:9000" }, { name := "us", clickHouseAddr := usAddr }]
  defaultRegion := "eu"

theorem load_twoRegions (usAddr : String) :
    loadRegions .ascii { regions := some (.ok (twoRegions usAddr).regions) } = .ok (twoRegions usAddr) := by
  have eu : CaseMap.ascii.trimSpace "eu" ≠ "" := by decide
  have us : CaseMap.ascii.trimSpace "us" ≠ "" := by decide
  simp [loadRegions, listedRegions, checkNames, withDefault, twoRegions, RegionConfig.hasRegion, bind, Except.bind, eu, us]

/-- With stores of their own every row is counted once, whatever the stores hold. -/
theorem separate_regions_count_once :
    CountedOnce ⟨twoRegions "us-ch:9000", (loadRegions_spec .ascii (load_twoRegions "us-ch:9000")).1,
      (loadRegions_spec .ascii (load_twoRegions "us-ch:9000")).2⟩ id :=
  (counted_once .ascii (load_twoRegions "us-ch:9000") id).mpr (by decide)

def sharedRegions : Registry :=
  ⟨twoRegions "eu-ch:9000", (loadRegions_spec .ascii (load_twoRegions "eu-ch:9000")).1,
    (loadRegions_spec .ascii (load_twoRegions "eu-ch:9000")).2⟩

def sharedCustomer : KnownCustomers where
  refs := [⟨⟨1⟩, "ACME Corp", "cust"⟩]
  ids := by decide
  clientIDs := by decide

/-- One item in the database that both regions name is counted twice in the overview, in the
    cost of its customer and in the alert metric. -/
theorem shared_store_counts_twice :
    ¬ OverviewCounts sharedRegions id (oneRow ("eu-ch:9000", "")) ∧ ¬ CostCounts sharedRegions id (oneRow ("eu-ch:9000", "")) ∧
      ¬ MetricCounts sharedRegions id (oneRow ("eu-ch:9000", "")) := by
  have read : @List.count _ instBEqOfDecidableEq ("eu-ch:9000", "") (sharedRegions.stores id) = 2 := by decide
  have stored : @List.count _ instBEqOfDecidableEq ("eu-ch:9000", "") (sharedRegions.stores id).dedup = 1 := by decide
  refine ⟨fun counts => ?_, fun counts => ?_, fun counts => ?_⟩
  · obtain ⟨overview, answered, totals, _⟩ :=
      counts id sharedCustomer 1 (.byKey TopCustomer.rank TopCustomer.before_iff) (fun _ => 0) 0 1 none
    have shown := totals "logs"
    rw [(overview_read answered).1 "logs", readEntries, storedEntries, sumWhere_oneRow rfl, sumWhere_oneRow rfl, read, stored] at shown
    exact absurd (shown (by decide)) (by decide)
  · obtain ⟨costs, answered, sums⟩ := counts id sharedCustomer 1 (.byKey CustomerCost.rank CustomerCost.before_iff) 0 1
    have shown := (sums _ List.mem_cons_self).1.1
    rw [(cost_read answered List.mem_cons_self).1, readEntries, storedEntries, sumWhere_oneRow rfl, sumWhere_oneRow rfl, read,
      stored] at shown
    exact absurd (shown (by decide)) (by decide)
  · have once := count_le_one_of_metric counts
    rw [read] at once
    exact absurd once (by decide)

end OtelFleet.Stats
