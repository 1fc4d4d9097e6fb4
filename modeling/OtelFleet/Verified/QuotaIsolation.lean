import OtelFleet.Collector.QuotaProcessor
import OtelFleet.Data.Rows
import OtelFleet.Verified.QuotaCollection

/-! # One tenant's quota is not another's

The registry is shared by all tenants, and the calls of one tenant sweep the buckets of
all.  A tenant's batches are answered as if it were alone: to its bucket, the other
tenants' calls are sweeps at most.
-/

namespace OtelFleet.Verified.QuotaIsolation

open Collector.TenantQuota Collector.TenantQuota.Registry Data QuotaCollection Semantics

def isOf (tenant : String) (batch : Batch) : Bool := batch.auth.any fun auth => auth.tenant = tenant

def only (tenant : String) (reg : Registry) : Registry :=
  { reg with buckets := fun other => if other = tenant then reg.buckets other else none }

section

variable {scan : String → Option Int} {tenant : String} {batch : Batch} {call : Call} {reg kept : Registry} {burst : ℚ}

theorem call_spec (tenant : String) (isCall : batch.call scan = some call) :
    0 < call.limit ∧ call.now = batch.now ∧ (isOf tenant batch = true ↔ call.tenant = tenant) := by
  obtain ⟨auth, isAuth, limited⟩ := Option.bind_eq_some_iff.mp isCall
  dsimp only at limited
  split at limited
  · cases limited
  · rename_i limits
    cases limited
    simp only [not_or, not_le] at limits
    exact ⟨limits.2.1, rfl, by simp [isOf, isAuth]⟩

theorem only_maybeGC (reg : Registry) (now : Int) : only tenant (reg.maybeGC now) = (only tenant reg).maybeGC now := by
  unfold only maybeGC
  split
  · rfl
  · simp only [Registry.mk.injEq, true_and, and_true]
    funext other
    split <;> rfl

theorem take_only (isTenant : call.tenant = tenant) (reg : Registry) :
    (only tenant reg).take call = ((reg.take call).1, only tenant (reg.take call).2) := by
  have refills : refilled (only tenant (reg.maybeGC call.now)) call = refilled (reg.maybeGC call.now) call := by
    simp [refilled, only, isTenant]
  have stores bucket : only tenant ((reg.maybeGC call.now).store call.tenant bucket) =
      (only tenant (reg.maybeGC call.now)).store call.tenant bucket := by
    simp only [only, store, Registry.mk.injEq, true_and, and_true]
    funext other
    by_cases isOther : other = tenant <;> simp [isOther, isTenant]
  unfold take
  rw [← only_maybeGC, takeKept_eq, takeKept_eq, refills]
  split <;> simp [stores]

theorem only_take (isOther : call.tenant ≠ tenant) (reg : Registry) :
    only tenant (reg.take call).2 = (only tenant reg).maybeGC call.now := by
  rw [← only_maybeGC]
  unfold take
  rw [takeKept_eq]
  have stores bucket : only tenant ((reg.maybeGC call.now).store call.tenant bucket) =
      only tenant (reg.maybeGC call.now) := by
    simp only [only, store, Registry.mk.injEq, true_and, and_true]
    funext other
    by_cases isTenant : other = tenant <;> simp [isTenant, isOther.symm]
  split <;> exact stores _

/-- The tenant's part of the registry, after the batches `past`, and a registry of its own
    that is never swept. -/
structure Alone (scan : String → Option Int) (tenant : String) (burst : ℚ) (past : List Batch) (reg kept : Registry) :
    Prop where
  similar : Similar burst (past.filterMap (Batch.call scan)) (past.filterMap (Batch.call scan)) (only tenant reg) kept
  others : ∀ other, other ≠ tenant → kept.buckets other = none

/-- The clock does not go back, and a call of the tenant finds its bucket full after an idle
    time. -/
structure Expected (scan : String → Option Int) (tenant : String) (burst : ℚ) (past : List Batch) (batch : Batch) : Prop where
  clock : ∀ earlier ∈ past, earlier.now ≤ batch.now
  refills : ∀ call, batch.call scan = some call → call.tenant = tenant → Refills burst (past.filterMap (Batch.call scan)) call

variable {past : List Batch}

theorem Expected.calls (expected : Expected scan tenant burst past batch) (isCall : batch.call scan = some call) :
    ∀ earlier ∈ past.filterMap (Batch.call scan), earlier.now ≤ call.now := by
  intro earlier member
  obtain ⟨before, isBefore, called⟩ := List.mem_filterMap.mp member
  rw [(call_spec tenant called).2.1, (call_spec tenant isCall).2.1]
  exact expected.clock before isBefore

theorem Alone.own [PrintTable] (positive : 0 < burst) (alone : Alone scan tenant burst past reg kept)
    (expected : Expected scan tenant burst past batch) (isMine : isOf tenant batch = true) :
    (admitBatch scan reg batch).1 = (admitWith scan takeKept kept batch).1 ∧
      Alone scan tenant burst (past ++ [batch]) (admitBatch scan reg batch).2 (admitWith scan takeKept kept batch).2 := by
  unfold admitBatch admitWith
  cases isCall : batch.call scan with
  | none => exact ⟨rfl, by simpa [isCall] using alone.similar, alone.others⟩
  | some call =>
    obtain ⟨limit, _, ofTenant⟩ := call_spec tenant isCall
    have isTenant := ofTenant.mp isMine
    obtain ⟨same, similar⟩ := alone.similar.take positive ⟨limit, expected.calls isCall, expected.refills call isCall isTenant⟩
    rw [take_only isTenant] at same similar
    have after : Alone scan tenant burst (past ++ [batch]) (reg.take call).2 (kept.takeKept call).2 := by
      refine ⟨by simpa [isCall] using similar, fun other isOther => ?_⟩
      rw [takeKept_eq]
      split <;> simpa [store, isTenant, isOther] using alone.others other isOther
    dsimp only at same ⊢
    rw [same]
    exact ⟨rfl, after⟩

theorem Alone.others_admitted [PrintTable] (alone : Alone scan tenant burst past reg kept)
    (isOther : isOf tenant batch = false) : Alone scan tenant burst (past ++ [batch]) (admitBatch scan reg batch).2 kept := by
  unfold admitBatch admitWith
  cases isCall : batch.call scan with
  | none => exact ⟨by simpa [isCall] using alone.similar, alone.others⟩
  | some call =>
    have notTenant : call.tenant ≠ tenant := by
      rw [Ne, ← (call_spec tenant isCall).2.2, isOther]
      exact Bool.false_ne_true
    -- to the tenant's bucket, the call is a sweep and not a call
    have swept := alone.similar.swept call
    rw [← only_take notTenant] at swept
    refine ⟨?_, alone.others⟩
    simp only [List.filterMap_append, List.filterMap_cons, isCall, List.filterMap_nil]
    refine ⟨swept.burstSeconds, swept.burstSeconds', swept.absent, fun name bucket isKept => ?_⟩
    have isTenant : name = tenant := by
      by_contra isOther
      rw [alone.others name isOther] at isKept
      cases isKept
    have before := swept.present name bucket isKept
    refine ⟨before.tokens, before.rate, ?_, before.found⟩
    rw [lastCall_concat, if_neg (isTenant ▸ notTenant)]
    exact before.last

end

theorem lastCall_filter (tenant : String) (past : List Call) :
    lastCall tenant (past.filter fun call => call.tenant = tenant) = lastCall tenant past := by
  unfold lastCall
  rw [← List.filter_reverse]
  exact find?_filter_of_imp fun _ _ => id

theorem filterMap_isOf (scan : String → Option Int) (tenant : String) (batches : List Batch) :
    (batches.filter (isOf tenant)).filterMap (Batch.call scan) =
      (batches.filterMap (Batch.call scan)).filter fun call => call.tenant = tenant := by
  rw [List.filterMap_filter, List.filter_filterMap]
  apply List.filterMap_congr
  intro batch _
  cases isCall : batch.call scan with
  | none => simp
  | some call =>
    have ofTenant := (call_spec tenant isCall).2.2
    by_cases isTenant : call.tenant = tenant
    · simp [isTenant, ofTenant.mpr isTenant, Option.filter]
    · simp [isTenant, mt ofTenant.mp isTenant, Option.filter]

variable {scan : String → Option Int} {burst : ℚ} {tenant : String} {batches : List Batch}

/-- The tenant's calls find their bucket full after an idle time. -/
def RefillsOwn (scan : String → Option Int) (burst : ℚ) (tenant : String) (batches : List Batch) : Prop :=
  ∀ before batch after call, batches = before ++ batch :: after → batch.call scan = some call → call.tenant = tenant →
    Refills burst (before.filterMap (Batch.call scan)) call

theorem answers_own [PrintTable] (positive : 0 < burst)
    (clock : batches.Pairwise fun earlier later => earlier.now ≤ later.now) (refills : RefillsOwn scan burst tenant batches) :
    (answers (admitBatch scan) (newRegistry burst) batches).filter (fun answer => isOf tenant answer.1) =
      answers (admitWith scan takeKept) (newRegistry burst) (batches.filter (isOf tenant)) := by
  have start : Alone scan tenant burst [] (newRegistry burst) (newRegistry burst) := by
    refine ⟨?_, fun _ _ => rfl⟩
    have same : only tenant (newRegistry burst) = newRegistry burst := by simp [only, newRegistry]
    rw [same]
    exact similar_new burst
  apply answers_filter_of_simulation (fun _ _ _ _ alone expected => alone.own positive expected)
    (fun _ _ _ _ alone _ => alone.others_admitted) start
  intro before batch after split
  refine ⟨fun earlier member => ?_, fun call isCall isTenant => refills before batch after call split isCall isTenant⟩
  rw [split, List.pairwise_append] at clock
  exact clock.2.2 earlier member batch List.mem_cons_self

theorem RefillsOwn.filter (refills : RefillsOwn scan burst tenant batches) :
    RefillsOwn scan burst tenant (batches.filter (isOf tenant)) := by
  intro before batch after call split isCall isTenant
  obtain ⟨before, rest, rfl, rfl, isRest⟩ := List.filter_eq_append_iff.mp split
  obtain ⟨skipped, after, rfl, noneOwn, _, _⟩ := List.filter_eq_cons_iff.mp isRest
  have allBefore := refills (before ++ skipped) batch after call (by simp) isCall isTenant
  have skips : skipped.filter (isOf tenant) = [] := List.filter_eq_nil_iff.mpr noneOwn
  subst isTenant
  unfold Refills at allBefore ⊢
  rwa [← lastCall_filter, ← filterMap_isOf, List.filter_append, skips, List.append_nil] at allBefore

/-- The batches of a tenant get the answers that they get without those of others. -/
theorem tenant_isolated [PrintTable] (positive : 0 < burst)
    (clock : batches.Pairwise fun earlier later => earlier.now ≤ later.now) (refills : RefillsOwn scan burst tenant batches) :
    (answers (admitBatch scan) (newRegistry burst) batches).filter (fun answer => isOf tenant answer.1) =
      answers (admitBatch scan) (newRegistry burst) (batches.filter (isOf tenant)) := by
  have own := answers_own positive (clock.filter (isOf tenant)) refills.filter
  simp only [List.filter_filter, Bool.and_self] at own
  rw [answers_own positive clock refills, ← own, List.filter_eq_self]
  intro answer member
  exact List.of_mem_filter (fst_mem_of_mem_answers member)

def neighbours : List Batch := [
  ⟨some ⟨"loud", .integer 5⟩, .traces 40, 0⟩, ⟨some ⟨"acme", .integer 10⟩, .logs 20, 0⟩,
  ⟨some ⟨"loud", .integer 5⟩, .metrics 10, 700000000000⟩, ⟨some ⟨"acme", .integer 10⟩, .logs 20, 700000000000⟩]

theorem neighbours_isolated :
    (answers (@admitBatch (fun _ => none) asciiPrintTable) (newRegistry 2) neighbours).filter (fun answer => isOf "acme" answer.1) =
      answers (@admitBatch (fun _ => none) asciiPrintTable) (newRegistry 2) (neighbours.filter (isOf "acme")) := by
  have limits : ∀ call ∈ neighbours.filterMap (Batch.call fun _ => none), call.tenant = "acme" → call.limit = 10 := by decide
  refine @tenant_isolated _ _ _ _ asciiPrintTable (by norm_num) (by decide) ?_
  intro before batch after call split isCall isTenant
  have mem {one : Batch} (member : one ∈ before ++ batch :: after) {c : Call} (isCall : one.call (fun _ => none) = some c) :
      c ∈ neighbours.filterMap (Batch.call fun _ => none) := List.mem_filterMap.mpr ⟨one, split ▸ member, isCall⟩
  have isLimit := limits call (mem (by simp) isCall) isTenant
  apply refills_of_antitone (by norm_num) (by norm_num [seconds, idleTimeout]) (by omega)
  intro earlier member ofTenant
  obtain ⟨one, isBefore, called⟩ := List.mem_filterMap.mp member
  rw [isLimit, limits earlier (mem (List.mem_append_left _ isBefore) called) (ofTenant.trans isTenant)]

end OtelFleet.Verified.QuotaIsolation
