import Mathlib.Tactic.Linarith
import Mathlib.Tactic.Positivity
import OtelFleet.Collector.TenantQuota
import OtelFleet.Semantics.Machine

/-! # Collecting idle buckets

A bucket that was removed is full when its tenant comes back.  That cannot be told
from a bucket that was kept, as long as the kept one would have been full again by
then: the idle time, at the old limit, must be enough for the new capacity.
-/

namespace OtelFleet.Verified.QuotaCollection

open Collector.TenantQuota Collector.TenantQuota.Registry Semantics

section

variable {rate capacity : ℚ} {now : Int}

theorem sub_self (now : Int) : sub now now = 0 := by
  unfold sub
  omega

theorem refill_new : (Bucket.mk capacity capacity rate now).refill rate capacity now = ⟨capacity, capacity, rate, now⟩ := by
  simp [Bucket.refill, sub_self, seconds]

theorem refill_idle {bucket : Bucket} (tokens : 0 ≤ bucket.tokens) (idle : idleTimeout ≤ sub now bucket.lastSeen)
    (enough : capacity ≤ seconds (sub now bucket.lastSeen) * bucket.rate) :
    bucket.refill rate capacity now = ⟨capacity, capacity, rate, now⟩ := by
  have isLong : 0 < seconds (sub now bucket.lastSeen) := by
    unfold seconds
    have cast : (idleTimeout : ℚ) ≤ sub now bucket.lastSeen := by exact_mod_cast idle
    have positive : (0 : ℚ) < idleTimeout := by norm_num [idleTimeout]
    have numerator : (0 : ℚ) < sub now bucket.lastSeen := lt_of_lt_of_le positive cast
    positivity
  simp only [Bucket.refill, if_pos isLong, Bucket.mk.injEq, and_true]
  split
  · rfl
  · rename_i notOver
    linarith

theorem refill_tokens_nonneg {bucket : Bucket} (tokens : 0 ≤ bucket.tokens) (positive : 0 ≤ bucket.rate)
    (isCapacity : 0 ≤ capacity) : 0 ≤ (bucket.refill rate capacity now).tokens := by
  have refilled : 0 ≤ if 0 < seconds (sub now bucket.lastSeen) then
      bucket.tokens + seconds (sub now bucket.lastSeen) * bucket.rate else bucket.tokens := by
    split
    · positivity
    · exact tokens
  exact iteInduction (fun _ => isCapacity) fun _ => refilled

end

/-! ## Two registries -/

def lastCall (tenant : String) (past : List Call) : Option Call := past.reverse.find? fun call => call.tenant = tenant

theorem lastCall_concat (tenant : String) (past : List Call) (call : Call) :
    lastCall tenant (past ++ [call]) = if call.tenant = tenant then some call else lastCall tenant past := by
  unfold lastCall
  rw [List.reverse_append, List.reverse_singleton, List.singleton_append, List.find?_cons]
  split
  · rename_i isTenant
    rw [if_pos (of_decide_eq_true isTenant)]
  · rename_i other
    rw [if_neg (of_decide_eq_false other)]

theorem lastCall_eq_some {tenant : String} {past : List Call} {prev : Call} (isLast : lastCall tenant past = some prev) :
    prev ∈ past ∧ prev.tenant = tenant := by
  exact ⟨List.mem_reverse.mp (List.mem_of_find?_eq_some isLast), by simpa using List.find?_some isLast⟩

/-- After an idle time, what was refilled at the old limit is enough for the new
    capacity. -/
def Refills (burst : ℚ) (past : List Call) (call : Call) : Prop :=
  ∀ prev, lastCall call.tenant past = some prev → idleTimeout ≤ sub call.now prev.now →
    call.limit * burst ≤ seconds (sub call.now prev.now) * prev.limit

/-- A bucket that is kept, and what the registry with the sweep has in its place;
    `seen` are the calls at which it may have been removed. -/
structure Kept (past seen : List Call) (tenant : String) (kept : Bucket) (found : Option Bucket) : Prop where
  tokens : 0 ≤ kept.tokens
  rate : 0 < kept.rate
  last : ∃ prev, lastCall tenant past = some prev ∧ kept.rate = prev.limit ∧ kept.lastSeen = prev.now
  found : found = some kept ∨ (found = none ∧ ∃ call ∈ seen, idleTimeout ≤ sub call.now kept.lastSeen)

/-- The two registries differ in the buckets that were removed. -/
structure Similar (burst : ℚ) (past seen : List Call) (reg kept : Registry) : Prop where
  burstSeconds : reg.burstSeconds = burst
  burstSeconds' : kept.burstSeconds = burst
  absent : ∀ tenant, kept.buckets tenant = none → reg.buckets tenant = none
  present : ∀ tenant bucket, kept.buckets tenant = some bucket → Kept past seen tenant bucket (reg.buckets tenant)

structure Allowed (burst : ℚ) (past : List Call) (call : Call) : Prop where
  limit : 0 < call.limit
  clock : ∀ earlier ∈ past, earlier.now ≤ call.now
  refills : Refills burst past call

section

variable {burst : ℚ} {past seen : List Call} {reg kept : Registry} {call : Call}

theorem maybeGC_cases (reg : Registry) (now : Int) (tenant : String) :
    (reg.maybeGC now).buckets tenant = reg.buckets tenant ∨
      (reg.maybeGC now).buckets tenant = none ∧
        ∀ bucket, reg.buckets tenant = some bucket → idleTimeout ≤ sub now bucket.lastSeen := by
  unfold maybeGC
  split
  · exact Or.inl rfl
  · dsimp only
    cases reg.buckets tenant with
    | none => exact Or.inl rfl
    | some bucket =>
      by_cases used : sub now bucket.lastSeen < idleTimeout
      · left
        simp [used]
      · right
        simp [Int.not_lt.mp used]

@[simp] theorem burstSeconds_maybeGC (reg : Registry) (now : Int) :
    (reg.maybeGC now).burstSeconds = reg.burstSeconds := by
  unfold maybeGC
  split <;> rfl

theorem Similar.swept (similar : Similar burst past past reg kept) (call : Call) :
    Similar burst past (past ++ [call]) (reg.maybeGC call.now) kept where
  burstSeconds := (burstSeconds_maybeGC reg call.now).trans similar.burstSeconds
  burstSeconds' := similar.burstSeconds'
  absent tenant isNone := by
    rcases maybeGC_cases reg call.now tenant with same | ⟨removed, _⟩
    · exact same.trans (similar.absent tenant isNone)
    · exact removed
  present tenant bucket isKept := by
    have before := similar.present tenant bucket isKept
    refine ⟨before.tokens, before.rate, before.last, ?_⟩
    rcases before.found with there | ⟨gone, earlier, mem, idle⟩
    · rcases maybeGC_cases reg call.now tenant with same | ⟨removed, idle⟩
      · exact Or.inl (same.trans there)
      · exact Or.inr ⟨removed, call, List.mem_append_right _ List.mem_cons_self, idle bucket there⟩
    · right
      refine ⟨?_, earlier, List.mem_append_left _ mem, idle⟩
      rcases maybeGC_cases reg call.now tenant with same | ⟨removed, _⟩
      · exact same.trans gone
      · exact removed

def refilled (reg : Registry) (call : Call) : Bucket :=
  ((reg.buckets call.tenant).getD
    ⟨call.limit * reg.burstSeconds, call.limit * reg.burstSeconds, call.limit, call.now⟩).refill
      call.limit (call.limit * reg.burstSeconds) call.now

theorem takeKept_eq (reg : Registry) (call : Call) :
    reg.takeKept call = if call.n ≤ (refilled reg call).tokens then
      ((true, 0), reg.store call.tenant
        { refilled reg call with tokens := (refilled reg call).tokens - call.n })
    else ((false, retryHint (call.n - (refilled reg call).tokens) call.limit),
      reg.store call.tenant (refilled reg call)) := rfl

theorem Similar.refilled_eq (similar : Similar burst past (past ++ [call]) reg kept) (allowed : Allowed burst past call) :
    refilled reg call = refilled kept call := by
  unfold refilled
  rw [similar.burstSeconds, similar.burstSeconds']
  cases isKept : kept.buckets call.tenant with
  | none => rw [similar.absent call.tenant isKept]
  | some bucket =>
    have isBucket := similar.present call.tenant bucket isKept
    rcases isBucket.found with there | ⟨gone, later, mem, idle⟩
    · rw [there]
    · -- The bucket was removed; the kept one has been idle since.
      obtain ⟨prev, isLast, isRate, isSeen⟩ := isBucket.last
      have bounded : later.now ≤ call.now :=
        List.forall_mem_append.mpr ⟨allowed.clock, List.forall_mem_singleton.mpr le_rfl⟩ later mem
      have longIdle : idleTimeout ≤ sub call.now bucket.lastSeen := by
        unfold sub at idle ⊢
        omega
      have enough : call.limit * burst ≤ seconds (sub call.now bucket.lastSeen) * bucket.rate := by
        rw [isRate, isSeen]
        exact allowed.refills prev isLast (isSeen ▸ longIdle)
      rw [gone, Option.getD_none, Option.getD_some, refill_new, refill_idle isBucket.tokens longIdle enough]

theorem refilled_tokens_nonneg (positive : 0 < burst) (similar : Similar burst past seen reg kept)
    (allowed : Allowed burst past call) : 0 ≤ (refilled kept call).tokens := by
  have limit : (0 : ℚ) < call.limit := by exact_mod_cast allowed.limit
  have capacity : 0 ≤ call.limit * burst := by positivity
  unfold refilled
  rw [similar.burstSeconds']
  cases isKept : kept.buckets call.tenant with
  | none => exact refill_tokens_nonneg capacity limit.le capacity
  | some bucket =>
    have isBucket := similar.present call.tenant bucket isKept
    exact refill_tokens_nonneg isBucket.tokens isBucket.rate.le capacity

theorem Similar.stored (similar : Similar burst past (past ++ [call]) reg kept) {bucket : Bucket}
    (tokens : 0 ≤ bucket.tokens) (limit : 0 < call.limit) (rate : bucket.rate = call.limit) (lastSeen : bucket.lastSeen = call.now) :
    Similar burst (past ++ [call]) (past ++ [call]) (reg.store call.tenant bucket) (kept.store call.tenant bucket) where
  burstSeconds := similar.burstSeconds
  burstSeconds' := similar.burstSeconds'
  absent tenant isNone := by
    by_cases same : tenant = call.tenant
    · subst same
      simp [store] at isNone
    · simp only [store, Function.update_of_ne same] at isNone ⊢
      exact similar.absent tenant isNone
  present tenant stored isStored := by
    by_cases same : tenant = call.tenant
    · subst same
      simp only [store, Function.update_self, Option.some.injEq] at isStored ⊢
      subst isStored
      refine ⟨tokens, ?_, ⟨call, ?_, rate, lastSeen⟩, Or.inl rfl⟩
      · rw [rate]
        exact_mod_cast limit
      · rw [lastCall_concat, if_pos rfl]
    · simp only [store, Function.update_of_ne same] at isStored ⊢
      have before := similar.present tenant stored isStored
      refine ⟨before.tokens, before.rate, ?_, before.found⟩
      rw [lastCall_concat, if_neg (Ne.symm same)]
      exact before.last

theorem Similar.take (positive : 0 < burst) (similar : Similar burst past past reg kept)
    (allowed : Allowed burst past call) :
    (reg.take call).1 = (kept.takeKept call).1 ∧
      Similar burst (past ++ [call]) (past ++ [call]) (reg.take call).2 (kept.takeKept call).2 := by
  have swept := similar.swept call
  have same := swept.refilled_eq allowed
  have nonneg := refilled_tokens_nonneg positive swept allowed
  unfold Registry.take
  rw [takeKept_eq, takeKept_eq, same]
  by_cases fits : call.n ≤ (refilled kept call).tokens
  · simp only [if_pos fits]
    exact ⟨trivial, swept.stored (sub_nonneg.mpr fits) allowed.limit rfl rfl⟩
  · simp only [if_neg fits]
    exact ⟨trivial, swept.stored nonneg allowed.limit rfl rfl⟩

end

/-! ## Any sequence of calls -/

variable {burst : ℚ} {calls : List Call}

theorem similar_new (burst : ℚ) : Similar burst [] [] (newRegistry burst) (newRegistry burst) where
  burstSeconds := rfl
  burstSeconds' := rfl
  absent _ _ := rfl
  present _ _ isSome := nomatch isSome

/-- The sweep changes no answer as long as the removed buckets would have been full
    again. -/
theorem collection_unobservable (positive : 0 < burst) (limits : ∀ call ∈ calls, 0 < call.limit)
    (clock : calls.Pairwise fun earlier later => earlier.now ≤ later.now)
    (refills : ∀ before call after, calls = before ++ call :: after → Refills burst before call) :
    outputs Registry.take (newRegistry burst) calls = outputs Registry.takeKept (newRegistry burst) calls := by
  have simulates : ∀ past call reg kept, Similar burst past past reg kept → Allowed burst past call →
      (reg.take call).1 = (kept.takeKept call).1 ∧
        Similar burst (past ++ [call]) (past ++ [call]) (reg.take call).2 (kept.takeKept call).2 :=
    fun _ _ _ _ similar allowed => similar.take positive allowed
  apply outputs_eq_of_simulation simulates (similar_new burst)
  intro before call after split
  constructor
  · exact limits call (by rw [split]; simp)
  · intro earlier mem
    rw [split, List.pairwise_append] at clock
    exact clock.2.2 earlier mem call List.mem_cons_self
  · exact refills before call after split

/-- With limits that never grow and at most ten minutes of burst there is nothing to
    observe. -/
theorem refills_of_antitone (positive : 0 < burst) (short : burst ≤ seconds idleTimeout) {past : List Call} {call : Call}
    (limit : 0 < call.limit) (antitone : ∀ earlier ∈ past, earlier.tenant = call.tenant → call.limit ≤ earlier.limit) :
    Refills burst past call := by
  intro prev isLast idle
  obtain ⟨mem, isTenant⟩ := lastCall_eq_some isLast
  have lower : (call.limit : ℚ) ≤ prev.limit := by exact_mod_cast antitone prev mem isTenant
  have isPositive : (0 : ℚ) < call.limit := by exact_mod_cast limit
  have long : burst ≤ seconds (sub call.now prev.now) := by
    apply le_trans short
    unfold seconds
    gcongr
  calc call.limit * burst ≤ prev.limit * seconds (sub call.now prev.now) := by gcongr; linarith
    _ = seconds (sub call.now prev.now) * prev.limit := mul_comm _ _

def comesBack : List Call := [⟨"acme", 10, 20, 0⟩, ⟨"acme", 10, 20, 600000000000⟩]

theorem comesBack_unobservable : comesBack.length = 2 ∧
    outputs Registry.take (newRegistry 2) comesBack = outputs Registry.takeKept (newRegistry 2) comesBack := by
  have limits : ∀ call ∈ comesBack, call.limit = 10 := by decide
  refine ⟨rfl, collection_unobservable (by norm_num) (by decide) (by decide) ?_⟩
  intro before call after split
  have isCall : call.limit = 10 := limits call (by rw [split]; simp)
  apply refills_of_antitone (by norm_num) (by norm_num [seconds, idleTimeout]) (by omega)
  intro earlier mem _
  rw [isCall, limits earlier (by rw [split]; simp [mem])]

def raised : List Call := [⟨"acme", 1, 1, 0⟩, ⟨"acme", 1000, 1000, 600000000000⟩]

/-- The batch is admitted since the old bucket was removed. -/
theorem raised_limit_observable : (∀ call ∈ raised, 0 < call.limit) ∧
    (raised.Pairwise fun earlier later => earlier.now ≤ later.now) ∧
    (outputs Registry.take (newRegistry 2) raised).map Prod.fst = [true, true] ∧
    (outputs Registry.takeKept (newRegistry 2) raised).map Prod.fst = [true, false] := by
  refine ⟨by decide, by decide, by decide +kernel, by decide +kernel⟩

end OtelFleet.Verified.QuotaCollection
