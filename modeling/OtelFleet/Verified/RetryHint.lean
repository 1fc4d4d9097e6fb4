import OtelFleet.Verified.QuotaCollection

/-! # When a rejected batch may be offered again

The hint is the time that the deficit needs, rounded down to whole nanoseconds.
-/

namespace OtelFleet.Verified.RetryHint

open Collector.TenantQuota Collector.TenantQuota.Registry QuotaCollection

variable {reg : Registry} {call : Call}

def wait (reg : Registry) (call : Call) : ℚ :=
  (call.n - (refilled (reg.maybeGC call.now) call).tokens) / call.limit * 1000000000

def AdmittedAfter (reg : Registry) (call : Call) (delay : Int) : Prop :=
  ((reg.take call).2.take { call with now := call.now + delay }).1.1 = true

theorem le_refill_iff {bucket : Bucket} {rate capacity need : ℚ} {now : Int} (positive : 0 < bucket.rate) (fits : need ≤ capacity)
    (isLater : 0 < sub now bucket.lastSeen) : need ≤ (bucket.refill rate capacity now).tokens ↔
      (need - bucket.tokens) / bucket.rate * 1000000000 ≤ sub now bucket.lastSeen := by
  have isPositive : 0 < seconds (sub now bucket.lastSeen) := by
    unfold seconds
    positivity
  -- the capacity does not matter for a batch that fits
  have uncapped tokens : (need ≤ if capacity < tokens then capacity else tokens) ↔ need ≤ tokens := by
    split
    · rename_i above
      exact ⟨fun _ => fits.trans above.le, fun _ => fits⟩
    · rfl
  refine (uncapped _).trans ?_
  rw [if_pos isPositive, seconds, div_mul_eq_mul_div (need - _), div_le_iff₀ positive]
  constructor <;> intro <;> linarith

theorem admitted_takeKept (reg : Registry) (call : Call) :
    (reg.takeKept call).1.1 = true ↔ call.n ≤ (refilled reg call).tokens := by
  rw [takeKept_eq]
  split <;> simp [*]

theorem admittedAfter_iff {delay : Int} (limit : 0 < call.limit) (fits : call.n ≤ call.limit * reg.burstSeconds)
    (lacks : ¬ call.n ≤ (refilled (reg.maybeGC call.now) call).tokens) (isLater : 0 < delay) (soon : delay < idleTimeout) :
    AdmittedAfter reg call delay ↔ wait reg call ≤ delay := by
  have elapsed : sub (call.now + delay) call.now = delay := by
    unfold sub
    unfold idleTimeout at soon
    omega
  have after : (reg.take call).2 = (reg.maybeGC call.now).store call.tenant (refilled (reg.maybeGC call.now) call) := by
    rw [Registry.take, takeKept_eq, if_neg lacks]
  rw [AdmittedAfter, after, Registry.take, admitted_takeKept, refilled, burstSeconds_maybeGC]
  rcases maybeGC_cases (store _ call.tenant (refilled (reg.maybeGC call.now) call)) (call.now + delay) call.tenant with
    same | ⟨_, idle⟩
  · have positive : (0 : ℚ) < call.limit := by exact_mod_cast limit
    rw [same.trans (Function.update_self ..)]
    rw [← burstSeconds_maybeGC reg call.now] at fits
    refine (le_refill_iff positive fits (lt_of_lt_of_eq isLater elapsed.symm)).trans ?_
    change wait reg call ≤ sub (call.now + delay) call.now ↔ _
    rw [elapsed]
  · exact absurd (idle _ (Function.update_self ..)) (not_le.mpr (lt_of_eq_of_lt elapsed soon))

/-- A rejected batch that fits is admitted at the hint exactly when the rounding has
    no effect, and at any later time before the bucket counts as idle. -/
theorem admitted_after_hint {hint : Int} (limit : 0 < call.limit) (fits : call.n ≤ call.limit * reg.burstSeconds)
    (rejected : (reg.take call).1 = (false, hint)) (short : hint < 30000000000) :
    (AdmittedAfter reg call hint ↔
      wait reg call ≤ 100000000 ∨ ∃ whole : Int, wait reg call = whole) ∧
    ∀ delay, hint < delay → delay < idleTimeout → AdmittedAfter reg call delay := by
  by_cases enough : call.n ≤ (refilled (reg.maybeGC call.now) call).tokens
  · rw [Registry.take, takeKept_eq, if_pos enough] at rejected
    cases rejected
  rw [Registry.take, takeKept_eq, if_neg enough, Prod.mk.injEq] at rejected
  have isHint : min 30000000000 (max 100000000 ⌊wait reg call⌋) = hint := rejected.2
  constructor
  · rw [admittedAfter_iff limit fits enough (by omega) (by unfold idleTimeout; omega)]
    constructor
    · intro isEnough
      rcases le_or_gt ⌊wait reg call⌋ 100000000 with early | late
      · left
        have isLeast : hint = 100000000 := by omega
        rw [isLeast] at isEnough
        exact_mod_cast isEnough
      · right
        have isFloor : hint = ⌊wait reg call⌋ := by omega
        exact ⟨hint, le_antisymm isEnough (isFloor ▸ Int.floor_le _)⟩
    · rintro (early | ⟨whole, isWhole⟩)
      · exact early.trans (by exact_mod_cast (by omega : (100000000 : Int) ≤ hint))
      · rw [isWhole, Int.floor_intCast] at isHint
        rw [isWhole]
        exact_mod_cast (by omega : whole ≤ hint)
  · intro delay later soon
    rw [admittedAfter_iff limit fits enough (by omega) soon]
    have rounded : ⌊wait reg call⌋ + 1 ≤ delay := by omega
    exact (Int.lt_floor_add_one _).le.trans (by exact_mod_cast rounded)

def emptied (limit : Int) : Registry := ((newRegistry 1).take ⟨"acme", limit, limit, 0⟩).2

theorem admitted_after_quarter : AdmittedAfter (emptied 4) ⟨"acme", 4, 1, 0⟩ 250000001 :=
  (@admitted_after_hint _ _ 250000000 (by decide) (by decide +kernel) (by decide +kernel) (by decide)).2 _ (by decide) (by decide)

/-- A third of a second is rounded down, and is then too short. -/
theorem third_too_short : (1 : ℚ) ≤ (3 : Int) * (emptied 3).burstSeconds ∧
    ((emptied 3).take ⟨"acme", 3, 1, 0⟩).1 = (false, 333333333) ∧ ¬ AdmittedAfter (emptied 3) ⟨"acme", 3, 1, 0⟩ 333333333 := by
  unfold AdmittedAfter
  decide +kernel

end OtelFleet.Verified.RetryHint
