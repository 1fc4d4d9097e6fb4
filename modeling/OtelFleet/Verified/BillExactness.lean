import OtelFleet.Api.Billing
import OtelFleet.Data.Sorting
import Mathlib.Algebra.Order.BigOperators.Group.List

/-! # Bills are exact while they fit

The costs are computed with big integers but kept as `int64`, and so are their sums.
`bill_exact_iff`: the statement is exact if and only if its exact total is below `2 ^ 63`.
-/

namespace OtelFleet.Stats

open Api Data Store

/-! ## Machine integers -/

theorem int64_of_lt {n : Int} (nonneg : 0 ≤ n) (small : n < 2 ^ 63) : int64 n = n :=
  Int.bmod_eq_of_le (by omega) (by omega)

theorem int64_lt (n : Int) : int64 n < 2 ^ 63 := Int.bmod_lt (by decide)

theorem mulDiv_eq {price : Int} (nonneg : 0 ≤ price) (quantity : Int64) {divisor : Int} (pos : 0 < divisor) :
    mulDiv price quantity.toInt divisor = int64 (price * quantity.toNatClampNeg / divisor) := by
  rw [mulDiv, Int64.toNatClampNeg]
  by_cases counted : 0 < quantity.toInt
  · rw [Int.toNat_of_nonneg counted.le]
    split
    case isTrue free =>
      have noPrice : price = 0 := by omega
      simp [noPrice, int64]
    case isFalse => rfl
  · rw [if_pos (by omega), Int.toNat_eq_zero.mpr (by omega)]
    simp [int64]

theorem foldl_int64 (lines : List BillingLine) (start : Int) :
    lines.foldl (fun total line => int64 (total + line.totalMicro)) (int64 start) =
      int64 (start + (lines.map fun line => line.totalMicro).sum) := by
  induction lines generalizing start with
  | nil => simp
  | cons line lines ih =>
    have wraps : int64 (int64 start + line.totalMicro) = int64 (start + line.totalMicro) := Int.bmod_add_bmod
    rw [List.foldl_cons, wraps, ih, List.map_cons, List.sum_cons, add_assoc]

/-! ## Exact bills -/

section

variable (settings : BillingSettings) (overrides : Uuid → Option BillingOverride)

def exactLine (cost : CustomerCost) : BillingLine :=
  let gibPrice := ((overrides cost.customerID).bind fun override => override.pricePerGiBMicro).getD settings.pricePerGiBMicro
  let itemsPrice := ((overrides cost.customerID).bind fun override => override.pricePerMillionItemsMicro).getD
    settings.pricePerMillionItemsMicro
  { billingLine settings overrides cost with
    bytesCostMicro := gibPrice * cost.bytes.toNatClampNeg / 2 ^ 30
    itemsCostMicro := itemsPrice * cost.items.toNatClampNeg / 1000000
    totalMicro := gibPrice * cost.bytes.toNatClampNeg / 2 ^ 30 + itemsPrice * cost.items.toNatClampNeg / 1000000 }

structure Accepted : Prop where
  settings : checkBillingSettings settings = .ok ()
  overrides : ∀ id override, overrides id = some override → checkBillingOverride override = .ok ()

end

variable {settings : BillingSettings} {overrides : Uuid → Option BillingOverride}

theorem checkPrices_nonneg {gib items : Option Int} (passes : checkPrices gib items = .ok ()) {gib' items' : Int}
    (nonneg : 0 ≤ gib') (nonneg' : 0 ≤ items') : 0 ≤ gib.getD gib' ∧ 0 ≤ items.getD items' := by
  unfold checkPrices at passes
  split_ifs at passes with negative negative'
  cases gib <;> cases items <;> simp_all

theorem Accepted.nonneg (accepted : Accepted settings overrides) (id : Uuid) :
    0 ≤ ((overrides id).bind fun override => override.pricePerGiBMicro).getD settings.pricePerGiBMicro ∧
    0 ≤ ((overrides id).bind fun override => override.pricePerMillionItemsMicro).getD settings.pricePerMillionItemsMicro := by
  have global : 0 ≤ settings.pricePerGiBMicro ∧ 0 ≤ settings.pricePerMillionItemsMicro := by
    have passes := accepted.settings
    cases prices : checkPrices (some settings.pricePerGiBMicro) (some settings.pricePerMillionItemsMicro) with
    | error error => simp [checkBillingSettings, prices, bind, Except.bind] at passes
    | ok done => exact checkPrices_nonneg prices le_rfl le_rfl
  cases own : overrides id with
  | none => exact global
  | some override =>
    have passes := accepted.overrides id override own
    unfold checkBillingOverride at passes
    split_ifs at passes
    exact checkPrices_nonneg passes global.1 global.2

theorem Accepted.total_nonneg (accepted : Accepted settings overrides) (cost : CustomerCost) :
    0 ≤ (exactLine settings overrides cost).totalMicro :=
  have prices := accepted.nonneg cost.customerID
  add_nonneg (Int.ediv_nonneg (mul_nonneg prices.1 (by simp)) (by decide))
    (Int.ediv_nonneg (mul_nonneg prices.2 (by simp)) (by decide))

theorem Accepted.line_eq (accepted : Accepted settings overrides) {cost : CustomerCost}
    (small : (exactLine settings overrides cost).totalMicro < 2 ^ 63) :
    billingLine settings overrides cost = exactLine settings overrides cost := by
  have prices := accepted.nonneg cost.customerID
  have bytes := Int.ediv_nonneg (mul_nonneg prices.1 (Int.natCast_nonneg cost.bytes.toNatClampNeg)) (by decide : (0 : Int) ≤ 2 ^ 30)
  have items := Int.ediv_nonneg (mul_nonneg prices.2 (Int.natCast_nonneg cost.items.toNatClampNeg)) (by decide : (0 : Int) ≤ 1000000)
  have gib : (0 : Int) < 2 ^ 30 := by decide
  have million : (0 : Int) < 1000000 := by decide
  -- neither summand exceeds the total
  have fits := int64_of_lt bytes (by simp only [exactLine] at small; omega)
  have fits' := int64_of_lt items (by simp only [exactLine] at small; omega)
  have fitsTotal := int64_of_lt (accepted.total_nonneg cost) small
  simp only [exactLine] at fitsTotal
  simp only [billingLine, exactLine, mulDiv_eq prices.1 cost.bytes gib, mulDiv_eq prices.2 cost.items million, fits, fits', fitsTotal]

/-- For all usages: the costs and totals are exact and the lines in order if and only if
    the exact total fits. -/
theorem bill_exact_iff (accepted : Accepted settings overrides) (month : String) (costs : List CustomerCost) :
    ((computeStatement month costs settings overrides).lines.Perm (costs.map (exactLine settings overrides)) ∧
      (computeStatement month costs settings overrides).totalMicro =
        (costs.map fun cost => (exactLine settings overrides cost).totalMicro).sum ∧
      (computeStatement month costs settings overrides).lines.Pairwise fun a b =>
        a.totalMicro > b.totalMicro ∨ (a.totalMicro = b.totalMicro ∧ a.name ≤ b.name)) ↔
    (costs.map fun cost => (exactLine settings overrides cost).totalMicro).sum < 2 ^ 63 := by
  have wraps := foldl_int64 (costs.map (billingLine settings overrides)) 0
  constructor
  · rintro ⟨-, total, -⟩
    rw [← total]
    exact wraps.trans_lt (int64_lt _)
  · intro small
    have nonneg : ∀ total ∈ costs.map fun cost => (exactLine settings overrides cost).totalMicro, 0 ≤ total :=
      List.forall_mem_map.mpr fun cost _ => accepted.total_nonneg cost
    have exact : costs.map (billingLine settings overrides) = costs.map (exactLine settings overrides) :=
      List.map_congr_left fun cost isCost =>
        accepted.line_eq ((List.single_le_sum nonneg _ (List.mem_map_of_mem isCost)).trans_lt small)
    rw [exact, zero_add, List.map_map] at wraps
    rw [computeStatement, exact]
    refine ⟨List.perm_insertionSort _ _, wraps.trans (int64_of_lt (List.sum_nonneg nonneg) small), ?_⟩
    -- by decreasing total, then by name
    exact List.pairwise_insertionSort
      (byThen (fun line : BillingLine => OrderDual.toDual line.totalMicro) fun a b => a.name ≤ b.name) _

/-! ## Two gibibytes -/

def priced (pricePerGiBMicro : Int) : BillingSettings := ⟨"EUR", pricePerGiBMicro, 0⟩

def twoGiB : CustomerCost := { customerID := ⟨1⟩, name := "acme", items := 0, bytes := 2147483648, days := [] }

theorem priced_accepted {price : Int} (passes : checkBillingSettings (priced price) = .ok ()) :
    Accepted (priced price) fun _ => none where
  settings := passes
  overrides _ _ isOverride := nomatch isOverride

theorem twoGiB_exact : (computeStatement "2026-07" [twoGiB] (priced 500000) fun _ => none).totalMicro = 1000000 :=
  ((bill_exact_iff (priced_accepted (by decide)) "2026-07" [twoGiB]).mpr (by decide)).2.1

/-- At the largest price the bill is negative. -/
theorem twoGiB_wraps : checkBillingSettings (priced (2 ^ 63 - 1)) = .ok () ∧
    (computeStatement "2026-07" [twoGiB] (priced (2 ^ 63 - 1)) fun _ => none).totalMicro = -2 := by
  decide

end OtelFleet.Stats
