import Mathlib.Data.Int.Log
import Mathlib.Data.Rat.Floor
import Mathlib.Algebra.Order.Field.Power
import Mathlib.Tactic.GCongr
import Mathlib.Tactic.NormNum
import Mathlib.Tactic.Positivity

/-! # Decimal literals and `float64`

The value of a JSON number literal, and the two readings Go offers of it:
`ParseInt` with 64 bits, which wants a plain integer in range, and `ParseFloat`
with 64 bits, which rounds to the nearest `float64` (ties to even) and fails
past the largest one.  Integers below `2 ^ 53` are exact.
-/

namespace OtelFleet.Data

def natOfDigits (digits : List Char) : Nat :=
  digits.foldl (fun value digit => 10 * value + (digit.toNat - '0'.toNat)) 0

variable (text : String)

/-- `strconv.ParseInt(text, 10, 64)`. -/
def parseInt64 : Option Int :=
  let (negative, digits) := match text.toList with
    | '-' :: rest => (true, rest)
    | '+' :: rest => (false, rest)
    | rest => (false, rest)
  let value : Int := if negative then -natOfDigits digits else natOfDigits digits
  if digits ≠ [] ∧ digits.all Char.isDigit ∧ -2 ^ 63 ≤ value ∧ value < 2 ^ 63 then some value else none

def parseExponent : List Char → Option Int
  | [] => some 0
  | e :: rest =>
    let (negative, digits) := match rest with
      | '-' :: rest => (true, rest)
      | '+' :: rest => (false, rest)
      | rest => (false, rest)
    if (e = 'e' ∨ e = 'E') ∧ digits ≠ [] ∧ digits.all Char.isDigit then
      some (if negative then -natOfDigits digits else natOfDigits digits)
    else none

/-- The exact value of a JSON number literal. -/
def parseDecimal : Option ℚ :=
  let (negative, unsigned) := match text.toList with
    | '-' :: rest => (true, rest)
    | rest => (false, rest)
  let (whole, afterWhole) := unsigned.span Char.isDigit
  let (fraction, afterFraction) := match afterWhole with
    | '.' :: rest => rest.span Char.isDigit
    | rest => ([], rest)
  if whole = [] then none
  else (parseExponent afterFraction).map fun exponent =>
    let value : ℚ := natOfDigits (whole ++ fraction) * 10 ^ (exponent - (fraction.length : Int))
    if negative then -value else value

def roundHalfEven (value : ℚ) : Int :=
  let below := ⌊value⌋
  let rest := value - below
  if rest < 1 / 2 then below
  else if 1 / 2 < rest then below + 1
  else if below % 2 = 0 then below else below + 1

/-- Round to 53 significant bits with the exponents of a `float64`, which have no bound above. -/
def nearestFloat64 (value : ℚ) : ℚ :=
  let exponent := max (Int.log 2 |value|) (-1022)
  let unit : ℚ := 2 ^ (exponent - 52)
  roundHalfEven (value / unit) * unit

/-- No result past the largest finite one. -/
def roundFloat64 (value : ℚ) : Option ℚ :=
  let rounded := nearestFloat64 value
  if |rounded| < 2 ^ 1024 then some rounded else none

/-- `strconv.ParseFloat(text, 64)` on a JSON number literal, by its value. -/
def parseFloat64 : Option ℚ :=
  (parseDecimal text).bind roundFloat64

def isNegZero (value : ℚ) : Bool := value = 0 && text.toList.head? = some '-'

theorem le_roundHalfEven {n : Int} {value : ℚ} (le : (n : ℚ) ≤ value) : n ≤ roundHalfEven value := by
  have below : n ≤ ⌊value⌋ := Int.le_floor.mpr le
  unfold roundHalfEven
  dsimp only
  split_ifs <;> omega

theorem natCast_units (n : Nat) {exponent : Int} (small : exponent ≤ 52) : ∃ k : Int, (n : ℚ) = k * 2 ^ (exponent - 52) := by
  refine ⟨n * 2 ^ (52 - exponent).toNat, ?_⟩
  have power : (2 : ℚ) ^ (52 - exponent).toNat = 2 ^ (52 - exponent) := by
    rw [← zpow_natCast, Int.toNat_of_nonneg (by omega)]
  push_cast
  rw [power, mul_assoc, ← zpow_add₀ two_ne_zero, sub_add_sub_cancel, sub_self, zpow_zero, mul_one]

theorem nearestFloat64_natCast {n : Nat} (small : n < 2 ^ 53) : nearestFloat64 n = n := by
  have exponent : max (Int.log 2 |(n : ℚ)|) (-1022) ≤ 52 := by
    rw [Nat.abs_cast, Int.log_natCast]
    have := Nat.log_lt_of_lt_pow' (by decide) small
    omega
  obtain ⟨k, units⟩ := natCast_units n exponent
  have whole : (n : ℚ) / 2 ^ (max (Int.log 2 |(n : ℚ)|) (-1022) - 52) = k := by
    rw [div_eq_iff (by positivity)]
    exact units
  have rounds : roundHalfEven (k : ℚ) = k := by simp [roundHalfEven]
  rw [nearestFloat64, whole, rounds]
  exact units.symm

theorem le_nearestFloat64 {n : Nat} (small : n < 2 ^ 53) {value : ℚ} (le : n ≤ value) : n ≤ nearestFloat64 value := by
  rw [nearestFloat64]
  by_cases exponent : max (Int.log 2 |value|) (-1022) ≤ 52
  · obtain ⟨k, units⟩ := natCast_units n exponent
    have rounded : k ≤ roundHalfEven (value / 2 ^ (max (Int.log 2 |value|) (-1022) - 52)) := by
      apply le_roundHalfEven
      rw [le_div_iff₀ (by positivity), ← units]
      exact le
    rw [units]
    gcongr
  · -- a value of more than 53 bits stays above its power of 2
    have large : max (Int.log 2 |value|) (-1022) = Int.log 2 |value| := by omega
    rw [large] at exponent ⊢
    have nonzero : value ≠ 0 := by
      rintro rfl
      simp at exponent
    have reached : (2 : ℚ) ^ Int.log 2 |value| ≤ value := by
      conv_rhs => rw [← abs_of_nonneg (n.cast_nonneg.trans le)]
      exact_mod_cast Int.zpow_log_le_self one_lt_two (abs_pos.mpr nonzero)
    have power : (2 : ℚ) ^ Int.log 2 |value| = (2 ^ 52 : Int) * 2 ^ (Int.log 2 |value| - 52) := by
      rw [zpow_sub₀ two_ne_zero]
      push_cast
      exact (mul_div_cancel₀ _ (by norm_num)).symm
    have rounded : 2 ^ 52 ≤ roundHalfEven (value / 2 ^ (Int.log 2 |value| - 52)) := by
      apply le_roundHalfEven
      rw [le_div_iff₀ (by positivity), ← power]
      exact reached
    calc
      (n : ℚ) ≤ 2 ^ (53 : Int) := by exact_mod_cast small.le
      _ ≤ 2 ^ Int.log 2 |value| := zpow_le_zpow_right₀ one_le_two (by omega)
      _ = (2 ^ 52 : Int) * 2 ^ (Int.log 2 |value| - 52) := power
      _ ≤ _ := by gcongr

end OtelFleet.Data
