import Mathlib.Data.List.Basic

/-! # Base64

The standard alphabet with padding.  Three bytes become four digits; the last
group may have one or two bytes, and is then filled up with `=`.
-/

namespace OtelFleet.Data.Base64

/-- The digits are `A`–`Z`, `a`–`z`, `0`–`9`, `+` and `/`. -/
def digit (n : Nat) : Char :=
  if n < 26 then Char.ofNat (n + 65)
  else if n < 52 then Char.ofNat (n + 71)
  else if n < 62 then Char.ofNat (n - 4)
  else if n = 62 then '+' else '/'

def digitValue (c : Char) : Option Nat :=
  if 'A' ≤ c ∧ c ≤ 'Z' then some (c.toNat - 65)
  else if 'a' ≤ c ∧ c ≤ 'z' then some (c.toNat - 71)
  else if '0' ≤ c ∧ c ≤ '9' then some (c.toNat + 4)
  else if c = '+' then some 62
  else if c = '/' then some 63 else none

def byte (high low : Nat) : UInt8 := UInt8.ofNat (high + low)

def encode : List UInt8 → List Char
  | a :: b :: c :: rest =>
    digit (a.toNat / 4) :: digit (a.toNat % 4 * 16 + b.toNat / 16) :: digit (b.toNat % 16 * 4 + c.toNat / 64) ::
      digit (c.toNat % 64) :: encode rest
  | [a, b] =>
    [digit (a.toNat / 4), digit (a.toNat % 4 * 16 + b.toNat / 16), digit (b.toNat % 16 * 4), '=']
  | [a] => [digit (a.toNat / 4), digit (a.toNat % 4 * 16), '=', '=']
  | [] => []

/-- Bits of a padded group that belong to no byte are ignored. -/
def decode : List Char → Option (List UInt8)
  | p :: q :: r :: s :: rest => do
    let first ← digitValue p
    let second ← digitValue q
    if s = '=' ∧ rest = [] then
      if r = '=' then return [byte (first * 4) (second / 16)]
      let third ← digitValue r
      return [byte (first * 4) (second / 16), byte (second % 16 * 16) (third / 4)]
    let third ← digitValue r
    let fourth ← digitValue s
    let bytes ← decode rest
    return byte (first * 4) (second / 16) :: byte (second % 16 * 16) (third / 4) :: byte (third % 4 * 64) fourth :: bytes
  | [] => some []
  | _ => none

variable (bytes : List UInt8)

/-- `RawURLEncoding`: no padding, `-` and `_` for `+` and `/`. -/
def rawURLEncode : List Char :=
  ((encode bytes).filter (· ≠ '=')).map fun c => if c = '+' then '-' else if c = '/' then '_' else c

theorem digitValue_digit : ∀ n < 64, digitValue (digit n) = some n := by decide

theorem digit_ne_padding : ∀ n < 64, digit n ≠ '=' := by decide

theorem byte_eq {b : UInt8} {high low : Nat} (parts : high + low = b.toNat) : byte high low = b := by
  rw [byte, parts, UInt8.ofNat_toNat]

theorem decode_encode : decode (encode bytes) = some bytes := by
  induction bytes using encode.induct with
  | case1 a b c rest ih =>
    have boundA := a.toNat_lt
    have boundB := b.toNat_lt
    have boundC := c.toNat_lt
    have first := digitValue_digit (a.toNat / 4) (by omega)
    have second := digitValue_digit (a.toNat % 4 * 16 + b.toNat / 16) (by omega)
    have third := digitValue_digit (b.toNat % 16 * 4 + c.toNat / 64) (by omega)
    have fourth := digitValue_digit (c.toNat % 64) (by omega)
    have unpadded := digit_ne_padding (c.toNat % 64) (by omega)
    simp only [encode, decode, first, second, third, fourth, unpadded, ih, false_and, if_false,
      Option.bind_eq_bind, Option.bind_some, Option.pure_def]
    rw [@byte_eq a _ _ (by omega), @byte_eq b _ _ (by omega), @byte_eq c _ _ (by omega)]
  | case2 a b =>
    have boundA := a.toNat_lt
    have boundB := b.toNat_lt
    have first := digitValue_digit (a.toNat / 4) (by omega)
    have second := digitValue_digit (a.toNat % 4 * 16 + b.toNat / 16) (by omega)
    have third := digitValue_digit (b.toNat % 16 * 4) (by omega)
    have unpadded := digit_ne_padding (b.toNat % 16 * 4) (by omega)
    simp only [encode, decode, first, second, third, unpadded, and_self, if_true, if_false, Option.bind_eq_bind,
      Option.bind_some, Option.pure_def]
    rw [@byte_eq a _ _ (by omega), @byte_eq b _ _ (by omega)]
  | case3 a =>
    have boundA := a.toNat_lt
    have first := digitValue_digit (a.toNat / 4) (by omega)
    have second := digitValue_digit (a.toNat % 4 * 16) (by omega)
    simp only [encode, decode, first, second, and_self, if_true, Option.bind_eq_bind, Option.bind_some,
      Option.pure_def]
    rw [@byte_eq a _ _ (by omega)]
  | case4 => rfl

theorem encode_shape :
    ∃ (digits : List Nat) (padding : Nat), encode bytes = digits.map digit ++ List.replicate padding '=' ∧
      padding ≤ 2 ∧ (∀ n ∈ digits, n < 64) ∧ (digits.length + padding) % 4 = 0 := by
  induction bytes using encode.induct with
  | case1 a b c rest ih =>
    obtain ⟨digits, padding, shape, atMost, areDigits, length⟩ := ih
    have boundA := a.toNat_lt
    have boundB := b.toNat_lt
    have boundC := c.toNat_lt
    refine ⟨a.toNat / 4 :: (a.toNat % 4 * 16 + b.toNat / 16) :: (b.toNat % 16 * 4 + c.toNat / 64) ::
      c.toNat % 64 :: digits, padding, ?_, atMost, ?_, ?_⟩
    · simp [encode, shape]
    · simp only [List.forall_mem_cons]
      exact ⟨by omega, by omega, by omega, by omega, areDigits⟩
    · simp only [List.length_cons]
      omega
  | case2 a b =>
    have boundA := a.toNat_lt
    have boundB := b.toNat_lt
    refine ⟨[a.toNat / 4, a.toNat % 4 * 16 + b.toNat / 16, b.toNat % 16 * 4], 1, rfl, by omega, ?_, by simp⟩
    simp only [List.forall_mem_cons]
    exact ⟨by omega, by omega, by omega, by simp⟩
  | case3 a =>
    have boundA := a.toNat_lt
    refine ⟨[a.toNat / 4, a.toNat % 4 * 16], 2, rfl, by omega, ?_, by simp⟩
    simp only [List.forall_mem_cons]
    exact ⟨by omega, by omega, by simp⟩
  | case4 => exact ⟨[], 0, rfl, by omega, by simp, rfl⟩

end OtelFleet.Data.Base64
