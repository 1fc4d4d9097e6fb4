import Mathlib.Algebra.Order.Field.Rat
import Mathlib.Data.Rat.Floor

/-! # The tenantquota processor's buckets

One token bucket per tenant, created when the tenant is first seen and removed by a
lazy sweep once it has been idle for long enough.  The registry's mutex is held
during a whole call.  Tokens are rational numbers here, times and durations are in
nanoseconds.
-/

namespace OtelFleet.Collector.TenantQuota

def idleTimeout : Int := 600000000000

def gcInterval : Int := 600000000000

/-- The zero `time.Time`, the start of the year 1, in Unix time. -/
def zeroTime : Int := -62135596800000000000

def sub (now earlier : Int) : Int := max (-2 ^ 63) (min (2 ^ 63 - 1) (now - earlier))

def seconds (duration : Int) : ℚ := duration / 1000000000

/-- `capacity` tokens at most, refilled at `rate` tokens per second. -/
structure Bucket where
  tokens : ℚ
  capacity : ℚ
  rate : ℚ
  lastSeen : Int

structure Registry where
  burstSeconds : ℚ
  buckets : String → Option Bucket
  lastGC : Int

def newRegistry (burstSeconds : ℚ) : Registry where
  burstSeconds := burstSeconds
  buckets _ := none
  lastGC := zeroTime

structure Call where
  tenant : String
  limit : Int
  n : Int
  now : Int

/-- The delay for a deficit, between 100 ms and 30 s.  The conversion of a delay beyond `int64`,
    which Go leaves to the implementation, is taken to saturate. -/
def retryHint (deficit rate : ℚ) : Int := min 30000000000 (max 100000000 ⌊deficit / rate * 1000000000⌋)

def Bucket.refill (bucket : Bucket) (rate capacity : ℚ) (now : Int) : Bucket :=
  let dt := seconds (sub now bucket.lastSeen)
  let tokens := if 0 < dt then bucket.tokens + dt * bucket.rate else bucket.tokens
  { tokens := if capacity < tokens then capacity else tokens
    capacity := capacity
    rate := rate
    lastSeen := now }

namespace Registry

variable (reg : Registry)

def maybeGC (now : Int) : Registry :=
  if sub now reg.lastGC < gcInterval then reg
  else
    { reg with
      lastGC := now
      buckets := fun tenant => (reg.buckets tenant).filter fun bucket => sub now bucket.lastSeen < idleTimeout }

def store (tenant : String) (bucket : Bucket) : Registry :=
  { reg with buckets := Function.update reg.buckets tenant (some bucket) }

/-- The call without the sweep: whether it is admitted, and the delay if it is not. -/
def takeKept (call : Call) : (Bool × Int) × Registry :=
  let rate : ℚ := call.limit
  let capacity := rate * reg.burstSeconds
  let bucket := (reg.buckets call.tenant).getD ⟨capacity, capacity, rate, call.now⟩
  let bucket := bucket.refill rate capacity call.now
  let need : ℚ := call.n
  if need ≤ bucket.tokens then
    ((true, 0), reg.store call.tenant { bucket with tokens := bucket.tokens - need })
  else ((false, retryHint (need - bucket.tokens) rate), reg.store call.tenant bucket)

def take (call : Call) : (Bool × Int) × Registry := (reg.maybeGC call.now).takeKept call

end Registry

end OtelFleet.Collector.TenantQuota
