import OtelFleet.Api.Scope
import OtelFleet.Stats.Usage

/-! # Prices

What `UpdateBillingSettings` and `SetBillingOverride` accept. -/

namespace OtelFleet.Api

open Stats

def checkPrices (pricePerGibMicro pricePerMillionItemsMicro : Option Int) : Except ApiError Unit :=
  if pricePerGibMicro.any (· < 0) then .error (.badRequest "pricePerGibMicro must be >= 0")
  else if pricePerMillionItemsMicro.any (· < 0) then .error (.badRequest "pricePerMillionItemsMicro must be >= 0")
  else .ok ()

def checkBillingSettings (settings : BillingSettings) : Except ApiError Unit := do
  checkPrices (some settings.pricePerGiBMicro) (some settings.pricePerMillionItemsMicro)
  if settings.currency.utf8ByteSize ≠ 3 then throw (.badRequest "currency must be a 3-letter code")

def checkBillingOverride (override : BillingOverride) : Except ApiError Unit :=
  if override.pricePerGiBMicro = none ∧ override.pricePerMillionItemsMicro = none then
    .error (.badRequest "provide at least one price, or DELETE to revert to global pricing")
  else checkPrices override.pricePerGiBMicro override.pricePerMillionItemsMicro

end OtelFleet.Api
