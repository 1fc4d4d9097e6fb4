import OtelFleet.Data.Base64
import OtelFleet.Store.Fleet

/-! # Keys and tokens

Bootstrap tokens enroll agents; agent tokens belong to one agent; management tokens call
the API.  They have the shape `otm_<kind>_<8 hex>_<secret>` and are looked up by their
first three parts.  An ingest key, `otm_<8 hex>_<secret>`, has no kind.
-/

namespace OtelFleet.Tenants

open Store Store.FleetTables

/-- `strings.SplitN(text, "_", n)`. -/
def splitN : Nat → List Char → List (List Char)
  | 0, _ => []
  | 1, text => [text]
  | n + 2, text =>
    match text.dropWhile (· ≠ '_') with
    | [] => [text]
    | _ :: rest => text.takeWhile (· ≠ '_') :: splitN (n + 1) rest

def isLowerHex (c : Char) : Bool := ('0' ≤ c && c ≤ '9') || ('a' ≤ c && c ≤ 'f')

def parseTokenPrefix (kind token : String) : Option String :=
  match splitN 4 token.toList with
  | [vendor, tokenKind, hex, secret] =>
    if vendor = "otm".toList ∧ tokenKind = kind.toList ∧ hex.length = 8 ∧ secret ≠ [] ∧ hex.all isLowerHex then
      some ("otm_" ++ kind ++ "_" ++ String.ofList hex)
    else none
  | _ => none

def parseBootstrapTokenPrefix : String → Option String := parseTokenPrefix "bt"

def parseAgentTokenPrefix : String → Option String := parseTokenPrefix "at"

def parseAPITokenPrefix : String → Option String := parseTokenPrefix "pat"

def parseKeyPrefix (key : String) : Option String :=
  match splitN 3 key.toList with
  | [vendor, hex, secret] =>
    if vendor = "otm".toList ∧ hex.length = 8 ∧ secret ≠ [] ∧ hex.all isLowerHex then some ("otm_" ++ String.ofList hex)
    else none
  | _ => none

/-- `GeneratedKey`; the hash is taken of the secret. -/
structure GeneratedKey where
  secret : String
  keyPrefix : String

def generateKey (stem : String) (buf : Fin 36 → UInt8) : GeneratedKey :=
  let keyPrefix := stem ++ String.ofList (((List.ofFn buf).take 4).flatMap fun b => Data.hexDigits 2 b.toNat)
  { secret := keyPrefix ++ "_" ++ String.ofList (Data.Base64.rawURLEncode ((List.ofFn buf).drop 4))
    keyPrefix := keyPrefix }

def generateAPIKey : (Fin 36 → UInt8) → GeneratedKey := generateKey "otm_"

def generateBootstrapToken : (Fin 36 → UInt8) → GeneratedKey := generateKey "otm_bt_"

def generateAgentToken : (Fin 36 → UInt8) → GeneratedKey := generateKey "otm_at_"

def generateAPIToken : (Fin 36 → UInt8) → GeneratedKey := generateKey "otm_pat_"

def statusText : CustomerStatus → String
  | .active => "active"
  | .suspended => "suspended"
  | .deleted => "deleted"

/-- `TokenUsable`: the error of a token that may not authenticate a new connection
    now.  `formatTime` is RFC 3339. -/
def tokenUsable (formatTime : Int → String) (token : EnrollToken) (now : Int) : Except String Unit :=
  if token.expiresAt ≤ now then .error ("token expired at " ++ formatTime token.expiresAt)
  else if 0 < token.maxUses ∧ token.maxUses ≤ token.usedCount then
    .error ("token exhausted (" ++ toString token.usedCount ++ "/" ++ toString token.maxUses ++ " uses)")
  else if token.customerStatus ≠ .active then .error ("customer is " ++ statusText token.customerStatus)
  else .ok ()

theorem tokenUsable_ok_iff {formatTime : Int → String} {token : EnrollToken} {now : Int} :
    tokenUsable formatTime token now = .ok () ↔ now < token.expiresAt ∧
      (token.maxUses = 0 ∨ token.usedCount < token.maxUses) ∧ token.customerStatus = .active := by
  unfold tokenUsable
  by_cases expired : token.expiresAt ≤ now
  · simp [expired]
  · by_cases exhausted : 0 < token.maxUses ∧ token.maxUses ≤ token.usedCount
    · simp only [if_neg expired, if_pos exhausted, reduceCtorEq, false_iff]
      omega
    · by_cases inactive : token.customerStatus ≠ .active
      · simp [expired, exhausted, inactive]
      · simp only [if_neg expired, if_neg exhausted, if_neg inactive, true_iff]
        exact ⟨by omega, by omega, not_not.mp inactive⟩

end OtelFleet.Tenants
