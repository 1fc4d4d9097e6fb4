import OtelFleet.Data.Json
import OtelFleet.Data.Quote

/-! # Store basics: identifiers, audit entries and errors -/

namespace OtelFleet.Store

open Data

structure Uuid where
  bits : BitVec 128
deriving DecidableEq

/-- The text of a UUID: groups of 8, 4, 4, 4 and 12 hex digits. -/
def Uuid.toText (id : Uuid) : String :=
  let digits := hexDigits 32 id.bits.toNat
  String.intercalate "-" <| [(0, 8), (8, 4), (12, 4), (16, 4), (20, 12)].map fun (start, length) =>
    String.ofList ((digits.drop start).take length)

structure AuditEntry where
  actorUserID : Option Uuid
  actorType : String := "user"
  action : String
  entityType : String
  entityID : String
  customerID : Option Uuid := none
  payload : Json

inductive StoreError where
  | notFound
  | conflict
  | emailExists
  | nameExists
  | other (msg : String)

end OtelFleet.Store
