import OtelFleet.Data.Paging
import OtelFleet.Store.Base

/-! # The audit log

Entries newest first, page by page. -/

namespace OtelFleet.Api

open Data Store

structure AuditRow where
  id : Int
  createdAt : Int
  entry : AuditEntry

/-- The rows that are visible.  The ids are those of an identity column. -/
structure AuditLog where
  rows : List AuditRow
  ids : (rows.map AuditRow.id).Nodup
  positive : ∀ row ∈ rows, 0 < row.id

structure AuditFilter where
  action : Option String := none
  entityType : Option String := none
  customerID : Option Uuid := none
  actorUserID : Option Uuid := none
  start : Option Int := none
  stop : Option Int := none

def AuditFilter.selects (filter : AuditFilter) (row : AuditRow) : Bool :=
  filter.action.all (· = row.entry.action) && filter.entityType.all (· = row.entry.entityType) &&
    filter.customerID.all (some · = row.entry.customerID) && filter.actorUserID.all (some · = row.entry.actorUserID) &&
    filter.start.all (· ≤ row.createdAt) && filter.stop.all (row.createdAt ≤ ·)

def AuditLog.list (log : AuditLog) (filter : AuditFilter) (beforeID : Option Int) (limit : Nat) : List AuditRow :=
  ((log.rows.filter fun row => filter.selects row && beforeID.all (row.id < ·)).insertionSort fun a b => b.id ≤ a.id).take limit

def auditLimit (requested : Option Int) : Nat :=
  let limit := requested.getD 50
  if limit < 1 then 1 else if limit > 200 then 200 else limit.toNat

def listAuditLog (filter : AuditFilter) (requested : Option Int) (log : AuditLog) (beforeID : Option Int) :
    List AuditRow × Option Int :=
  let rows := log.list filter beforeID (auditLimit requested)
  (rows, if rows.length = auditLimit requested then rows.getLast?.map AuditRow.id else none)

end OtelFleet.Api
