import Mathlib.Data.Fin.Basic
import Mathlib.Data.Fintype.Basic
import Mathlib.Logic.Function.Basic

/-! # Electing a runner

Each replica contends for the advisory lock of a worker over a connection of its own and
runs the worker while it believes to hold the lock.  PostgreSQL frees the lock as soon as
the connection is lost; the replica finds out at its next ping.
-/

namespace OtelFleet.Leader

inductive Phase where
  /-- `Run` waits for its next campaign. -/
  | idle
  /-- `campaign` has a connection of the pool and has not asked for the lock. -/
  | acquired
  /-- `pg_try_advisory_lock` has answered true. -/
  | elected
  /-- The work is started, and its campaign polls. -/
  | working
  /-- The context of the work is cancelled, and its campaign waits for it to return. -/
  | cancelled
  /-- The work has returned, and the lock is still to be released. -/
  | returned
deriving DecidableEq

def Phase.inWork : Phase → Bool
  | .working | .cancelled => true
  | .idle | .acquired | .elected | .returned => false

structure Replica where
  phase : Phase := .idle
  /-- The connection of the campaign is alive. -/
  connected : Bool := false
  stopping : Bool := false

structure Contest (n : Nat) where
  replicas : Fin n → Replica := fun _ => {}
  /-- The replica whose session holds the lock. -/
  lock : Option (Fin n) := none

inductive Event (n : Nat) where
  | acquire (i : Fin n)
  | tryLock (i : Fin n)
  /-- The query for the lock fails, and the campaign ends. -/
  | lockFailed (i : Fin n)
  | start (i : Fin n)
  /-- The ticker of a campaign fires. -/
  | poll (i : Fin n)
  | stop (i : Fin n)
  /-- A campaign sees that the context is cancelled. -/
  | noticeStop (i : Fin n)
  /-- The work returns, on its own or because its context is cancelled. -/
  | workReturns (i : Fin n)
  /-- The deferred calls of a campaign: unlock, and release the connection. -/
  | unlock (i : Fin n)
  | lose (i : Fin n)
  | restart (i : Fin n)

namespace Contest

variable {n : Nat} (contest : Contest n)

def setReplica (i : Fin n) (replica : Replica) : Contest n :=
  { contest with replicas := Function.update contest.replicas i replica }

def endSession (i : Fin n) (replica : Replica) : Contest n :=
  { contest.setReplica i replica with lock := if contest.lock = some i then none else contest.lock }

def perform : Event n → Option (Contest n)
  | .acquire i =>
    let replica := contest.replicas i
    if replica.phase = .idle ∧ replica.stopping = false then
      some (contest.setReplica i { replica with phase := .acquired, connected := true })
    else none
  | .tryLock i =>
    let replica := contest.replicas i
    if replica.phase = .acquired ∧ replica.connected then
      match contest.lock with
      | none => some { contest.setReplica i { replica with phase := .elected } with lock := some i }
      -- another replica leads, and the connection goes back to the pool
      | some _ => some (contest.setReplica i { replica with phase := .idle, connected := false })
    else none
  | .lockFailed i =>
    let replica := contest.replicas i
    if replica.phase = .acquired then
      some (contest.setReplica i { replica with phase := .idle, connected := false })
    else none
  | .start i =>
    let replica := contest.replicas i
    if replica.phase = .elected then some (contest.setReplica i { replica with phase := .working }) else none
  | .poll i =>
    let replica := contest.replicas i
    if replica.phase = .working then
      -- a ping fails on a lost connection and under a cancelled context
      if replica.connected ∧ replica.stopping = false then some contest
      else some (contest.setReplica i { replica with phase := .cancelled })
    else none
  | .stop i => some (contest.setReplica i { contest.replicas i with stopping := true })
  | .noticeStop i =>
    let replica := contest.replicas i
    if replica.phase = .working ∧ replica.stopping then
      some (contest.setReplica i { replica with phase := .cancelled })
    else none
  | .workReturns i =>
    let replica := contest.replicas i
    if replica.phase.inWork then some (contest.setReplica i { replica with phase := .returned }) else none
  | .unlock i =>
    let replica := contest.replicas i
    if replica.phase = .returned then
      some (contest.endSession i { replica with phase := .idle, connected := false })
    else none
  | .lose i =>
    let replica := contest.replicas i
    if replica.connected then some (contest.endSession i { replica with connected := false }) else none
  | .restart i => some (contest.endSession i {})

def Step (event : Event n) (next : Contest n) : Prop := contest.perform event = some next

end Contest

end OtelFleet.Leader
