import OtelFleet.Alerting.Evaluator
import OtelFleet.Semantics.Run

/-! # The elected evaluator

Every replica has one alerting service for the life of its process, and an elector that
runs it while the replica holds the advisory lock.  A replica that loses the session of
its lock keeps evaluating until its next ping fails, so two replicas may evaluate for a
while.
-/

namespace OtelFleet.Alerting

open Semantics

inductive Term where
  /-- Not elected: `campaign` has returned or has not got the lock. -/
  | none
  | started
  | running
deriving DecidableEq

structure Replica where
  firing : Key → Bool := fun _ => false
  term : Term := .none

/-- The first pass of a term: the state it found, what it read and what it sent. -/
structure Opening (V : Type) where
  replica : Nat
  before : Key → Bool
  pass : Pass V
  sent : List (PendingNotify V)

structure Election (V : Type) where
  replicas : Nat → Replica := fun _ => {}
  lock : Option Nat := none
  openings : List (Opening V) := []

inductive ElectionEvent (V : Type) where
  /-- `campaign` gets the lock and starts `Run`. -/
  | elected (i : Nat)
  | evaluate (i : Nat) (pass : Pass V)
  /-- The session of the lock ends, and PostgreSQL releases the lock. -/
  | sessionLost (i : Nat)
  /-- `campaign` cancels the work, waits for it and unlocks. -/
  | stepDown (i : Nat)
  | restart (i : Nat)

namespace Election

variable {V : Type} [Zero V] [LT V] [DecidableLT V]

def setReplica (election : Election V) (i : Nat) (replica : Replica) : Election V :=
  { election with replicas := Function.update election.replicas i replica }

def unlock (election : Election V) (i : Nat) : Option Nat := if election.lock = some i then none else election.lock

def perform (settings : Settings) (election : Election V) : ElectionEvent V → Option (Election V)
  | .elected i =>
    if election.lock = none ∧ (election.replicas i).term = .none then
      some { election.setReplica i { election.replicas i with term := .started } with lock := some i }
    else none
  | .evaluate i pass =>
    let replica := election.replicas i
    let evaluated := Alerting.evaluate settings pass replica.firing
    let next := election.setReplica i { firing := evaluated.firing, term := .running }
    match replica.term with
    | .none => none
    | .started =>
      some { next with openings := election.openings ++ [⟨i, replica.firing, pass, evaluated.sent⟩] }
    | .running => some next
  | .sessionLost i => if election.lock = some i then some { election with lock := none } else none
  | .stepDown i =>
    if (election.replicas i).term = .none then none
    else some { election.setReplica i { election.replicas i with term := .none } with lock := election.unlock i }
  | .restart i => some { election.setReplica i {} with lock := election.unlock i }

def Step (settings : Settings) (election : Election V) (event : ElectionEvent V) (next : Election V) : Prop :=
  election.perform settings event = some next

end Election

end OtelFleet.Alerting
