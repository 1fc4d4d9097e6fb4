import OtelFleet.Alerting.Evaluator
import OtelFleet.Semantics.Run

/-! # Deliveries of alerts to one channel

`SendToChannels` starts one goroutine for each channel.  The goroutine renders its
request once and posts it until the receiver answers with other than a 5xx, or until the
retries are used up; it waits between the attempts.
-/

namespace OtelFleet.Webhooks

open Alerting Semantics Store

/-- The seconds to wait before each retry. -/
def backoff : List Nat := [1, 5, 25]

/-- How one POST ends: with a status, or with a network error, where the receiver may
    have accepted the request all the same. -/
inductive Posted where
  | answered (status : Nat)
  | failed (accepted : Bool)

def Posted.accepted : Posted → Bool
  | .answered status => 200 ≤ status && status < 300
  | .failed accepted => accepted

/-- Where a goroutine is: `attempt` attempts have failed, and it may post again at
    `readyAt`, or it has returned. -/
inductive Delivering where
  | attempting (attempt readyAt : Nat)
  | returned
deriving DecidableEq

/-- The loop of `deliverWithRetry` after an attempt that ended at `now`. -/
def deliverWithRetry (attempt now : Nat) (posted : Posted) : Delivering :=
  match posted with
  | .answered status =>
    if 200 ≤ status ∧ status < 300 then .returned
    -- a verdict of the receiver: retrying will not help
    else if status < 500 then .returned
    else retry
  | .failed _ => retry
where
  retry : Delivering :=
    match backoff[attempt]? with
    | none => .returned
    | some pause => .attempting (attempt + 1) (now + pause)

structure AlertDelivery (V : Type) where
  payload : AlertPayload V
  state : Delivering

/-- The deliveries to one enabled channel in the order they were sent, and which of them
    the receiver accepted, in its order. -/
structure Outbox (V : Type) where
  now : Nat := 0
  deliveries : List (AlertDelivery V) := []
  accepted : List Nat := []

inductive OutboxEvent (V : Type) where
  /-- The evaluator hands over a payload; one that cannot be rendered is given up. -/
  | send (payload : AlertPayload V) (renders : Bool)
  | post (i : Nat) (posted : Posted)
  | cancel (i : Nat)
  | wait (seconds : Nat)

namespace Outbox

variable {V : Type}

def setState (outbox : Outbox V) (i : Nat) (state : Delivering) : Outbox V :=
  { outbox with deliveries := outbox.deliveries.modify i fun delivery => { delivery with state := state } }

def perform (outbox : Outbox V) : OutboxEvent V → Option (Outbox V)
  | .send payload renders =>
    let state := if renders then .attempting 0 outbox.now else .returned
    some { outbox with deliveries := outbox.deliveries ++ [⟨payload, state⟩] }
  | .post i posted =>
    match outbox.deliveries[i]? with
    | some ⟨_, .attempting attempt readyAt⟩ =>
      if readyAt ≤ outbox.now then
        some { outbox.setState i (deliverWithRetry attempt outbox.now posted) with
          accepted := if posted.accepted then outbox.accepted ++ [i] else outbox.accepted }
      else none
    | _ => none
  | .cancel i => some (outbox.setState i .returned)
  | .wait seconds => some { outbox with now := outbox.now + seconds }

def Step (outbox : Outbox V) (event : OutboxEvent V) (next : Outbox V) : Prop := outbox.perform event = some next

end Outbox

/-- The `event_action` of `pagerDutyBody`. -/
def pagerDutyAction {V : Type} (payload : AlertPayload V) : String :=
  if payload.event = alertResolved then "resolve" else "trigger"

/-- Whether the incident is open, after the events that the receiver accepted. -/
def incidentOpen {V : Type} (outbox : Outbox V) : Bool :=
  outbox.accepted.foldl (fun isOpen i =>
    match outbox.deliveries[i]? with
    | some delivery => pagerDutyAction delivery.payload = "trigger"
    | none => isOpen) false

end OtelFleet.Webhooks
