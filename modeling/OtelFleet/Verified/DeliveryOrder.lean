import OtelFleet.Webhooks.Delivery

/-! # The order in which the receiver accepts alerts

Each delivery retries on its own, so a resolve can be accepted while the firing before it
waits for its next attempt.  `resolve_not_overtaken`: this does not happen as long as a
resolve is accepted only after the deliveries of the firings before it have returned.
-/

namespace OtelFleet.Webhooks

open Alerting Semantics

section

variable {V : Type}

def Outbox.eventAt (outbox : Outbox V) (i : Nat) : Option String :=
  outbox.deliveries[i]?.map fun delivery => delivery.payload.event

def Outbox.stateAt (outbox : Outbox V) (i : Nat) : Option Delivering :=
  outbox.deliveries[i]?.map fun delivery => delivery.state

/-- No firing is accepted after a resolve that was sent later. -/
def Outbox.InOrder (outbox : Outbox V) : Prop :=
  outbox.accepted.Pairwise fun first second =>
    ¬ (second < first ∧ outbox.eventAt second = some alertFiring ∧ outbox.eventAt first = some alertResolved)

def Outbox.FiringsReturned (outbox : Outbox V) (j : Nat) : Prop :=
  ∀ i < j, outbox.eventAt i = some alertFiring → outbox.stateAt i = some .returned

instance (outbox : Outbox V) (j : Nat) : Decidable (outbox.FiringsReturned j) :=
  inferInstanceAs (Decidable (∀ i < j, _))

/-- An attempt of a resolve is accepted only when the firings before it have returned. -/
def AcceptedInTurn (outbox : Outbox V) : OutboxEvent V → Prop
  | .post j posted =>
    posted.accepted = true → outbox.eventAt j = some alertResolved → outbox.FiringsReturned j
  | _ => True

instance (outbox : Outbox V) (event : OutboxEvent V) : Decidable (AcceptedInTurn outbox event) :=
  match event with
  | .send _ _ => .isTrue trivial
  | .post _ _ => inferInstanceAs (Decidable (_ → _ → _))
  | .cancel _ => .isTrue trivial
  | .wait _ => .isTrue trivial

@[simp] theorem eventAt_setState (outbox : Outbox V) (i : Nat) (state : Delivering) (j : Nat) :
    (outbox.setState i state).eventAt j = outbox.eventAt j := by
  simp only [Outbox.eventAt, Outbox.setState, List.getElem?_modify]
  cases outbox.deliveries[j]? with
  | none => rfl
  | some delivery => by_cases same : i = j <;> simp [same]

theorem stateAt_setState_of_ne (outbox : Outbox V) {i j : Nat} (state : Delivering) (other : i ≠ j) :
    (outbox.setState i state).stateAt j = outbox.stateAt j := by
  simp only [Outbox.stateAt, Outbox.setState, List.getElem?_modify, other]
  cases outbox.deliveries[j]? <;> rfl

variable {outbox : Outbox V}

theorem stateAt_cancel {j : Nat} (i : Nat) (returned : outbox.stateAt j = some .returned) :
    (outbox.setState i .returned).stateAt j = some .returned := by
  by_cases same : i = j
  · subst same
    obtain ⟨delivery, found, _⟩ := Option.map_eq_some_iff.mp returned
    simp [Outbox.stateAt, Outbox.setState, found]
  · rw [stateAt_setState_of_ne outbox .returned same]
    exact returned

/-! ## The invariant -/

/-- What was accepted was sent, in order, and once a resolve is accepted the firings
    before it have returned. -/
structure Outbox.Orderly (outbox : Outbox V) : Prop where
  sent : ∀ j ∈ outbox.accepted, j < outbox.deliveries.length
  settled : ∀ j ∈ outbox.accepted, outbox.eventAt j = some alertResolved → outbox.FiringsReturned j
  inOrder : outbox.InOrder

theorem Outbox.Orderly.of_states {next : Outbox V} (orderly : outbox.Orderly)
    (sameLength : next.deliveries.length = outbox.deliveries.length) (sameAccepted : next.accepted = outbox.accepted)
    (sameEvents : ∀ i, next.eventAt i = outbox.eventAt i)
    (stays : ∀ i, outbox.stateAt i = some .returned → next.stateAt i = some .returned) : next.Orderly where
  sent := by
    rw [sameLength, sameAccepted]
    exact orderly.sent
  settled j mem resolved i earlier firing := by
    rw [sameAccepted] at mem
    rw [sameEvents] at resolved firing
    exact stays i (orderly.settled j mem resolved i earlier firing)
  inOrder := by
    simp only [Outbox.InOrder, sameAccepted, sameEvents]
    exact orderly.inOrder

theorem orderly_send (delivery : AlertDelivery V) (orderly : outbox.Orderly) :
    { outbox with deliveries := outbox.deliveries ++ [delivery] : Outbox V }.Orderly := by
  -- the deliveries before the new one are as they were, and only those were accepted
  have before : ∀ i < outbox.deliveries.length, (outbox.deliveries ++ [delivery])[i]? = outbox.deliveries[i]? :=
    fun i below => List.getElem?_append_left below
  refine ⟨fun j mem => ?_, fun j mem resolved i earlier firing => ?_, ?_⟩
  · have below := orderly.sent j mem
    simp only [List.length_append]
    omega
  · have below := orderly.sent j mem
    simp only [Outbox.eventAt, Outbox.stateAt, before j below, before i (by omega)] at resolved firing ⊢
    exact orderly.settled j mem resolved i earlier firing
  · refine orderly.inOrder.imp_of_mem ?_
    intro first second isFirst isSecond inOrder
    simp only [Outbox.eventAt, before first (orderly.sent first isFirst), before second (orderly.sent second isSecond)]
    exact inOrder

theorem orderly_post {j : Nat} {state : Delivering} {posted : Posted}
    (attempting : ∃ delivering, outbox.stateAt j = some delivering ∧ delivering ≠ .returned)
    (inTurn : AcceptedInTurn outbox (.post j posted)) (orderly : outbox.Orderly) : { outbox.setState j state with
      accepted := if posted.accepted then outbox.accepted ++ [j] else outbox.accepted : Outbox V }.Orderly := by
  obtain ⟨delivering, found, isRunning⟩ := attempting
  have notReturned : outbox.stateAt j ≠ some .returned := fun returned => isRunning (Option.some.inj (found.symm.trans returned))
  have stays : ∀ i, outbox.stateAt i = some .returned → (outbox.setState j state).stateAt i = some .returned := by
    intro i returned
    have other : j ≠ i := fun same => notReturned (same ▸ returned)
    rwa [stateAt_setState_of_ne outbox state other]
  have kept : (outbox.setState j state).Orderly :=
    orderly.of_states (List.length_modify _ _ _) rfl (eventAt_setState outbox j state) stays
  cases accepted : posted.accepted with
  | false => exact kept
  | true =>
    have isSent : j < outbox.deliveries.length := by
      obtain ⟨delivery, isDelivery, _⟩ := Option.map_eq_some_iff.mp found
      exact (List.getElem?_eq_some_iff.mp isDelivery).1
    refine ⟨Data.forall_mem_append_row kept.sent ?_, Data.forall_mem_append_row kept.settled ?_, ?_⟩
    · simpa [Outbox.setState] using isSent
    · intro resolved firing below isFiring
      have wasResolved : outbox.eventAt j = some alertResolved := (eventAt_setState outbox j state j).symm.trans resolved
      have wasFiring : outbox.eventAt firing = some alertFiring := (eventAt_setState outbox j state firing).symm.trans isFiring
      exact stays firing (inTurn accepted wasResolved firing below wasFiring)
    · refine List.pairwise_append.mpr ⟨kept.inOrder, List.pairwise_singleton _ _, ?_⟩
      rintro first isFirst second isSecond ⟨below, isFiring, isResolved⟩
      cases List.mem_singleton.mp isSecond
      -- the firing `j` is still running, so no later resolve was accepted
      apply notReturned
      have wasResolved : outbox.eventAt first = some alertResolved := (eventAt_setState outbox j state first).symm.trans isResolved
      have wasFiring : outbox.eventAt j = some alertFiring := (eventAt_setState outbox j state j).symm.trans isFiring
      exact orderly.settled first isFirst wasResolved j below wasFiring

theorem orderly_step (outbox : Outbox V) (event : OutboxEvent V) (next : Outbox V)
    (step : Restricted AcceptedInTurn Outbox.Step outbox event next) (orderly : outbox.Orderly) : next.Orderly := by
  obtain ⟨inTurn, performed⟩ := step
  cases event with
  | send payload renders =>
    cases performed
    exact orderly_send _ orderly
  | cancel i =>
    cases performed
    exact orderly.of_states (List.length_modify _ _ _) rfl (eventAt_setState outbox i .returned) fun _ => stateAt_cancel i
  | wait seconds =>
    cases performed
    exact orderly.of_states rfl rfl (fun _ => rfl) fun _ returned => returned
  | post j posted =>
    simp only [Outbox.Step, Outbox.perform] at performed
    split at performed
    · rename_i payload attempt readyAt found
      split at performed
      · cases performed
        refine orderly_post ⟨.attempting attempt readyAt, ?_, nofun⟩ inTurn orderly
        rw [Outbox.stateAt, found]
        rfl
      · cases performed
    · cases performed

theorem resolve_not_overtaken {events : List (OutboxEvent V)} {last : Outbox V}
    (run : Run (Restricted AcceptedInTurn Outbox.Step) {} events last) : last.InOrder := by
  have orderly : last.Orderly :=
    run.invariant orderly_step ⟨fun j mem => (nomatch mem), fun j mem => (nomatch mem), .nil⟩
  exact orderly.inOrder

end

def firingPayload : AlertPayload Int := ⟨alertFiring, 0, []⟩

def resolvedPayload : AlertPayload Int := ⟨alertResolved, 60, []⟩

/-- The firing times out three times, after 10 seconds each; its fourth attempt is due
    after 61 seconds. -/
def timeouts : List (OutboxEvent Int) :=
  [.send firingPayload true, .wait 10, .post 0 (.failed false), .wait 11, .post 0 (.failed false), .wait 15,
    .post 0 (.failed false)]

/-- The resolve of the next pass, a minute after the firing, is accepted at once. -/
def overtaken : List (OutboxEvent Int) :=
  timeouts ++ [.wait 24, .send resolvedPayload true, .post 1 (.answered 202), .wait 2, .post 0 (.answered 202)]

def afterOvertaken : Outbox Int := (performAll Outbox.perform {} overtaken).getD {}

/-- The firing is accepted last, and the incident stays open. -/
theorem resolve_overtaken :
    Run Outbox.Step {} overtaken afterOvertaken ∧ afterOvertaken.accepted = [1, 0] ∧ ¬ afterOvertaken.InOrder ∧
      (∀ i < 2, afterOvertaken.stateAt i = some .returned) ∧ incidentOpen afterOvertaken = true := by
  refine ⟨run_of_performAll rfl, rfl, fun inOrder => ?_, by decide, rfl⟩
  exact (List.pairwise_cons.mp inOrder).1 0 List.mem_cons_self ⟨Nat.zero_lt_one, rfl, rfl⟩

/-- The firing is accepted in its fourth attempt and the resolve after that. -/
def inTurnEvents : List (OutboxEvent Int) :=
  timeouts ++ [.wait 26, .post 0 (.answered 202), .send resolvedPayload true, .post 1 (.answered 202)]

def afterInTurn : Outbox Int :=
  (performAll (fun outbox event => if AcceptedInTurn outbox event then outbox.perform event else none) {} inTurnEvents).getD {}

theorem resolve_in_turn : afterInTurn.accepted = [0, 1] ∧ afterInTurn.InOrder := by
  have run : Run (Restricted AcceptedInTurn Outbox.Step) {} inTurnEvents afterInTurn := restricted_of_performAll rfl
  exact ⟨rfl, resolve_not_overtaken run⟩

end OtelFleet.Webhooks
