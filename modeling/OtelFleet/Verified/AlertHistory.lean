import OtelFleet.Verified.Inhibition

/-! # What was last sent about a pair

A notification counts when one of its channels is enabled, since `SendToChannels` skips
the others.  A pair whose last notification is a firing is recorded as firing, as long as
its own rule has an enabled channel when it recovers.  So after a pass it was seen in breach
in that pass, or the pass did not evaluate it: nothing is sent about a pair that is not
evaluated.
-/

namespace OtelFleet.Alerting

open Data Semantics Store

section

variable {V : Type}

/-! ## The last notification -/

/-- The channels that `SendToChannels` does not skip. -/
def Reaches (channels : List Webhook) : Prop := ∃ channel ∈ channels, channel.enabled = true

instance (channels : List Webhook) : Decidable (Reaches channels) := inferInstanceAs (Decidable (∃ channel ∈ channels, _))

def lastNotified (sent : List (PendingNotify V)) (key : Key) : Option Bool :=
  (sent.reverse.find? fun notify => notify.key = key ∧ Reaches notify.channels).map fun notify => notify.firing

theorem lastNotified_append (earlier later : List (PendingNotify V)) (key : Key) :
    lastNotified (earlier ++ later) key = (lastNotified later key).or (lastNotified earlier key) := by
  simp only [lastNotified, List.reverse_append, List.find?_append]
  cases later.reverse.find? fun notify => notify.key = key ∧ Reaches notify.channels <;> rfl

variable {sent : List (PendingNotify V)}

theorem mem_of_lastNotified {key : Key} {firing : Bool} (last : lastNotified sent key = some firing) :
    ∃ notify ∈ sent, notify.key = key ∧ notify.firing = firing := by
  obtain ⟨notify, found, isFiring⟩ := Option.map_eq_some_iff.mp last
  have isLast : notify.key = key ∧ Reaches notify.channels := by simpa using List.find?_some found
  exact ⟨notify, List.mem_reverse.mp (List.mem_of_find?_eq_some found), isLast.1, isFiring⟩

theorem lastNotified_eq_none {key : Key} (none : ∀ notify ∈ sent, notify.key ≠ key) :
    lastNotified sent key = Option.none := by
  rw [lastNotified, Option.map_eq_none_iff, List.find?_eq_none]
  intro notify mem found
  exact none notify (List.mem_reverse.mp mem) (of_decide_eq_true found).1

/-! ## One pass -/

variable [Zero V] [LT V] [DecidableLT V] {settings : Settings}

theorem lastNotified_of_not_observed (pass : Pass V) (firing : Key → Bool) {key : Key}
    (absent : key ∉ (observed settings pass).map Observation.key) :
    lastNotified (evaluate settings pass firing).sent key = none := by
  apply lastNotified_eq_none
  intro notify sent same
  obtain ⟨seen, mem, _, _, rfl⟩ := (mem_sent _ _ _).mp sent
  exact absent (same ▸ List.mem_map_of_mem mem)

theorem breached_of_lastNotified (pass : Pass V) (before : Key → Bool) {seen : Observation V} {firing : Bool}
    (mem : seen ∈ observed settings pass)
    (last : lastNotified (evaluate settings pass before).sent seen.key = some firing) : seen.breached = firing := by
  obtain ⟨notify, sent, sameKey, isFiring⟩ := mem_of_lastNotified last
  obtain ⟨other, isOther, _, _, rfl⟩ := (mem_sent _ _ _).mp sent
  have sameSeen : other = seen := List.inj_on_of_nodup_map nodup_observed isOther mem sameKey
  rw [← sameSeen]
  exact isFiring

/-- The pass does not see the pair recover from a firing, or the resolve reaches a channel. -/
def Pass.ReachesOn (settings : Settings) (pass : Pass V) (sent : List (PendingNotify V)) (key : Key) : Prop :=
  lastNotified sent key = some true → ∀ seen ∈ observed settings pass, seen.key = key → seen.breached = false →
    Reaches (pass.channels seen.rule)

theorem recorded_evaluate {pass : Pass V} {firing : Key → Bool} {key : Key} (reaches : pass.ReachesOn settings sent key)
    (recorded : lastNotified sent key = some true → firing key = true)
    (last : lastNotified (sent ++ (evaluate settings pass firing).sent) key = some true) :
    (evaluate settings pass firing).firing key = true := by
  rw [lastNotified_append] at last
  by_cases evaluated : key ∈ (observed settings pass).map Observation.key
  · obtain ⟨seen, mem, rfl⟩ := List.mem_map.mp evaluated
    rw [firing_of_observed _ _ _ mem]
    cases now : lastNotified (evaluate settings pass firing).sent seen.key with
    | some isFiring =>
      rw [now] at last
      cases last
      exact breached_of_lastNotified pass firing mem now
    | none =>
      -- nothing was sent: the state is unchanged, or the firing was inhibited
      rw [now] at last
      by_contra cleared
      have before := recorded last
      have reached := reaches last seen mem rfl (Bool.eq_false_of_not_eq_true cleared)
      have taken : pass.channels seen.rule ≠ [] := reached.elim fun _ channel => List.ne_nil_of_mem channel.1
      have goesOut : GoesOut settings pass seen := ⟨taken, fun held => cleared held.1⟩
      have changed : seen.breached ≠ firing seen.key := by rwa [before]
      have isSent : pass.notify seen ∈ (evaluate settings pass firing).sent :=
        (mem_sent _ _ _).mpr ⟨seen, mem, changed, goesOut, rfl⟩
      have found := List.find?_eq_none.mp (Option.map_eq_none_iff.mp now) _ (List.mem_reverse.mpr isSent)
      exact found (decide_eq_true ⟨rfl, reached⟩)
  · rw [lastNotified_of_not_observed pass firing evaluated] at last
    rw [firing_of_not_observed _ _ _ evaluated]
    exact recorded last

/-! ## The pairs that a pass over the tables evaluates -/

def Watched (settings : Settings) (db : AlertTables V) (key : Key) : Prop :=
  ∃ rule ∈ db.rules, rule.enabled = true ∧ rule.id = key.rule ∧
    match key.scope with
    | .customer id =>
      rule.metric ≠ alertMetricPromQL ∧ (∀ pinned ∈ rule.customerID, pinned = id) ∧ ∃ customer ∈ db.customers, customer.id = id
    | .region name => rule.metric = alertMetricPromQL ∧ ∃ regions ∈ settings.regions, name ∈ regions.1

omit [Zero V] [LT V] [DecidableLT V] in
theorem mem_inScope {refs : List CustomerRef} {rule : AlertRule V} {id : Uuid} :
    id ∈ (inScope refs rule).map (fun ref => ref.id) ↔ (∀ pinned ∈ rule.customerID, pinned = id) ∧ ∃ ref ∈ refs, ref.id = id := by
  unfold inScope
  cases rule.customerID with
  | none => simp
  | some pinned =>
    constructor
    · intro mem
      obtain ⟨ref, found, rfl⟩ := List.mem_map.mp mem
      have isRef := Option.mem_toList.mp found
      have same : ref.id = pinned := by simpa using List.find?_some isRef
      exact ⟨fun _ isPinned => by rw [same, Option.mem_some.mp isPinned], ref, List.mem_of_find?_eq_some isRef, rfl⟩
    · rintro ⟨isPinned, ref, isRef, rfl⟩
      obtain ⟨found, isFound⟩ : ∃ found, refs.find? (fun ref => ref.id = pinned) = some found :=
        Option.isSome_iff_exists.mp (List.find?_isSome.mpr ⟨ref, isRef, by simpa using (isPinned pinned rfl).symm⟩)
      have same : found.id = pinned := by simpa using List.find?_some isFound
      refine List.mem_map.mpr ⟨found, Option.mem_toList.mpr isFound, ?_⟩
      rw [same, isPinned pinned rfl]

theorem mem_scopes_observedBy {db : AlertTables V} {values : Values V} {rule : AlertRule V} {scope : Scope} :
    scope ∈ (observedBy settings (tablesPass db values) db.listCustomerRefs rule).map (fun seen => seen.scope) ↔
      match scope with
      | .customer id =>
        rule.metric ≠ alertMetricPromQL ∧ (∀ pinned ∈ rule.customerID, pinned = id) ∧ ∃ customer ∈ db.customers, customer.id = id
      | .region name => rule.metric = alertMetricPromQL ∧ ∃ regions ∈ settings.regions, name ∈ regions.1 := by
  unfold observedBy
  by_cases isPromQL : rule.metric = alertMetricPromQL
  · rw [if_pos isPromQL]
    cases settings.regions with
    | none => cases scope <;> simp [isPromQL]
    | some regions => cases scope <;> simp [isPromQL, tablesPass, Except.toOption, observeRegion]
  · rw [if_neg isPromQL]
    have customers : ∀ id, (∃ customer ∈ db.customers, customer.id = id) ↔ ∃ ref ∈ db.listCustomerRefs, ref.id = id := by
      simp [AlertTables.listCustomerRefs]
    cases scope with
    | customer id =>
      dsimp only
      rw [customers, ← mem_inScope]
      simp [isPromQL, tablesPass, observeCustomer]
    | region name => simp [isPromQL, tablesPass, observeCustomer]

theorem mem_keys_observed {db : AlertTables V} {values : Values V} (noWindow : db.listActiveMaintenanceWindows values.now = [])
    {key : Key} : key ∈ (observed settings (tablesPass db values)).map Observation.key ↔ Watched settings db key := by
  have seen : observed settings (tablesPass db values) =
      db.listEnabledAlertRules.flatMap (observedBy settings (tablesPass db values) db.listCustomerRefs) := by
    simp only [observed, tablesPass, noWindow]
  rw [seen, List.map_flatMap, List.mem_flatMap]
  refine exists_congr fun rule => ?_
  rw [db.mem_listEnabledAlertRules, and_assoc, and_congr_right_iff]
  intro _
  rw [and_congr_right_iff]
  intro _
  rw [← mem_scopes_observedBy, List.mem_map, List.mem_map]
  constructor
  · rintro ⟨seen, mem, rfl⟩
    exact ⟨by rw [← rule_of_mem_observedBy mem]; rfl, seen, mem, rfl⟩
  · rintro ⟨sameRule, seen, mem, sameScope⟩
    refine ⟨seen, mem, ?_⟩
    rw [Observation.key, rule_of_mem_observedBy mem, sameRule, sameScope]

/-! ## Runs -/

/-- When a pass sees the pair recover from a firing, its rule has an enabled channel. -/
def ReachesOn (settings : Settings) (key : Key) (watch : Watch V) : WatchEvent V → Prop
  | .evaluate values => (tablesPass watch.db values).ReachesOn settings watch.sent key
  | .change _ => True

theorem recorded_step {key : Key} (watch : Watch V) (event : WatchEvent V) (next : Watch V)
    (step : Restricted (ReachesOn settings key) (Watch.Step settings) watch event next)
    (recorded : lastNotified watch.sent key = some true → watch.firing key = true) :
    lastNotified next.sent key = some true → next.firing key = true := by
  obtain ⟨reaches, rfl⟩ := step
  cases event with
  | change change =>
    simp only [Watch.perform]
    split <;> exact recorded
  | evaluate values => exact recorded_evaluate reaches recorded

theorem firing_closes_or_unwatched {db : AlertTables V} {events : List (WatchEvent V)} {watch : Watch V} {key : Key}
    (run : Run (Restricted (ReachesOn settings key) (Watch.Step settings)) { db := db } events watch)
    {values : Values V} (reaches : ReachesOn settings key watch (.evaluate values))
    (noWindow : watch.db.listActiveMaintenanceWindows values.now = []) :
    (lastNotified (watch.evaluate settings values).sent key = some true →
      (∃ seen ∈ observed settings (tablesPass watch.db values), seen.key = key ∧ seen.breached = true ∧
        seen.rule ∈ watch.db.rules ∧ seen.rule.enabled = true) ∨ ¬ Watched settings watch.db key) ∧
      (¬ Watched settings watch.db key →
        lastNotified (watch.evaluate settings values).sent key = lastNotified watch.sent key) := by
  have before : lastNotified watch.sent key = some true → watch.firing key = true :=
    run.invariant recorded_step fun last => nomatch last
  have recorded : lastNotified (watch.evaluate settings values).sent key = some true →
      (watch.evaluate settings values).firing key = true := recorded_evaluate reaches before
  constructor
  · intro last
    by_cases watched : Watched settings watch.db key
    · obtain ⟨seen, mem, rfl⟩ := List.mem_map.mp ((mem_keys_observed noWindow).mpr watched)
      have breached : seen.breached = true := (firing_of_observed _ _ _ mem).symm.trans (recorded last)
      obtain ⟨isRule, enabled⟩ := (watch.db.mem_listEnabledAlertRules).mp (mem_ruleList_of_observed mem)
      exact .inl ⟨seen, mem, rfl, breached, isRule, enabled⟩
    · exact .inr watched
  · intro unwatched
    have absent := (mem_keys_observed noWindow).not.mpr unwatched
    rw [Watch.evaluate, lastNotified_append, lastNotified_of_not_observed _ _ absent, Option.none_or]

end

/-! ## A deleted rule -/

def acmeCustomer : Customer := ⟨acme.id, "acme", acme.name, acme.clientID, .active⟩

def warningTables : AlertTables Int where
  rules := [warningErrors]
  customers := [acmeCustomer]
  webhooks := [errorChannel]

def reading (value : Int) : Values Int := ⟨0, fun _ _ => some value, fun _ _ => none⟩

def watchAfter (events : List (WatchEvent Int)) : Watch Int :=
  events.foldl (fun watch event => watch.perform ⟨none, false⟩ event) { db := warningTables }

def warningKey : Key := ⟨warningErrors.id, .customer acme.id⟩

theorem reachesOn_warning {values : Values Int} {watch : Watch Int} (same : watch.db = warningTables) :
    ReachesOn ⟨none, false⟩ warningKey watch (.evaluate values) := by
  intro _ seen mem _ _
  obtain ⟨isRule, _⟩ := (watch.db.mem_listEnabledAlertRules).mp (mem_ruleList_of_observed mem)
  rw [same] at isRule ⊢
  rw [List.mem_singleton.mp isRule]
  exact (by decide : Reaches (channelsFor [errorChannel] warningErrors))

/-- The warning fires, is resolved and fires again: in the last pass it is in breach. -/
theorem firing_warning_in_breach :
    lastNotified (watchAfter [.evaluate (reading 20), .evaluate (reading 5), .evaluate (reading 20)]).sent warningKey = some true ∧
      ((∃ seen ∈ observed ⟨none, false⟩ (tablesPass warningTables (reading 20)), seen.key = warningKey ∧
          seen.breached = true ∧ seen.rule ∈ warningTables.rules ∧ seen.rule.enabled = true) ∨
        ¬ Watched ⟨none, false⟩ warningTables warningKey) := by
  have run : Run (Restricted (ReachesOn ⟨none, false⟩ warningKey) (Watch.Step ⟨none, false⟩)) { db := warningTables }
      [.evaluate (reading 20), .evaluate (reading 5)] (watchAfter [.evaluate (reading 20), .evaluate (reading 5)]) :=
    .step ⟨reachesOn_warning rfl, rfl⟩ (.step ⟨reachesOn_warning rfl, rfl⟩ (.refl _))
  have last : lastNotified (watchAfter [.evaluate (reading 20), .evaluate (reading 5), .evaluate (reading 20)]).sent warningKey =
      some true := by decide
  exact ⟨last, (firing_closes_or_unwatched run (reachesOn_warning rfl) rfl).1 last⟩

def deletedWhileFiring : List (WatchEvent Int) :=
  [.evaluate (reading 20), .change (.deleteRule warningErrors.id), .evaluate (reading 20)]

def mutedWhileFiring : List (WatchEvent Int) :=
  [.evaluate (reading 20), .change (.updateRule warningErrors.id { channelIDs := some [] }), .evaluate (reading 5)]

/-- The warning fires, and is deleted or loses its channels: after the next pass its last
    notification is still the firing, though the rule is gone, or evaluated and out of breach. -/
theorem firing_stays_unresolved :
    (Run (Watch.Step ⟨none, false⟩) { db := warningTables } deletedWhileFiring (watchAfter deletedWhileFiring) ∧
        lastNotified (watchAfter deletedWhileFiring).sent warningKey = some true ∧
        ∀ rule ∈ (watchAfter deletedWhileFiring).db.rules, rule.id ≠ warningErrors.id) ∧
      Run (Watch.Step ⟨none, false⟩) { db := warningTables } mutedWhileFiring (watchAfter mutedWhileFiring) ∧
        lastNotified (watchAfter mutedWhileFiring).sent warningKey = some true ∧
        ∃ seen ∈ observed ⟨none, false⟩ (tablesPass (watchAfter mutedWhileFiring).db (reading 5)), seen.key = warningKey ∧
          seen.rule.enabled = true ∧ seen.breached = false :=
  ⟨⟨.step rfl (.step rfl (.step rfl (.refl _))), by decide, by decide⟩,
    .step rfl (.step rfl (.step rfl (.refl _))), by decide, by decide⟩

end OtelFleet.Alerting
