import OtelFleet.Alerting.Watch
import OtelFleet.Verified.AlertPasses

/-! # Severity inhibition

A firing that a critical rule inhibits is not sent, but its state is recorded.  So it is
not sent later either, when the critical rule has cleared: `inhibition_only_delays` says
exactly when every pair that is in breach and not inhibited has been notified.

The critical scopes of a pass come from the rules that were evaluated in it.  A critical
rule that could not be evaluated stays recorded as firing and inhibits nothing:
`inhibition_holds` says exactly when no lower firing goes out beside one.
-/

namespace OtelFleet.Alerting

open Data Store

section

variable {V : Type} [Zero V] [LT V] [DecidableLT V]

/-! ## Sequences of passes over fixed rules -/

structure Fleet (V : Type) where
  rules : { rules : List (AlertRule V) // (rules.map fun rule => rule.id).Nodup }
  refs : { refs : List CustomerRef // (refs.map fun ref => ref.id).Nodup }
  hooks : List Webhook
  channelled : ∀ rule ∈ rules.1, channelsFor hooks rule ≠ []

def Fleet.pass (fleet : Fleet V) (values : Values V) : Pass V where
  now := values.now
  windows := .ok []
  rules := .ok fleet.rules
  refs := .ok fleet.refs
  hooks := .ok fleet.hooks
  metric rule := .ok (values.metric rule)
  query rule region := .ok (values.query rule region)

variable (settings : Settings) (fleet : Fleet V) (values : ℕ → Values V)

def firingBefore : ℕ → Key → Bool
  | 0 => fun _ => false
  | n + 1 => (evaluate settings (fleet.pass (values n)) (firingBefore n)).firing

def sentIn (n : ℕ) : List (PendingNotify V) :=
  (evaluate settings (fleet.pass (values n)) (firingBefore settings fleet values n)).sent

variable (rule : AlertRule V) (scope : Scope)

def InBreach (n : ℕ) : Prop :=
  ∃ seen ∈ observed settings (fleet.pass (values n)), seen.rule = rule ∧ seen.scope = scope ∧ seen.breached = true

def NotifiedFiring (n : ℕ) : Prop :=
  ∃ notify ∈ sentIn settings fleet values n, notify.key = ⟨rule.id, scope⟩ ∧ notify.firing = true

/-- After every pass, a pair that is in breach and not inhibited was notified as firing
    since it last entered breach. -/
def OnlyDelays : Prop :=
  ∀ n, ∀ rule ∈ fleet.rules.1, ∀ scope, InBreach settings fleet values rule scope n →
    ¬ Inhibited settings (fleet.pass (values n)) rule scope →
    ∃ m ≤ n, Throughout (InBreach settings fleet values rule scope) m n ∧ NotifiedFiring settings fleet values rule scope m

/-- A pair that is in breach and not inhibited was not inhibited when it entered breach. -/
def EntersUninhibited : Prop :=
  ∀ n, ∀ rule ∈ fleet.rules.1, ∀ scope, InBreach settings fleet values rule scope n →
    ¬ Inhibited settings (fleet.pass (values n)) rule scope →
    ∀ m ≤ n, Throughout (InBreach settings fleet values rule scope) m n → Rises (InBreach settings fleet values rule scope) m →
      ¬ Inhibited settings (fleet.pass (values m)) rule scope

variable {settings fleet values rule scope}

/-! ## The state is the breach of the pass before -/

theorem keys_observed (values values' : Values V) :
    (observed settings (fleet.pass values)).map Observation.key = (observed settings (fleet.pass values')).map Observation.key := by
  simp only [observed, Fleet.pass, List.map_flatMap]
  congr 1
  funext rule
  simp only [observedBy]
  split
  · cases settings.regions with
    | none => rfl
    | some regions => simp only [List.map_filterMap]; rfl
  · simp only [List.map_map]
    rfl

theorem rule_mem_of_observed {values : Values V} {seen : Observation V} (mem : seen ∈ observed settings (fleet.pass values)) :
    seen.rule ∈ fleet.rules.1 := by
  obtain ⟨rule, isRule, found⟩ := List.mem_flatMap.mp mem
  rwa [rule_of_mem_observedBy found]

section

variable (isRule : rule ∈ fleet.rules.1)
include isRule

theorem rule_of_key {values : Values V} {seen : Observation V} (mem : seen ∈ observed settings (fleet.pass values))
    (sameKey : seen.key = ⟨rule.id, scope⟩) : seen.rule = rule ∧ seen.scope = scope :=
  ⟨List.inj_on_of_nodup_map fleet.rules.2 (rule_mem_of_observed mem) isRule (congrArg Key.rule sameKey),
    congrArg Key.scope sameKey⟩

theorem firingBefore_succ (n : ℕ) :
    firingBefore settings fleet values (n + 1) ⟨rule.id, scope⟩ = true ↔ InBreach settings fleet values rule scope n := by
  constructor
  · intro recorded
    by_cases evaluated : ⟨rule.id, scope⟩ ∈ (observed settings (fleet.pass (values n))).map Observation.key
    · obtain ⟨seen, mem, sameKey⟩ := List.mem_map.mp evaluated
      rw [← sameKey, firingBefore, firing_of_observed settings _ _ mem] at recorded
      obtain ⟨sameRule, sameScope⟩ := rule_of_key isRule mem sameKey
      exact ⟨seen, mem, sameRule, sameScope, recorded⟩
    · -- a pair that is not evaluated now never was, so it is not recorded
      have never : ∀ k, firingBefore settings fleet values k ⟨rule.id, scope⟩ = false := by
        intro k
        induction k with
        | zero => rfl
        | succ k ih =>
          rw [keys_observed (values n) (values k)] at evaluated
          rw [firingBefore, firing_of_not_observed settings _ _ evaluated]
          exact ih
      rw [never] at recorded
      cases recorded
  · rintro ⟨seen, mem, rfl, rfl, breached⟩
    exact (firing_of_observed settings _ _ mem).trans breached

theorem rises_iff {n : ℕ} (inBreach : InBreach settings fleet values rule scope n) :
    Rises (InBreach settings fleet values rule scope) n ↔ firingBefore settings fleet values n ⟨rule.id, scope⟩ = false := by
  rw [Rises, and_iff_right inBreach]
  cases n with
  | zero => simp [firingBefore]
  | succ n =>
    rw [← Bool.not_eq_true, firingBefore_succ isRule]
    simp

theorem notifiedFiring_iff {n : ℕ} :
    NotifiedFiring settings fleet values rule scope n ↔
      Rises (InBreach settings fleet values rule scope) n ∧ ¬ Inhibited settings (fleet.pass (values n)) rule scope := by
  constructor
  · rintro ⟨notify, sent, sameKey, firing⟩
    obtain ⟨seen, mem, changed, goesOut, rfl⟩ := (mem_sent settings _ _).mp sent
    have breached : seen.breached = true := firing
    obtain ⟨rfl, rfl⟩ := rule_of_key isRule mem sameKey
    have inBreach : InBreach settings fleet values seen.rule seen.scope n := ⟨seen, mem, rfl, rfl, breached⟩
    refine ⟨(rises_iff isRule inBreach).mpr ?_, fun inhibited => goesOut.2 ⟨breached, inhibited⟩⟩
    rw [breached] at changed
    exact Bool.eq_false_iff.mpr changed.symm
  · rintro ⟨rises, free⟩
    have before := (rises_iff isRule rises.1).mp rises
    obtain ⟨seen, mem, rfl, rfl, breached⟩ := rises.1
    refine ⟨_, (mem_sent settings _ _).mpr ⟨seen, mem, ?_, ⟨fleet.channelled _ isRule, fun held => free held.2⟩, rfl⟩, rfl, breached⟩
    rw [breached]
    exact fun same => Bool.false_ne_true (before.symm.trans same.symm)

end

theorem inhibition_only_delays (settings : Settings) (fleet : Fleet V) (values : ℕ → Values V) :
    OnlyDelays settings fleet values ↔ EntersUninhibited settings fleet values := by
  constructor
  · intro delays n rule isRule scope inBreach free m below stretch rises
    obtain ⟨m', below', stretch', notified⟩ := delays n rule isRule scope inBreach free
    obtain ⟨rises', free'⟩ := (notifiedFiring_iff isRule).mp notified
    have same : m = m' := Nat.le_antisymm (stretch'.le_of_rises rises below) (stretch.le_of_rises rises' below')
    rwa [same]
  · intro enters n rule isRule scope inBreach free
    obtain ⟨m, below, stretch, rises⟩ := exists_rises inBreach
    have freeThen := enters n rule isRule scope inBreach free m below stretch rises
    exact ⟨m, below, stretch, (notifiedFiring_iff isRule).mpr ⟨rises, freeThen⟩⟩

end

/-! ## A warning that is never notified -/

section

def errorChannel : Webhook where
  id := ⟨1⟩
  type := webhookTypeGeneric
  name := "on call"
  url := "https://example.com/hook"
  events := []
  enabled := true
  createdBy := none
  createdAt := 0
  updatedAt := 0

def errorRule (id : Uuid) (severity : String) (threshold : Int) : AlertRule Int where
  id := id
  name := "error logs"
  metric := alertMetricErrorLogs
  comparison := alertComparisonAbove
  threshold := threshold
  windowSeconds := 300
  severity := severity
  channelIDs := [errorChannel.id]

def criticalErrors : AlertRule Int := errorRule ⟨2⟩ alertSeverityCritical 50

def warningErrors : AlertRule Int := errorRule ⟨3⟩ alertSeverityWarning 10

def acme : CustomerRef := ⟨⟨4⟩, "ACME Corp", "cust_acme"⟩

def errorFleet : Fleet Int where
  rules := ⟨[criticalErrors, warningErrors], by decide⟩
  refs := ⟨[acme], by decide⟩
  hooks := [errorChannel]
  channelled := by decide

def spike (n : ℕ) : Values Int where
  now := n
  metric _ _ := some (if n = 0 then 100 else 20)
  query _ _ := none

/-- Both rules fire at once, so the warning is held back; when the critical rule has
    cleared, the warning is still in breach and is not sent any more. -/
theorem spike_never_notified : ¬ OnlyDelays ⟨none, true⟩ errorFleet spike := by
  have inBreach : ∀ n, InBreach ⟨none, true⟩ errorFleet spike warningErrors (.customer acme.id) n := by
    intro n
    refine ⟨observeCustomer ((spike n).metric warningErrors) warningErrors acme, ?_, rfl, rfl, ?_⟩
    · exact List.mem_cons_of_mem _ List.mem_cons_self
    · cases n <;> rfl
  intro delays
  have isRule : warningErrors ∈ errorFleet.rules.1 := List.mem_cons_of_mem _ List.mem_cons_self
  obtain ⟨m, below, _, notified⟩ := delays 1 warningErrors isRule _ (inBreach 1) (by decide)
  obtain ⟨rises, free⟩ := (notifiedFiring_iff isRule).mp notified
  cases m with
  | zero => exact free (by decide)
  | succ m => exact rises.2 m rfl (inBreach m)

end

/-! ## Beside a critical rule that is recorded as firing -/

section

variable {V : Type} [Zero V] [LT V] [DecidableLT V]

def Pass.ruleList (pass : Pass V) : List (AlertRule V) :=
  match pass.rules with
  | .ok rules => rules.1
  | .error _ => []

variable (settings : Settings) (pass : Pass V) (firing : Key → Bool)

def WasEvaluated (rule : AlertRule V) (scope : Scope) : Prop :=
  ⟨rule.id, scope⟩ ∈ (observed settings pass).map Observation.key

/-- A rule of lower severity with a channel enters breach in the scope. -/
def LowerEnters (scope : Scope) : Prop :=
  ∃ seen ∈ observed settings pass, seen.scope = scope ∧ seen.rule.severity ≠ alertSeverityCritical ∧
    seen.breached = true ∧ firing seen.key = false ∧ pass.channels seen.rule ≠ []

/-- No firing of a lower severity is sent for a scope in which an enabled critical rule is
    recorded as firing after the pass. -/
def InhibitionHolds : Prop :=
  ∀ notify ∈ (evaluate settings pass firing).sent, notify.firing = true → notify.severity ≠ alertSeverityCritical →
    ∀ rule ∈ pass.ruleList, rule.severity = alertSeverityCritical →
      (evaluate settings pass firing).firing ⟨rule.id, notify.scope⟩ = false

/-- In a scope in which a rule of lower severity enters breach, and no critical rule is
    seen in breach, every critical rule that is recorded as firing was evaluated. -/
def CriticalsEvaluated : Prop :=
  ∀ scope, LowerEnters settings pass firing scope → ¬ CriticalIn settings pass scope →
    ∀ rule ∈ pass.ruleList, rule.severity = alertSeverityCritical → firing ⟨rule.id, scope⟩ = true →
      WasEvaluated settings pass rule scope

variable {settings pass firing}

theorem mem_ruleList_of_observed {seen : Observation V} (mem : seen ∈ observed settings pass) :
    seen.rule ∈ pass.ruleList := by
  unfold observed at mem
  split at mem
  · rename_i rules refs hooks _ isRules _ _
    obtain ⟨rule, isRule, found⟩ := List.mem_flatMap.mp mem
    rwa [Pass.ruleList, isRules, rule_of_mem_observedBy found]
  · cases mem

omit [Zero V] [LT V] [DecidableLT V] in
theorem nodup_ruleList (pass : Pass V) : (pass.ruleList.map fun rule => rule.id).Nodup := by
  unfold Pass.ruleList
  split
  · rename_i rules _
    exact rules.2
  · exact List.nodup_nil

theorem criticalIn_of_firing {rule : AlertRule V} {scope : Scope} (isRule : rule ∈ pass.ruleList)
    (critical : rule.severity = alertSeverityCritical) (evaluated : WasEvaluated settings pass rule scope)
    (recorded : (evaluate settings pass firing).firing ⟨rule.id, scope⟩ = true) : CriticalIn settings pass scope := by
  obtain ⟨seen, mem, sameKey⟩ := List.mem_map.mp evaluated
  have sameRule : seen.rule = rule :=
    List.inj_on_of_nodup_map (nodup_ruleList pass) (mem_ruleList_of_observed mem) isRule (congrArg Key.rule sameKey)
  refine ⟨seen, mem, ?_, by rwa [sameRule], congrArg Key.scope sameKey⟩
  rwa [← sameKey, firing_of_observed settings pass firing mem] at recorded

theorem inhibition_holds (regions : Option { regions : List String // regions.Nodup }) (pass : Pass V) (firing : Key → Bool) :
    InhibitionHolds ⟨regions, true⟩ pass firing ↔ CriticalsEvaluated ⟨regions, true⟩ pass firing := by
  constructor
  · rintro holds _ ⟨seen, mem, rfl, lower, breached, before, channelled⟩ quiet rule isRule critical recorded
    have changed : seen.breached ≠ firing seen.key := by
      rw [breached, before]
      exact Bool.noConfusion
    have goesOut : GoesOut ⟨regions, true⟩ pass seen := ⟨channelled, fun held => quiet held.2.2.2⟩
    have cleared : (evaluate ⟨regions, true⟩ pass firing).firing ⟨rule.id, seen.scope⟩ = false :=
      holds _ ((mem_sent _ _ _).mpr ⟨seen, mem, changed, goesOut, rfl⟩) breached lower rule isRule critical
    -- a pair that was not evaluated would still be recorded
    by_contra missed
    rw [firing_of_not_observed _ _ _ missed, recorded] at cleared
    cases cleared
  · intro evaluated notify sent isFiring lower rule isRule critical
    obtain ⟨seen, mem, changed, goesOut, rfl⟩ := (mem_sent _ _ _).mp sent
    have breached : seen.breached = true := isFiring
    have quiet : ¬ CriticalIn ⟨regions, true⟩ pass seen.scope := fun found => goesOut.2 ⟨breached, rfl, lower, found⟩
    have before : firing seen.key = false := by
      rw [breached] at changed
      exact Bool.eq_false_iff.mpr changed.symm
    have enters : LowerEnters ⟨regions, true⟩ pass firing seen.scope :=
      ⟨seen, mem, rfl, lower, breached, before, goesOut.1⟩
    by_contra stillFiring
    have recorded : (evaluate ⟨regions, true⟩ pass firing).firing ⟨rule.id, seen.scope⟩ = true :=
      Bool.not_eq_false _ ▸ stillFiring
    by_cases wasEvaluated : WasEvaluated ⟨regions, true⟩ pass rule seen.scope
    · exact quiet (criticalIn_of_firing isRule critical wasEvaluated recorded)
    · have firingBefore : firing ⟨rule.id, seen.scope⟩ = true := by
        rwa [firing_of_not_observed _ _ _ wasEvaluated] at recorded
      exact wasEvaluated (evaluated _ enters quiet rule isRule critical firingBefore)

end

def ingestStopped : AlertRule Int where
  id := ⟨5⟩
  name := "ingest stopped"
  metric := alertMetricIngestItems
  comparison := alertComparisonBelow
  threshold := 1
  windowSeconds := 300
  severity := alertSeverityCritical
  channelIDs := [errorChannel.id]

/-- A pass over this rule and the warning; `ingest` and `errors` are the answers of the
    two queries. -/
def ingestPass (now : Int) (ingest errors : Except String (String → Option Int)) : Pass Int where
  now := now
  windows := .ok []
  rules := .ok ⟨[ingestStopped, warningErrors], by decide⟩
  refs := .ok errorFleet.refs
  hooks := .ok errorFleet.hooks
  metric rule := if rule.metric = alertMetricIngestItems then ingest else errors
  query _ _ := .error "no metrics store"

/-- In the first pass ingest has stopped.  In the second the query of ingest fails: the
    critical rule stays recorded as firing, and the warning that enters breach goes out. -/
theorem failed_critical_inhibits_nothing :
    ¬ InhibitionHolds ⟨none, true⟩
        (ingestPass 1 (.error "clickhouse ingest_items: timeout") (.ok fun _ => some 20))
        (evaluate ⟨none, true⟩ (ingestPass 0 (.ok fun _ => none) (.ok fun _ => none)) fun _ => false).firing := by
  intro holds
  have cleared := holds _ List.mem_cons_self rfl (by decide) ingestStopped List.mem_cons_self rfl
  cases cleared

end OtelFleet.Alerting
