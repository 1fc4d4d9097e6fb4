import OtelFleet.Alerting.Evaluator

/-! # What one pass of the evaluator does

A pass is determined by its observations: the rules that were evaluated, for which
scope, and whether they were in breach.  `evaluate_firing` and `evaluate_sent` say what
is recorded and what is sent, given the observations and the state before the pass.
-/

namespace OtelFleet.Alerting

open Data Store

/-! ## Recording a list of observations -/

section

variable {V : Type} {now : Int} {hooks : List Webhook} (seen : List (Observation V)) (progress : Progress V)

theorem foldl_record_firing :
    (seen.foldl (record now hooks) progress).firing =
      levelsAfter Observation.key Observation.breached progress.firing seen := by
  induction seen generalizing progress with
  | nil => rfl
  | cons first seen ih => exact ih _

theorem foldl_record_pending :
    (seen.foldl (record now hooks) progress).pending =
      progress.pending ++
        (edges Observation.key Observation.breached progress.firing seen).map fun seen => seen.notify now hooks := by
  induction seen generalizing progress with
  | nil => exact (List.append_nil _).symm
  | cons first seen ih =>
    rw [List.foldl_cons, ih, edges]
    by_cases same : first.breached = progress.firing first.key <;> simp [record, same]

theorem mem_foldl_record_criticalScopes {scope : Scope} :
    scope ∈ (seen.foldl (record now hooks) progress).criticalScopes ↔
      scope ∈ progress.criticalScopes ∨
        ∃ one ∈ seen, one.breached = true ∧ one.rule.severity = alertSeverityCritical ∧ one.scope = scope := by
  induction seen generalizing progress with
  | nil => simp
  | cons first seen ih =>
    rw [List.foldl_cons, ih]
    by_cases critical : first.breached = true ∧ first.rule.severity = alertSeverityCritical
    · simp only [record, critical, and_self, if_true, List.mem_cons, exists_eq_or_imp, true_and]
      grind
    · simp only [record, critical, if_false, List.mem_cons, exists_eq_or_imp]
      grind

theorem foldl_filterMap_record {α : Type} (sources : List α) (found : α → Option (Observation V)) :
    (sources.filterMap found).foldl (record now hooks) progress =
      sources.foldl (fun progress source =>
        match found source with
        | none => progress
        | some seen => record now hooks progress seen) progress := by
  induction sources generalizing progress with
  | nil => rfl
  | cons source sources ih =>
    rw [List.foldl_cons, ← ih, List.filterMap_cons]
    cases found source <;> rfl

end

variable {V : Type} [Zero V] [LT V] [DecidableLT V] (settings : Settings) (pass : Pass V)

/-! ## Observations -/

def observedBy (refs : List CustomerRef) (rule : AlertRule V) : List (Observation V) :=
  if rule.metric = alertMetricPromQL then
    match settings.regions with
    | none => []
    | some regions => regions.1.filterMap fun region =>
      (pass.query rule region).toOption.map fun res => observeRegion res rule region
  else
    match pass.metric rule with
    | .error _ => []
    | .ok perTenant => (inScope refs rule).map (observeCustomer perTenant rule)

/-- The observations of a pass, in order; none when it ends early. -/
def observed : List (Observation V) :=
  match pass.windows, pass.rules, pass.refs, pass.hooks with
  | .ok [], .ok rules, .ok refs, .ok _ => rules.1.flatMap (observedBy settings pass refs.1)
  | _, _, _, _ => []

def Pass.hookList : List Webhook :=
  match pass.hooks with
  | .ok hooks => hooks
  | .error _ => []

variable (rule : AlertRule V)

def Pass.channels : List Webhook := channelsFor pass.hookList rule

variable (seen : Observation V)

def Pass.notify : PendingNotify V := seen.notify pass.now pass.hookList

variable (scope : Scope)

def CriticalIn : Prop :=
  ∃ seen ∈ observed settings pass, seen.breached = true ∧ seen.rule.severity = alertSeverityCritical ∧ seen.scope = scope

instance : Decidable (CriticalIn settings pass scope) :=
  inferInstanceAs (Decidable (∃ seen ∈ observed settings pass, _))

/-- The firing of the rule is held back because of a critical one in its scope. -/
def Inhibited : Prop :=
  settings.inhibitLowerSeverity = true ∧ rule.severity ≠ alertSeverityCritical ∧ CriticalIn settings pass scope

instance : Decidable (Inhibited settings pass rule scope) :=
  inferInstanceAs (Decidable (_ ∧ _ ∧ _))

/-- The transition to what was seen is handed to `SendToChannels`: the rule has a channel, and
    it is not the firing of an inhibited pair. -/
def GoesOut : Prop :=
  pass.channels seen.rule ≠ [] ∧ ¬ (seen.breached = true ∧ Inhibited settings pass seen.rule seen.scope)

instance : Decidable (GoesOut settings pass seen) :=
  inferInstanceAs (Decidable (_ ∧ _))

/-! ## The loops over the observations -/

variable {settings pass} {hooks : List Webhook} {refs : List CustomerRef}

theorem evalPromQL_eq {rule : AlertRule V} (isPromQL : rule.metric = alertMetricPromQL) (progress : Progress V) :
    evalPromQL settings pass hooks rule progress =
      (observedBy settings pass refs rule).foldl (record pass.now hooks) progress := by
  rw [evalPromQL, observedBy, if_pos isPromQL]
  cases settings.regions with
  | none => rfl
  | some regions =>
    dsimp only
    rw [foldl_filterMap_record]
    congr 1
    funext progress region
    cases pass.query rule region <;> rfl

theorem evalRule_eq (progress : Progress V) :
    (match evalRule settings pass refs hooks rule progress with
      | .error _ => progress
      | .ok progress => progress) =
      (observedBy settings pass refs rule).foldl (record pass.now hooks) progress := by
  by_cases isPromQL : rule.metric = alertMetricPromQL
  · rw [evalRule, if_pos isPromQL]
    exact evalPromQL_eq isPromQL progress
  · rw [evalRule, observedBy, if_neg isPromQL, if_neg isPromQL]
    cases pass.metric rule with
    | error err => rfl
    | ok perTenant => exact List.foldl_map.symm

theorem evalRules_eq (rules : List (AlertRule V)) (progress : Progress V) :
    evalRules settings pass rules refs hooks progress =
      (rules.flatMap (observedBy settings pass refs)).foldl (record pass.now hooks) progress := by
  rw [evalRules, List.foldl_flatMap]
  congr 1
  funext progress rule
  exact evalRule_eq rule progress

/-! ## Every pair is observed at most once -/

variable {seen : Observation V}

theorem rule_of_mem_observedBy {rule : AlertRule V} (mem : seen ∈ observedBy settings pass refs rule) :
    seen.rule = rule := by
  unfold observedBy at mem
  split at mem
  · split at mem
    · cases mem
    · obtain ⟨region, _, found⟩ := List.mem_filterMap.mp mem
      obtain ⟨res, _, rfl⟩ := Option.map_eq_some_iff.mp found
      rfl
  · split at mem
    · cases mem
    · obtain ⟨ref, _, rfl⟩ := List.mem_map.mp mem
      rfl

omit [Zero V] [LT V] [DecidableLT V] in
theorem nodup_inScope (distinct : (refs.map fun ref => ref.id).Nodup) (rule : AlertRule V) :
    ((inScope refs rule).map fun ref => ref.id).Nodup := by
  unfold inScope
  split
  · rename_i id _
    cases refs.find? fun ref => ref.id = id <;> simp
  · exact distinct

theorem nodup_scopes_observedBy (distinct : (refs.map fun ref => ref.id).Nodup) (rule : AlertRule V) :
    ((observedBy settings pass refs rule).map fun seen => seen.scope).Nodup := by
  unfold observedBy
  split
  · cases settings.regions with
    | none => exact List.nodup_nil
    | some regions =>
      rw [List.map_filterMap]
      refine regions.2.filterMap ?_
      intro region region' scope isRegion isRegion'
      simp only [Option.map_map, Option.mem_def, Option.map_eq_some_iff] at isRegion isRegion'
      obtain ⟨_, _, rfl⟩ := isRegion
      obtain ⟨_, _, same⟩ := isRegion'
      cases same
      rfl
  · cases pass.metric rule with
    | error err => exact List.nodup_nil
    | ok perTenant =>
      rw [List.map_map]
      have distinctIds := nodup_inScope distinct rule
      have scopes : ((fun seen => seen.scope) ∘ observeCustomer perTenant rule) = Scope.customer ∘ fun ref => ref.id := rfl
      rw [scopes, ← List.map_map]
      exact distinctIds.map fun id id' same => by cases same; rfl

theorem nodup_observed : ((observed settings pass).map Observation.key).Nodup := by
  unfold observed
  split
  · rename_i rules refs hooks _ _ _ _
    rw [List.map_flatMap]
    -- keys of one rule differ in the scope, keys of two rules in the rule
    refine List.nodup_flatMap.mpr ⟨fun rule _ => ?_, ?_⟩
    · apply List.Nodup.of_map Key.scope
      rw [List.map_map]
      exact nodup_scopes_observedBy refs.2 rule
    · refine (List.pairwise_map.mp rules.2).imp ?_
      intro rule other different key isKey isOther
      obtain ⟨seen, mem, rfl⟩ := List.mem_map.mp isKey
      obtain ⟨seen', mem', same⟩ := List.mem_map.mp isOther
      apply different
      rw [← rule_of_mem_observedBy mem, ← rule_of_mem_observedBy mem']
      exact (congrArg Key.rule same).symm
  · exact List.nodup_nil

/-! ## The pass -/

variable (settings pass) (firing : Key → Bool)

def Pass.progress : Progress V := (observed settings pass).foldl (record pass.now pass.hookList) { firing := firing }

theorem evaluate_eq :
    (evaluate settings pass firing).firing = (pass.progress settings firing).firing ∧
      (evaluate settings pass firing).sent = dispatch settings (pass.progress settings firing) := by
  unfold evaluate Pass.progress observed Pass.hookList
  cases pass.windows with
  | error err => exact ⟨rfl, rfl⟩
  | ok windows =>
    cases windows with
    | cons window windows => exact ⟨rfl, rfl⟩
    | nil =>
      cases pass.rules with
      | error err => exact ⟨rfl, rfl⟩
      | ok rules =>
        obtain ⟨rules, distinct⟩ := rules
        cases rules with
        | nil => cases pass.refs <;> cases pass.hooks <;> exact ⟨rfl, rfl⟩
        | cons rule rules =>
          cases pass.refs with
          | error err => exact ⟨rfl, rfl⟩
          | ok refs =>
            cases pass.hooks with
            | error err => exact ⟨rfl, rfl⟩
            | ok hooks =>
              simp only [List.isEmpty_cons, Bool.false_eq_true, if_false, evalRules_eq, and_self]

theorem evaluate_firing :
    (evaluate settings pass firing).firing =
      levelsAfter Observation.key Observation.breached firing (observed settings pass) := by
  rw [(evaluate_eq settings pass firing).1]
  exact foldl_record_firing _ _

theorem firing_of_observed (mem : seen ∈ observed settings pass) :
    (evaluate settings pass firing).firing seen.key = seen.breached := by
  rw [evaluate_firing]
  exact levelsAfter_of_mem nodup_observed mem

theorem firing_of_not_observed {key : Key} (absent : key ∉ (observed settings pass).map Observation.key) :
    (evaluate settings pass firing).firing key = firing key := by
  rw [evaluate_firing]
  exact levelsAfter_of_not_mem absent

theorem evaluate_sent :
    (evaluate settings pass firing).sent =
      ((observed settings pass).filter fun seen =>
        seen.breached ≠ firing seen.key ∧ GoesOut settings pass seen).map pass.notify := by
  have pending : (pass.progress settings firing).pending =
      ((observed settings pass).filter fun seen => seen.breached ≠ firing seen.key).map pass.notify := by
    rw [Pass.progress, foldl_record_pending, edges_eq_filter nodup_observed]
    rfl
  have critical : ∀ scope, scope ∈ (pass.progress settings firing).criticalScopes ↔ CriticalIn settings pass scope := by
    intro scope
    rw [Pass.progress, mem_foldl_record_criticalScopes]
    exact or_iff_right List.not_mem_nil
  rw [(evaluate_eq settings pass firing).2, dispatch, pending, List.filter_map, List.filter_filter]
  congr 1
  apply List.filter_congr
  intro seen _
  rw [Bool.eq_iff_iff, decide_eq_true_iff, GoesOut, Inhibited]
  simp only [Function.comp_apply, Bool.and_eq_true, Bool.not_eq_true', Bool.and_eq_false_imp, decide_eq_true_iff,
    List.isEmpty_eq_false_iff, List.contains_eq_mem, decide_eq_false_iff_not, critical]
  tauto

theorem mem_sent {notify : PendingNotify V} :
    notify ∈ (evaluate settings pass firing).sent ↔
      ∃ seen ∈ observed settings pass, seen.breached ≠ firing seen.key ∧ GoesOut settings pass seen ∧
        pass.notify seen = notify := by
  rw [evaluate_sent, List.mem_map]
  simp only [List.mem_filter, decide_eq_true_iff, and_assoc]

end OtelFleet.Alerting
