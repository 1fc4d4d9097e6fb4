import Mathlib.Data.List.Induction
import OtelFleet.Verified.AlertHistory

/-! # Transitions over many passes

What a service hands to `dispatch` over any sequence of passes, pair by pair, what an
empty query result does to it, and whom the rules for all customers concern.
-/

namespace OtelFleet.Alerting

open Data Store

/-! ## Keys as texts -/

theorem toList_toText (id : Uuid) :
    id.toText.toList.length = 36 ∧ id.toText.toList.head? = some (hexDigit (id.bits.toNat / 16 ^ 31 % 16)) ∧
      (((id.toText.toList.eraseIdx 8).eraseIdx 12).eraseIdx 16).eraseIdx 20 = hexDigits 32 id.bits.toNat := by
  simp only [Uuid.toText, String.toList_intercalate, List.map_cons, String.toList_ofList]
  exact ⟨rfl, rfl, rfl⟩

theorem toText_injective : Function.Injective Uuid.toText := by
  intro id id' same
  have digits := (toList_toText id).2.2
  rw [same, (toList_toText id').2.2] at digits
  have values := congrArg (fun digits => readHex 32 0 (digits ++ [])) digits
  simp only [readHex_hexDigits] at values
  cases id
  congr 1
  apply BitVec.eq_of_toNat_eq
  simp at values
  omega

def Scope.tail : Scope → List Char
  | .customer id => '|' :: id.toText.toList
  | .region name => '|' :: 'p' :: ("romql|".toList ++ name.toList)

theorem not_region (id : Uuid) (tail : List Char) : id.toText.toList ≠ 'p' :: tail := by
  intro same
  have first := (toList_toText id).2.1
  rw [same, List.head?_cons, Option.some.injEq] at first
  have digit : ∀ n < 16, hexDigit n ≠ 'p' := by decide
  exact digit _ (Nat.mod_lt _ (by decide)) first.symm

theorem tail_injective : Function.Injective Scope.tail := by
  intro scope scope' same
  cases scope with
  | customer id =>
    cases scope' with
    | customer id' => rw [toText_injective (String.toList_injective (List.cons.inj same).2)]
    | region name => exact absurd (List.cons.inj same).2 (not_region id _)
  | region name =>
    cases scope' with
    | customer id' => exact absurd (List.cons.inj same).2.symm (not_region id' _)
    | region name' => rw [String.toList_injective (@List.append_cancel_left _ ('|' :: 'p' :: "romql|".toList) _ _ same)]

theorem text_injective : Function.Injective Key.text := by
  have split (key : Key) : key.text.toList = key.rule.toText.toList ++ key.scope.tail := by
    unfold Key.text Scope.tail
    cases key.scope <;> simp
  rintro ⟨rule, scope⟩ ⟨rule', scope'⟩ same
  have texts := congrArg String.toList same
  rw [split, split] at texts
  obtain ⟨rules, tails⟩ := List.append_inj texts ((toList_toText rule).1.trans (toList_toText rule').1.symm)
  exact congrArg₂ Key.mk (toText_injective (String.toList_injective rules)) (tail_injective tails)

variable {V : Type} [Zero V] [LT V] [DecidableLT V]

/-! ## Firing and resolved in turn -/

def handed : (Key → Bool) → List (Settings × Pass V) → List (PendingNotify V)
  | _, [] => []
  | firing, (settings, pass) :: passes =>
    (pass.progress settings firing).pending ++ handed (evaluate settings pass firing).firing passes

/-- The transitions of one pair: `true` is firing, `false` is resolved. -/
def transitionsOf (key : Key) (notifies : List (PendingNotify V)) : List Bool :=
  (notifies.filter fun notify => notify.key = key).map PendingNotify.firing

theorem transitions_pass (settings : Settings) (pass : Pass V) (firing : Key → Bool) (key : Key) {rest : List Bool}
    (later : ((evaluate settings pass firing).firing key :: rest).IsChain (· ≠ ·)) :
    (firing key :: (transitionsOf key (pass.progress settings firing).pending ++ rest)).IsChain (· ≠ ·) := by
  rw [evaluate_firing] at later
  have chain := isChain_edges key later
  rw [Pass.progress, foldl_record_pending, List.nil_append, transitionsOf, List.filter_map, List.map_map]
  exact chain

theorem transitions_handed (passes : List (Settings × Pass V)) (firing : Key → Bool) (key : Key) :
    (firing key :: transitionsOf key (handed firing passes)).IsChain (· ≠ ·) := by
  induction passes generalizing firing with
  | nil => exact List.IsChain.singleton _
  | cons pass passes ih =>
    rw [handed, transitionsOf, List.filter_append, List.map_append]
    exact transitions_pass pass.1 pass.2 firing key (ih _)

/-- From the start of a service every pair fires and is resolved in turn, and no two pairs
    share an entry of the map. -/
theorem transitions_alternate (passes : List (Settings × Pass V)) :
    (∀ key, (false :: transitionsOf key (handed (fun _ => false) passes)).IsChain (· ≠ ·)) ∧ Function.Injective Key.text :=
  ⟨transitions_handed passes _, text_injective⟩

/-! ## Empty results -/

section

variable (settings : Settings) (hooks : List Webhook) (rule : AlertRule V)

/-- The queries of a pass without the empty results; a region without a result is
    passed over. -/
def Pass.withoutEmpty (pass : Pass V) : Pass V :=
  { pass with query := fun rule region =>
      match pass.query rule region with
      | .ok none => .error "no data"
      | res => res }

def queried (passes : List (Pass V)) : Progress V :=
  passes.foldl (fun progress pass => evalPromQL settings pass hooks rule progress) { firing := fun _ => false }

/-- No result of the pass is empty in a region where the rule is firing. -/
def SilentWhenEmpty (pass : Pass V) (firing : Key → Bool) : Prop :=
  ∀ regions, settings.regions = some regions → ∀ region ∈ regions.1, pass.query rule region = .ok none →
    firing ⟨rule.id, .region region⟩ = false

variable {settings hooks rule}

omit [Zero V] [LT V] [DecidableLT V] in
theorem record_silent {now : Int} {progress : Progress V} {seen : Observation V} (breached : seen.breached = false)
    (level : progress.firing seen.key = false) : record now hooks progress seen = progress := by
  have same : Function.update progress.firing seen.key false = progress.firing := Function.update_eq_self_iff.mpr level.symm
  simp [record, breached, level, same]

theorem evalPromQL_withoutEmpty {pass : Pass V} {progress : Progress V} (silent : SilentWhenEmpty settings rule pass progress.firing) :
    evalPromQL settings pass.withoutEmpty hooks rule progress = evalPromQL settings pass hooks rule progress := by
  unfold evalPromQL
  cases isRegions : settings.regions with
  | none => rfl
  | some regions =>
    obtain ⟨regions, distinct⟩ := regions
    have quiet : ∀ region ∈ regions, pass.query rule region = .ok none → progress.firing ⟨rule.id, .region region⟩ = false :=
      silent _ isRegions
    clear silent isRegions
    dsimp only [Pass.withoutEmpty]
    induction regions generalizing progress with
    | nil => rfl
    | cons region regions ih =>
      obtain ⟨isNew, distinct⟩ := List.nodup_cons.mp distinct
      obtain ⟨here, later⟩ := List.forall_mem_cons.mp quiet
      simp only [List.foldl_cons]
      cases res : pass.query rule region with
      | error err => exact ih distinct later
      | ok value =>
        cases value with
        | none =>
          have same : record pass.now hooks progress (observeRegion none rule region) = progress :=
            record_silent rfl (here res)
          dsimp only
          rw [same]
          exact ih distinct later
        | some value =>
          apply ih distinct
          intro other mem isEmpty
          -- the entry of another region is another one
          have different : Key.mk rule.id (.region other) ≠ ⟨rule.id, .region region⟩ := by
            rintro ⟨⟩
            exact isNew mem
          exact (Function.update_of_ne different _ _).trans (later other mem isEmpty)

/-- As long as no result is empty while the rule is firing, the empty results could as
    well be left out. -/
theorem queried_withoutEmpty (passes : List (Pass V))
    (silent : ∀ before pass, before ++ [pass] <+: passes → SilentWhenEmpty settings rule pass (queried settings hooks rule before).firing) :
    queried settings hooks rule (passes.map Pass.withoutEmpty) = queried settings hooks rule passes := by
  induction passes using List.reverseRecOn with
  | nil => rfl
  | append_singleton passes pass ih =>
    have before := ih fun earlier pass isEarlier => silent earlier pass (isEarlier.trans (List.prefix_append _ _))
    have step passes pass : queried settings hooks rule (passes ++ [pass]) =
        evalPromQL settings pass hooks rule (queried settings hooks rule passes) := List.foldl_append
    rw [List.map_append, List.map_singleton, step, step, before]
    exact evalPromQL_withoutEmpty (silent passes pass List.prefix_rfl)

end

def errorRate : AlertRule Int := { errorRule ⟨5⟩ alertSeverityWarning 1 with metric := alertMetricPromQL }

def oneRegion : Settings := ⟨some ⟨["eu"], by decide⟩, false⟩

def answered (res : Option Int) : Pass Int :=
  tablesPass { rules := [errorRate] } ⟨0, fun _ _ => none, fun _ _ => res⟩

def recovered : List (Pass Int) := [some 5, some 0, none, some 5].map answered

/-- The alert fires, is resolved, has no data for one pass and fires again. -/
theorem queried_empty_between :
    (queried oneRegion [] errorRate recovered).pending.map PendingNotify.firing = [true, false, true] ∧
    queried oneRegion [] errorRate (recovered.map Pass.withoutEmpty) = queried oneRegion [] errorRate recovered := by
  refine ⟨by decide, queried_withoutEmpty _ fun before pass isBefore regions isRegions region mem isEmpty => ?_⟩
  cases isRegions
  cases List.mem_singleton.mp mem
  obtain ⟨rest, whole⟩ := isBefore
  -- only the third result is empty
  rcases before with _ | ⟨_, _ | ⟨_, _ | ⟨_, _ | ⟨_, _⟩⟩⟩⟩ <;>
    simp only [recovered, List.map_cons, List.map_nil, List.cons_append, List.nil_append, List.append_assoc,
      List.cons.injEq, List.append_eq_nil_iff, reduceCtorEq, and_false] at whole
  · cases whole.1 ▸ isEmpty
  · cases whole.2.1 ▸ isEmpty
  · obtain ⟨rfl, rfl, _⟩ := whole
    decide
  · cases whole.2.2.2.1 ▸ isEmpty

/-- No data resolves the alert, which fires again afterwards. -/
theorem empty_result_flaps :
    (queried oneRegion [] errorRate ([some 5, none, some 5].map answered)).pending.map PendingNotify.firing = [true, false, true] ∧
    (queried oneRegion [] errorRate (([some 5, none, some 5].map answered).map Pass.withoutEmpty)).pending.map PendingNotify.firing =
      [true] := by
  decide

/-! ## Rules for all customers -/

section

variable (settings : Settings) (db : AlertTables V) (values : Values V) (firing : Key → Bool) (rule : AlertRule V)

/-- The pass fires for active customers only, and resolves for the others. -/
structure ConcernsActive : Prop where
  fired : ∀ notify ∈ (evaluate settings (tablesPass db values) firing).sent, notify.firing = true →
    ∀ id, notify.key = ⟨rule.id, .customer id⟩ → ∃ customer ∈ db.customers, customer.id = id ∧ customer.status = .active
  resolved : ∀ customer ∈ db.customers, customer.status ≠ .active → firing ⟨rule.id, .customer customer.id⟩ = true →
    ∃ notify ∈ (evaluate settings (tablesPass db values) firing).sent,
      notify.key = ⟨rule.id, .customer customer.id⟩ ∧ notify.firing = false

def seenOf (customer : Customer) : Observation V :=
  observeCustomer (values.metric rule) rule ⟨customer.id, customer.name, customer.clientID⟩

/-- The pass is not in a maintenance window and hands what it sends to `SendToChannels`. -/
def Heard : Prop := db.listActiveMaintenanceWindows values.now = [] ∧ (tablesPass db values).channels rule ≠ []

instance : Decidable (Heard db values rule) := inferInstanceAs (Decidable (_ ∧ _))

variable {settings db values rule} (isRule : rule ∈ db.listEnabledAlertRules) (unpinned : rule.customerID = none)
  (onCustomers : rule.metric ≠ alertMetricPromQL)

include isRule unpinned onCustomers

theorem seenOf_mem (noWindow : db.listActiveMaintenanceWindows values.now = []) {customer : Customer} (mem : customer ∈ db.customers) :
    seenOf values rule customer ∈ observed settings (tablesPass db values) := by
  simp only [tablesPass, noWindow]
  refine List.mem_flatMap.mpr ⟨rule, isRule, ?_⟩
  rw [observedBy, if_neg onCustomers, inScope, unpinned]
  exact List.mem_map_of_mem (List.mem_map_of_mem mem)

omit isRule unpinned onCustomers in
theorem noWindow_of_observed {seen : Observation V} (isObserved : seen ∈ observed settings (tablesPass db values)) :
    db.listActiveMaintenanceWindows values.now = [] := by
  unfold observed at isObserved
  split at isObserved
  · rename_i noWindow _ _ _
    exact Except.ok.inj noWindow
  · cases isObserved

theorem sent_iff {customer : Customer} (mem : customer ∈ db.customers) (level : Bool) :
    (∃ notify ∈ (evaluate settings (tablesPass db values) firing).sent,
      notify.key = ⟨rule.id, .customer customer.id⟩ ∧ notify.firing = level) ↔
    (seenOf values rule customer).breached = level ∧ firing ⟨rule.id, .customer customer.id⟩ ≠ level ∧ Heard db values rule ∧
      ¬ (level = true ∧ Inhibited settings (tablesPass db values) rule (.customer customer.id)) := by
  constructor
  · rintro ⟨notify, sent, sameKey, rfl⟩
    obtain ⟨seen, isObserved, changed, goesOut, rfl⟩ := (mem_sent _ _ _).mp sent
    have noWindow := noWindow_of_observed isObserved
    have same : seen = seenOf values rule customer := List.inj_on_of_nodup_map nodup_observed isObserved
      (seenOf_mem isRule unpinned onCustomers noWindow mem) sameKey
    subst same
    exact ⟨rfl, changed.symm, ⟨noWindow, goesOut.1⟩, goesOut.2⟩
  · rintro ⟨rfl, changed, heard, goesOut⟩
    exact ⟨_, (mem_sent _ _ _).mpr ⟨_, seenOf_mem isRule unpinned onCustomers heard.1 mem, changed.symm, ⟨heard.2, goesOut⟩, rfl⟩, rfl, rfl⟩

/-- A customer that is not active must not be firing already when it is in breach, and a
    critical rule must inhibit it; when it is not in breach, its alert must be heard of. -/
theorem concernsActive_iff : ConcernsActive settings db values firing rule ↔
    ∀ customer ∈ db.customers, customer.status ≠ .active →
      if breach rule.comparison ((values.metric rule customer.clientID).getD 0) rule.threshold then
        firing ⟨rule.id, .customer customer.id⟩ = false ∧
          (Heard db values rule → Inhibited settings (tablesPass db values) rule (.customer customer.id))
      else firing ⟨rule.id, .customer customer.id⟩ = true → Heard db values rule := by
  have isSent {customer : Customer} (mem : customer ∈ db.customers) :=
    @sent_iff _ _ _ _ settings _ values firing _ isRule unpinned onCustomers _ mem
  constructor
  · intro concerns customer mem inactive
    have resolved := fun isFiring => (isSent mem false).mp (concerns.resolved customer mem inactive isFiring)
    split
    · rename_i breached
      have notFiring : firing ⟨rule.id, .customer customer.id⟩ = false := by
        by_contra isFiring
        exact absurd (breached.symm.trans (resolved (eq_true_of_ne_false isFiring)).1) (by decide)
      refine ⟨notFiring, fun heard => ?_⟩
      by_contra uninhibited
      obtain ⟨notify, sent, isKey, isFiring⟩ := (isSent mem true).mpr
        ⟨breached, by simp [notFiring], heard, fun held => uninhibited held.2⟩
      obtain ⟨other, isOther, sameID, active⟩ := concerns.fired notify sent isFiring customer.id isKey
      rw [List.inj_on_of_nodup_map db.customers_id isOther mem sameID] at active
      exact inactive active
    · exact fun isFiring => (resolved isFiring).2.2.1
  · intro silent
    constructor
    · intro notify sent isFiring id isKey
      obtain ⟨seen, isObserved, _, _, rfl⟩ := (mem_sent _ _ _).mp sent
      obtain ⟨_, _, _, _, _, _, customer, mem, rfl⟩ := (mem_keys_observed (noWindow_of_observed isObserved)).mp
        (List.mem_map.mpr ⟨seen, isObserved, isKey⟩)
      refine ⟨customer, mem, rfl, ?_⟩
      by_contra inactive
      obtain ⟨breached, _, heard, goesOut⟩ := (isSent mem true).mp ⟨_, sent, isKey, isFiring⟩
      have quiet := silent customer mem inactive
      rw [if_pos (show breach _ _ _ = true from breached)] at quiet
      exact goesOut ⟨rfl, quiet.2 heard⟩
    · intro customer mem inactive isFiring
      have quiet := silent customer mem inactive
      split at quiet
      · exact absurd (quiet.1.symm.trans isFiring) (by decide)
      · rename_i notBreached
        exact (isSent mem false).mpr ⟨eq_false_of_ne_true notBreached, by simp [isFiring], quiet isFiring, by simp⟩

end

def statusTables (status : CustomerStatus) : AlertTables Int :=
  { warningTables with customers := [{ acmeCustomer with status := status }], customers_id := by simp }

theorem suspended_resolved :
    ConcernsActive ⟨none, false⟩ (statusTables .suspended) (reading 0) (fun _ => true) warningErrors :=
  (concernsActive_iff _ (List.mem_singleton.mpr rfl) (by decide) (by decide)).mpr (by decide)

/-- The rule fires for a suspended customer. -/
theorem suspended_customer_fires :
    ¬ ConcernsActive ⟨none, false⟩ (statusTables .suspended) (reading 20) (fun _ => false) warningErrors := by
  intro concerns
  obtain ⟨customer, mem, _, active⟩ := concerns.fired _ (List.mem_singleton.mpr rfl) rfl acme.id rfl
  rw [List.mem_singleton.mp mem] at active
  cases active

end OtelFleet.Alerting
