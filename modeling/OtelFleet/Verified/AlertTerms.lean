import OtelFleet.Alerting.Election
import OtelFleet.Verified.Inhibition

/-! # Terms of the elected evaluator

The service of a replica keeps its state from one term to the next, although another
replica evaluated in between.  `terms_start_fresh`: the first pass of a term sends what
a newly started process would send, exactly when no pair that it evaluates is still
recorded as firing.
-/

namespace OtelFleet.Alerting

open Data Semantics Store

section

variable {V : Type} [Zero V] [LT V] [DecidableLT V]

/-- As a newly started process would do: the same is sent, and every pair in breach whose
    rule has a channel is notified as firing. -/
def Opening.Fresh (settings : Settings) (opening : Opening V) : Prop :=
  opening.sent = (evaluate settings opening.pass fun _ => false).sent ∧
    ∀ seen ∈ observed settings opening.pass, seen.breached = true → opening.pass.channels seen.rule ≠ [] →
      ∃ notify ∈ opening.sent, notify.key = seen.key ∧ notify.firing = true

/-- No pair that is evaluated, and whose rule has a channel, was left recorded as firing. -/
def Opening.Clean (settings : Settings) (opening : Opening V) : Prop :=
  ∀ seen ∈ observed settings opening.pass, opening.pass.channels seen.rule ≠ [] → opening.before seen.key = false

instance (settings : Settings) (opening : Opening V) : Decidable (opening.Clean settings) :=
  inferInstanceAs (Decidable (∀ seen ∈ observed settings opening.pass, _))

variable {pass : Pass V} {seen : Observation V}

theorem sent_of_notify {settings : Settings} {firing : Key → Bool} (mem : seen ∈ observed settings pass) :
    pass.notify seen ∈ (evaluate settings pass firing).sent ↔ seen.breached ≠ firing seen.key ∧ GoesOut settings pass seen := by
  rw [mem_sent]
  constructor
  · rintro ⟨other, isOther, changed, goesOut, same⟩
    have sameSeen : other = seen := List.inj_on_of_nodup_map nodup_observed isOther mem (congrArg PendingNotify.key same)
    subst sameSeen
    exact ⟨changed, goesOut⟩
  · rintro ⟨changed, goesOut⟩
    exact ⟨seen, mem, changed, goesOut, rfl⟩

variable {regions : Option { regions : List String // regions.Nodup }}

theorem goesOut_of_channel (channelled : pass.channels seen.rule ≠ []) : GoesOut ⟨regions, false⟩ pass seen :=
  ⟨channelled, fun held => Bool.false_ne_true held.2.1⟩

theorem sent_eq_iff {firing firing' : Key → Bool} :
    (evaluate ⟨regions, false⟩ pass firing).sent = (evaluate ⟨regions, false⟩ pass firing').sent ↔
      ∀ seen ∈ observed ⟨regions, false⟩ pass, pass.channels seen.rule ≠ [] → firing seen.key = firing' seen.key := by
  constructor
  · intro same seen mem channelled
    have goesOut : GoesOut ⟨regions, false⟩ pass seen := goesOut_of_channel channelled
    have sent : pass.notify seen ∈ (evaluate ⟨regions, false⟩ pass firing).sent ↔
        seen.breached ≠ firing seen.key ∧ GoesOut ⟨regions, false⟩ pass seen := sent_of_notify mem
    rw [same, sent_of_notify mem, and_iff_left goesOut, and_iff_left goesOut] at sent
    -- both states differ from what was seen, or neither does
    have agree : ∀ breached before before' : Bool, (breached ≠ before' ↔ breached ≠ before) → before = before' := by decide
    exact agree _ _ _ sent
  · intro agree
    rw [evaluate_sent, evaluate_sent]
    congr 1
    apply List.filter_congr
    intro seen mem
    by_cases channelled : pass.channels seen.rule = []
    · simp [GoesOut, channelled]
    · rw [agree seen mem channelled]

theorem fresh_iff_clean {opening : Opening V}
    (sent : opening.sent = (evaluate ⟨regions, false⟩ opening.pass opening.before).sent) :
    opening.Fresh ⟨regions, false⟩ ↔ opening.Clean ⟨regions, false⟩ := by
  rw [Opening.Fresh, sent, sent_eq_iff]
  refine ⟨fun fresh => fresh.1, fun clean => ⟨clean, ?_⟩⟩
  intro seen mem breached channelled
  refine ⟨opening.pass.notify seen, (sent_of_notify mem).mpr ⟨?_, goesOut_of_channel channelled⟩, rfl, breached⟩
  rw [breached, clean seen mem channelled]
  exact Bool.noConfusion

variable {settings : Settings}

/-- Every first pass was a pass of the evaluator from the state it found. -/
def Election.Evaluates (settings : Settings) (election : Election V) : Prop :=
  ∀ opening ∈ election.openings, opening.sent = (evaluate settings opening.pass opening.before).sent

theorem Election.evaluates_step (election : Election V) (event : ElectionEvent V) (next : Election V)
    (step : Election.Step settings election event next) (evaluates : election.Evaluates settings) :
    next.Evaluates settings := by
  cases event with
  | evaluate i pass =>
    simp only [Election.Step, Election.perform] at step
    split at step
    · cases step
    · cases step
      exact Data.forall_mem_append_row evaluates rfl
    · cases step
      exact evaluates
  | elected i | sessionLost i | stepDown i =>
    simp only [Election.Step, Election.perform] at step
    split at step
    all_goals first | cases step; exact evaluates | cases step
  | restart i =>
    cases step
    exact evaluates

theorem terms_start_fresh {regions : Option { regions : List String // regions.Nodup }} {events : List (ElectionEvent V)}
    {last : Election V} (run : Run (Election.Step ⟨regions, false⟩) {} events last) :
    (∀ opening ∈ last.openings, opening.Fresh ⟨regions, false⟩) ↔ ∀ opening ∈ last.openings, opening.Clean ⟨regions, false⟩ := by
  have evaluates : last.Evaluates ⟨regions, false⟩ :=
    run.invariant Election.evaluates_step fun opening mem => nomatch mem
  exact forall₂_congr fun opening mem => fresh_iff_clean (evaluates opening mem)

end

def term (i : Nat) (errors : Int) : List (ElectionEvent Int) :=
  [.elected i, .evaluate i (errorFleet.pass { now := 0, metric := fun _ _ => some errors, query := fun _ _ => none }), .stepDown i]

def after (events : List (ElectionEvent Int)) : Election Int :=
  (performAll (Election.perform ⟨none, false⟩) {} events).getD {}

/-- The errors have ended before the replica steps down. -/
theorem calm_terms_fresh :
    Run (Election.Step ⟨none, false⟩) {} (term 0 0 ++ term 1 100 ++ term 0 100) (after (term 0 0 ++ term 1 100 ++ term 0 100)) ∧
      ∀ opening ∈ (after (term 0 0 ++ term 1 100 ++ term 0 100)).openings, opening.Fresh ⟨none, false⟩ := by
  have run : Run (Election.Step ⟨none, false⟩) {} (term 0 0 ++ term 1 100 ++ term 0 100)
      (after (term 0 0 ++ term 1 100 ++ term 0 100)) := run_of_performAll rfl
  exact ⟨run, (terms_start_fresh run).mpr (by decide)⟩

/-- Both rules fire in a term of the first replica and clear in one of the second.  When the
    first is elected again and they are in breach again, it sends nothing. -/
theorem second_term_silent :
    Run (Election.Step ⟨none, false⟩) {} (term 0 100 ++ term 1 0 ++ term 0 100) (after (term 0 100 ++ term 1 0 ++ term 0 100)) ∧
      (∃ opening ∈ (after (term 0 100 ++ term 1 0 ++ term 0 100)).openings, opening.sent = [] ∧ ¬ opening.Fresh ⟨none, false⟩) := by
  refine ⟨run_of_performAll rfl, _, List.mem_cons_of_mem _ (List.mem_cons_of_mem _ List.mem_cons_self), rfl, ?_⟩
  intro fresh
  obtain ⟨notify, sent, _⟩ := fresh.2 _ List.mem_cons_self rfl (by decide)
  cases sent

end OtelFleet.Alerting
