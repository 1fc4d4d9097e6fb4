import Mathlib.Data.List.Basic

/-! # Runs of a labelled transition system

A run is a finite sequence of steps with their labels.  `Run.invariant` carries a
property along a run; to ask something of every step of a run, the run is taken
over the steps that meet the condition.
-/

namespace OtelFleet.Semantics

variable {σ α : Type*}

inductive Run (Step : σ → α → σ → Prop) : σ → List α → σ → Prop where
  | refl (state : σ) : Run Step state [] state
  | step {state next last : σ} {label : α} {labels : List α} (first : Step state label next)
      (rest : Run Step next labels last) : Run Step state (label :: labels) last

def Restricted (allowed : σ → α → Prop) (Step : σ → α → σ → Prop) (state : σ) (label : α) (next : σ) : Prop :=
  allowed state label ∧ Step state label next

variable {Step : σ → α → σ → Prop}

/-- What holds at first and is kept by each step holds in every state reached. -/
theorem Run.invariant {inv : σ → Prop} (preserves : ∀ state label next, Step state label next → inv state → inv next)
    {state last : σ} {labels : List α} (run : Run Step state labels last) (holds : inv state) : inv last := by
  induction run with
  | refl state => exact holds
  | step first _ ih => exact ih (preserves _ _ _ first holds)

variable {labels : List α} {last state : σ}

theorem Run.weaken {Step Step' : σ → α → σ → Prop}
    (weaker : ∀ state label next, Step state label next → Step' state label next)
    (run : Run Step state labels last) : Run Step' state labels last := by
  induction run with
  | refl state => exact .refl state
  | step first _ ih => exact .step (weaker _ _ _ first) ih

theorem Run.append {middle : σ} {more : List α} (run : Run Step state labels middle) (rest : Run Step middle more last) :
    Run Step state (labels ++ more) last := by
  induction run with
  | refl => exact rest
  | step first _ ih => exact .step first (ih rest)

theorem Run.restrict {allowed : α → Prop} (run : Run Step state labels last) (all : ∀ label ∈ labels, allowed label) :
    Run (Restricted (fun _ label => allowed label) Step) state labels last := by
  induction run with
  | refl state => exact .refl state
  | step first _ ih =>
    exact .step ⟨all _ List.mem_cons_self, first⟩
      (ih fun label mem => all label (List.mem_cons_of_mem _ mem))

def performAll (perform : σ → α → Option σ) (state : σ) : List α → Option σ
  | [] => some state
  | label :: labels => (perform state label).bind fun next => performAll perform next labels

variable {perform : σ → α → Option σ}

theorem run_of_performAll (performed : performAll perform state labels = some last) :
    Run (fun state label next => perform state label = some next) state labels last := by
  induction labels generalizing state with
  | nil =>
    cases performed
    exact .refl _
  | cons label labels ih =>
    obtain ⟨next, step, rest⟩ := Option.bind_eq_some_iff.mp performed
    exact .step step (ih rest)

theorem restricted_of_performAll {allowed : σ → α → Prop}
    [∀ state label, Decidable (allowed state label)]
    (performed : performAll (fun state label => if allowed state label then perform state label else none) state labels =
      some last) :
    Run (Restricted allowed fun state label next => perform state label = some next) state labels last := by
  apply (run_of_performAll performed).weaken
  intro state label next step
  split at step
  · rename_i isAllowed
    exact ⟨isAllowed, step⟩
  · cases step

end OtelFleet.Semantics
