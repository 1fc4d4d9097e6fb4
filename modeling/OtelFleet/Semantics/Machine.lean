import Mathlib.Data.List.Basic

/-! # Machines with outputs

A machine answers one input after the other.  Two machines answer alike when their
states can be related, depending on the inputs so far, such that each input that is
allowed after those gets the same answer and leads to related states.
-/

namespace OtelFleet.Semantics

variable {σ τ ι ω : Type*}

def outputs (step : σ → ι → ω × σ) (state : σ) : List ι → List ω
  | [] => []
  | input :: inputs => (step state input).1 :: outputs step (step state input).2 inputs

theorem outputs_eq_of_simulation {step : σ → ι → ω × σ} {step' : τ → ι → ω × τ} {rel : List ι → σ → τ → Prop}
    {allowed : List ι → ι → Prop}
    (simulates : ∀ past input state state', rel past state state' → allowed past input →
      (step state input).1 = (step' state' input).1 ∧ rel (past ++ [input]) (step state input).2 (step' state' input).2)
    {past : List ι} {state : σ} {state' : τ} (related : rel past state state') {inputs : List ι}
    (all : ∀ before input after, inputs = before ++ input :: after → allowed (past ++ before) input) :
    outputs step state inputs = outputs step' state' inputs := by
  induction inputs generalizing past state state' with
  | nil => rfl
  | cons input inputs ih =>
    have now : allowed past input := by
      have first := all [] input inputs rfl
      rwa [List.append_nil] at first
    obtain ⟨same, next⟩ := simulates past input state state' related now
    rw [outputs]
    congr 1
    apply ih next
    intro before later after split
    have isAllowed := all (input :: before) later after (by rw [split]; rfl)
    rwa [List.append_assoc]

def answers (step : σ → ι → ω × σ) (state : σ) : List ι → List (ι × ω)
  | [] => []
  | input :: inputs => (input, (step state input).1) :: answers step (step state input).2 inputs

theorem fst_mem_of_mem_answers {step : σ → ι → ω × σ} {state : σ} {inputs : List ι} {answer : ι × ω}
    (mem : answer ∈ answers step state inputs) : answer.1 ∈ inputs := by
  induction inputs generalizing state with
  | nil => cases mem
  | cons input inputs ih =>
    rcases List.mem_cons.mp mem with rfl | later
    · exact List.mem_cons_self
    · exact List.mem_cons_of_mem _ (ih later)

/-- What one party sees of a machine that it shares is what a machine of its own answers,
    if the inputs of others keep the two related. -/
theorem answers_filter_of_simulation {step : σ → ι → ω × σ} {step' : τ → ι → ω × τ} {mine : ι → Bool}
    {rel : List ι → σ → τ → Prop} {allowed : List ι → ι → Prop}
    (own : ∀ past input state state', rel past state state' → allowed past input → mine input = true →
      (step state input).1 = (step' state' input).1 ∧ rel (past ++ [input]) (step state input).2 (step' state' input).2)
    (others : ∀ past input state state', rel past state state' → allowed past input → mine input = false →
      rel (past ++ [input]) (step state input).2 state')
    {past : List ι} {state : σ} {state' : τ} (related : rel past state state') {inputs : List ι}
    (all : ∀ before input after, inputs = before ++ input :: after → allowed (past ++ before) input) :
    (answers step state inputs).filter (fun answer => mine answer.1) = answers step' state' (inputs.filter mine) := by
  induction inputs generalizing past state state' with
  | nil => rfl
  | cons input inputs ih =>
    have now : allowed past input := by simpa using all [] input inputs rfl
    have later : ∀ before next after, inputs = before ++ next :: after → allowed (past ++ [input] ++ before) next := by
      intro before next after split
      simpa using all (input :: before) next after (by rw [split]; rfl)
    cases isMine : mine input with
    | true =>
      obtain ⟨same, next⟩ := own past input state state' related now isMine
      simp [answers, isMine, same, ih next later]
    | false => simp [answers, isMine, ih (others past input state state' related now isMine) later]

end OtelFleet.Semantics
