import Mathlib.Logic.Basic

/-! # Computations that fail without losing their state

A request handler changes the world step by step and may fail at any of them;
what it did before the failure stays done.  `Eff σ ε α` is the type of such
computations on a world `σ`.
-/

namespace OtelFleet.Semantics

structure Eff (σ ε α : Type) where
  run : σ → Except ε α × σ

variable {σ ε ε' α β : Type}

namespace Eff

variable (computation : Eff σ ε α)

def bind (next : α → Eff σ ε β) : Eff σ ε β where
  run world :=
    match computation.run world with
    | (.ok value, world) => (next value).run world
    | (.error err, world) => (.error err, world)

instance : Monad (Eff σ ε) where
  pure value := ⟨fun world => (.ok value, world)⟩
  bind := bind

def ofExcept (res : Except ε α) : Eff σ ε α := ⟨fun world => (res, world)⟩

def throw (err : ε) : Eff σ ε α := ofExcept (.error err)

def attempt : Eff σ ε' (Except ε α) where
  run world := (.ok (computation.run world).1, (computation.run world).2)

def modify (change : σ → σ) : Eff σ ε Unit := ⟨fun world => (.ok (), change world)⟩

variable (value : α) (world : σ)

@[simp] theorem run_pure : (pure value : Eff σ ε α).run world = (.ok value, world) := rfl

@[simp] theorem run_throw (err : ε) (world : σ) :
    (throw err : Eff σ ε α).run world = (.error err, world) := rfl

variable (res : Except ε α)

@[simp] theorem run_ofExcept : (ofExcept res : Eff σ ε α).run world = (res, world) := rfl

@[simp] theorem run_modify (change : σ → σ) (world : σ) :
    (modify change : Eff σ ε Unit).run world = (.ok (), change world) := rfl

@[simp] theorem run_attempt :
    (computation.attempt : Eff σ ε' (Except ε α)).run world =
      (.ok (computation.run world).1, (computation.run world).2) := rfl

theorem run_bind (next : α → Eff σ ε β) :
    (computation >>= next).run world =
      match computation.run world with
      | (.ok value, after) => (next value).run after
      | (.error err, after) => (.error err, after) := rfl

variable {computation : Eff σ ε α}

theorem run_bind_congr {other : Eff σ ε α} {world : σ} (same : computation.run world = other.run world)
    (next : α → Eff σ ε β) : (computation >>= next).run world = (other >>= next).run world := by
  rw [run_bind, run_bind, same]

variable {next : α → Eff σ ε β}

theorem snd_run_bind (pureNext : ∀ value world, ((next value).run world).2 = world) (world : σ) :
    ((computation >>= next).run world).2 = (computation.run world).2 := by
  rw [run_bind]
  cases computation.run world with
  | mk res after =>
    cases res with
    | ok value => exact pureNext value after
    | error err => rfl

theorem run_attempt_bind (next : Except ε α → Eff σ ε' β) (world : σ) :
    (computation.attempt >>= next).run world =
      (next (computation.run world).1).run (computation.run world).2 := rfl

/-! ## Frames

What every run of a computation leaves alone is the same for a sequence as for
its steps. -/

def Keeps {τ : Type} (view : σ → τ) (computation : Eff σ ε α) : Prop :=
  ∀ world, view (computation.run world).2 = view world

section

variable {τ : Type} {view : σ → τ}

theorem keeps_pure : Keeps view (pure value : Eff σ ε α) := fun _ => rfl

theorem keeps_ofExcept : Keeps view (ofExcept res : Eff σ ε α) := fun _ => rfl

theorem Keeps.bind (keeps : Keeps view computation) (nextKeeps : ∀ value, Keeps view (next value)) :
    Keeps view (computation >>= next) := by
  intro world
  have kept := keeps world
  rw [run_bind]
  generalize computation.run world = ran at kept
  obtain ⟨res, after⟩ := ran
  cases res with
  | ok value => exact (nextKeeps value after).trans kept
  | error err => exact kept

theorem Keeps.attempt (keeps : Keeps view computation) : Keeps view (computation.attempt : Eff σ ε' (Except ε α)) := keeps

end

/-! ## Invariants -/

/-- Every run of the computation keeps `inv`, also one that fails. -/
def Preserves (inv : σ → Prop) (computation : Eff σ ε α) : Prop :=
  ∀ world, inv world → inv (computation.run world).2

section

variable {inv : σ → Prop}

theorem preserves_pure : Preserves inv (pure value : Eff σ ε α) := fun _ holds => holds

theorem preserves_ofExcept : Preserves inv (ofExcept res : Eff σ ε α) := fun _ holds => holds

theorem Preserves.bind (preserves : Preserves inv computation)
    (nextPreserves : ∀ value, (∃ world after, computation.run world = (.ok value, after)) → Preserves inv (next value)) :
      Preserves inv (computation >>= next) := by
  intro world holds
  have kept := preserves world holds
  rw [run_bind]
  cases ran : computation.run world with
  | mk res after =>
    rw [ran] at kept
    cases res with
    | ok value => exact nextPreserves value ⟨world, after, ran⟩ after kept
    | error err => exact kept

end

/-! ## Two runs

Two computations agree when related worlds lead them to related worlds and to the
same failure or related values. -/

/-- The same failure, or values that `rel` relates. -/
inductive Agree (rel : α → β → Prop) : Except ε α → Except ε β → Prop where
  | error (err : ε) : Agree rel (.error err) (.error err)
  | ok {left : α} {right : β} (related : rel left right) : Agree rel (.ok left) (.ok right)

variable {left : Except ε α}

theorem Agree.of_eq {right : Except ε α} (same : left = right) : Agree (fun a b => a = b) left right := by
  subst same
  cases left with
  | error err => exact .error err
  | ok value => exact .ok rfl

section

variable {rel : α → β → Prop} {right : Except ε β} (agree : Agree rel left right)
include agree

theorem Agree.mapError (f : ε → ε') : Agree rel (left.mapError f) (right.mapError f) := by
  cases agree with
  | error err => exact .error (f err)
  | ok related => exact .ok related

theorem Agree.with_eq : Agree (fun a b => rel a b ∧ left = .ok a ∧ right = .ok b) left right := by
  cases agree with
  | error err => exact .error err
  | ok related => exact .ok ⟨related, rfl, rfl⟩

end

def Sim (before after : σ → σ → Prop) (rel : α → β → Prop) (left : Eff σ ε α) (right : Eff σ ε β) : Prop :=
  ∀ world other, before world other →
    after (left.run world).2 (right.run other).2 ∧ Agree rel (left.run world).1 (right.run other).1

section

variable {before between after : σ → σ → Prop} {α' β' : Type} {rel : α → α' → Prop} {next : β → β' → Prop}

theorem Sim.ofExcept {left : Except ε α} {right : Except ε α'} (agree : Agree rel left right) :
    Sim before before rel (ofExcept left) (ofExcept right) :=
  fun _ _ related => ⟨related, agree⟩

theorem Sim.pure {left : α} {right : α'} (related : rel left right) :
    Sim before before rel (pure left : Eff σ ε α) (pure right) :=
  fun _ _ worlds => ⟨worlds, .ok related⟩

theorem Sim.bind {left : Eff σ ε α} {right : Eff σ ε α'} {leftNext : α → Eff σ ε β} {rightNext : α' → Eff σ ε β'}
    (first : Sim before between rel left right) (weaken : ∀ world other, between world other → after world other)
    (rest : ∀ value other, rel value other → Sim between after next (leftNext value) (rightNext other)) :
    Sim before after next (left >>= leftNext) (right >>= rightNext) := by
  intro world other related
  obtain ⟨worlds, agree⟩ := first world other related
  rw [run_bind, run_bind]
  generalize left.run world = leftRan, right.run other = rightRan at worlds agree
  obtain ⟨res, leftAfter⟩ := leftRan
  obtain ⟨res', rightAfter⟩ := rightRan
  cases agree with
  | error err => exact ⟨weaken _ _ worlds, .error err⟩
  | ok values => exact rest _ _ values _ _ worlds

end

end Eff

end OtelFleet.Semantics
