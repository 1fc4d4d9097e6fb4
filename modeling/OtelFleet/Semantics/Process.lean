import Mathlib.Logic.Relation
import Mathlib.Data.List.Basic

/-! # Processes that take turns

A program is a tree of atomic actions on a shared state.  It can be run in one go,
or in turns with other programs: then a pool holds the rest of each of them, and a
step of the pool performs the next action of one.

`Meets` says what a program does when others act in between.  They are assumed to
keep an invariant and to move the state along a relation; the program promises the
same and, for each action of its own, a guarantee.
-/

namespace OtelFleet.Semantics

/-- A program on `σ`: done, or an action and what follows, which depends on the
    state that the action found. -/
inductive Prog (σ α : Type) where
  | done (value : α)
  | act (change : σ → σ) (next : σ → Prog σ α)

variable {σ α β : Type}

namespace Prog

def bind : Prog σ α → (α → Prog σ β) → Prog σ β
  | done value, following => following value
  | act change next, following => act change fun before => (next before).bind following

instance : Monad (Prog σ) where
  pure := done
  bind := bind

def atomically (action : σ → α × σ) : Prog σ α :=
  act (fun before => (action before).2) fun before => done (action before).1

def read (view : σ → α) : Prog σ α := atomically fun state => (view state, state)

def modify (change : σ → σ) : Prog σ Unit := atomically fun state => ((), change state)

def run : Prog σ α → σ → α × σ
  | done value, state => (value, state)
  | act change next, state => (next state).run (change state)

@[simp] theorem run_pure (value : α) (state : σ) : (pure value : Prog σ α).run state = (value, state) := rfl

@[simp] theorem run_atomically (action : σ → α × σ) (state : σ) : (atomically action).run state = action state := rfl

@[simp] theorem run_read (view : σ → α) (state : σ) : (read view).run state = (view state, state) := rfl

@[simp] theorem run_modify (change : σ → σ) (state : σ) : (modify change).run state = ((), change state) := rfl

@[simp] theorem run_bind (program : Prog σ α) (following : α → Prog σ β) (state : σ) :
    (program >>= following).run state = (following (program.run state).1).run (program.run state).2 := by
  induction program generalizing state with
  | done value => rfl
  | act change next ih => exact ih state (change state)

def isDone : Prog σ α → Bool
  | done _ => true
  | act _ _ => false

variable {program : Prog σ α} {post' : α → σ → Prop} {following : β → Prog σ α} {action : σ → α × σ}
  {mid : β → σ → Prop}

section

/-- Run in one go from a state that meets `pre`, the program ends as `post` says. -/
structure Triple (pre : σ → Prop) (program : Prog σ α) (post : α → σ → Prop) : Prop where
  ends : ∀ state, pre state → post (program.run state).1 (program.run state).2

variable {pre : σ → Prop} {post : α → σ → Prop}

theorem triple_pure {value : α} (holds : ∀ state, pre state → post value state) : Triple pre (pure value) post :=
  ⟨holds⟩

theorem triple_atomically (holds : ∀ state, pre state → post (action state).1 (action state).2) :
    Triple pre (atomically action) post := ⟨holds⟩

theorem Triple.bind {program : Prog σ β} (first : Triple pre program mid)
    (rest : ∀ value, Triple (mid value) (following value) post) : Triple pre (program >>= following) post := by
  constructor
  intro state holds
  rw [run_bind]
  exact (rest _).ends _ (first.ends state holds)

theorem Triple.imp (triple : Triple pre program post)
    (implies : ∀ value state, post value state → post' value state) : Triple pre program post' :=
  ⟨fun state holds => implies _ _ (triple.ends state holds)⟩

end

section

variable (inv : σ → Prop) (rely guar : σ → σ → Prop)

/-- From this state on, with others acting in between: each action keeps `inv` and
    gives `guar`, and the result meets `post`. -/
def Meets (post : α → σ → Prop) : Prog σ α → σ → Prop
  | done value, state => post value state
  | act change next, state => ∀ now, rely state now → inv now →
      guar now (change now) ∧ inv (change now) ∧ Meets post (next now) (change now)

variable {inv rely guar} {post : α → σ → Prop} {state : σ}

theorem meets_pure {value : α} (holds : post value state) : Meets inv rely guar post (pure value) state := holds

theorem meets_atomically
    (holds : ∀ now, rely state now → inv now →
      guar now (action now).2 ∧ inv (action now).2 ∧ post (action now).1 (action now).2) :
    Meets inv rely guar post (atomically action) state := holds

theorem Meets.bind {program : Prog σ β} (first : Meets inv rely guar mid program state)
    (rest : ∀ value now, mid value now → Meets inv rely guar post (following value) now) :
    Meets inv rely guar post (program >>= following) state := by
  induction program generalizing state with
  | done value => exact rest value state first
  | act change next ih =>
    intro now moved holds
    obtain ⟨given, kept, meets⟩ := first now moved holds
    exact ⟨given, kept, ih now meets⟩

theorem Meets.weaken {rely' guar' : σ → σ → Prop} (meets : Meets inv rely guar post program state)
    (relies : ∀ a b, rely' a b → rely a b) (gives : ∀ a b, guar a b → guar' a b)
    (ends : ∀ value now, post value now → post' value now) : Meets inv rely' guar' post' program state := by
  induction program generalizing state with
  | done value => exact ends value state meets
  | act change next ih =>
    intro now moved holds
    obtain ⟨given, kept, rest⟩ := meets now (relies state now moved) holds
    exact ⟨gives now _ given, kept, ih now rest⟩

theorem Meets.imp (meets : Meets inv rely guar post program state)
    (implies : ∀ value now, post value now → post' value now) : Meets inv rely guar post' program state :=
  meets.weaken (fun _ _ moved => moved) (fun _ _ given => given) implies

theorem Meets.later (transitive : ∀ a b c, rely a b → rely b c → rely a c)
    (stable : ∀ value a b, rely a b → post value a → post value b) {program : Prog σ α} {now : σ}
    (meets : Meets inv rely guar post program state) (moved : rely state now) :
    Meets inv rely guar post program now := by
  cases program with
  | done value => exact stable value state now moved meets
  | act change next => exact fun later movedOn => meets later (transitive state now later moved movedOn)

/-- Nobody acts in between when the program runs in one go. -/
theorem Meets.run (reflexive : ∀ state, rely state state) (meets : Meets inv rely guar post program state)
    (holds : inv state) : post (program.run state).1 (program.run state).2 ∧ inv (program.run state).2 := by
  induction program generalizing state with
  | done value => exact ⟨meets, holds⟩
  | act change next ih =>
    obtain ⟨_, kept, rest⟩ := meets state (reflexive state) holds
    exact ih state rest kept

/-- Conversely, what holds after a run in one go holds when nobody acts in between. -/
theorem meets_of_run (holds : post (program.run state).1 (program.run state).2) :
    Meets (fun _ => True) Eq (fun _ _ => True) post program state := by
  induction program generalizing state with
  | done value => exact holds
  | act change next ih =>
    rintro _ rfl _
    exact ⟨trivial, trivial, ih state holds⟩

theorem Meets.moved (transitive : ∀ a b c, rely a b → rely b c → rely a c) {program : Prog σ α} {now : σ}
    (meets : Meets inv rely guar post program state) (underWay : program.isDone = false) (moved : rely state now) :
    Meets inv rely guar post program now := by
  cases program with
  | done value => cases underWay
  | act change next => exact fun later movedOn => meets later (transitive state now later moved movedOn)

end

end Prog

/-! ## Pools -/

/-- A shared state and the programs that are under way, with what they are for. -/
structure Pool (σ κ α : Type) where
  shared : σ
  jobs : List (κ × Prog σ α)

namespace Pool

variable {κ : Type}

def advance (pool : Pool σ κ α) (i : Nat) : Option (Pool σ κ α) :=
  match pool.jobs[i]? with
  | some (purpose, .act change next) =>
    some ⟨change pool.shared, pool.jobs.set i (purpose, next pool.shared)⟩
  | _ => none

def start (pool : Pool σ κ α) (purpose : κ) (program : Prog σ α) : Pool σ κ α :=
  { pool with jobs := pool.jobs ++ [(purpose, program)] }

variable {pool after : Pool σ κ α} {i : Nat} {now : σ} {purpose : κ} {program : Prog σ α}

theorem advance_cases (advanced : pool.advance i = some after) :
    ∃ purpose change next, pool.jobs[i]? = some (purpose, .act change next) ∧
      after = ⟨change pool.shared, pool.jobs.set i (purpose, next pool.shared)⟩ := by
  unfold advance at advanced
  split at advanced
  · rename_i purpose change next found
    exact ⟨purpose, change, next, found, (Option.some.inj advanced).symm⟩
  · cases advanced

theorem advance_purpose (advanced : pool.advance i = some after) {job : κ × Prog σ α}
    (mem : job ∈ after.jobs) : ∃ rest, (job.1, rest) ∈ pool.jobs := by
  obtain ⟨purpose, change, next, found, rfl⟩ := advance_cases advanced
  rcases List.mem_or_eq_of_mem_set mem with old | isNext
  · exact ⟨job.2, old⟩
  · rw [isNext]
    exact ⟨_, List.mem_of_getElem? found⟩

section

variable {inv : σ → Prop} {rely : σ → σ → Prop} {guar : κ → σ → σ → Prop} {post : κ → α → σ → Prop}

def Promising (inv : σ → Prop) (rely : σ → σ → Prop) (guar : κ → σ → σ → Prop) (post : κ → α → σ → Prop)
    (pool : Pool σ κ α) : Prop :=
  inv pool.shared ∧ ∀ job ∈ pool.jobs, Prog.Meets inv rely (guar job.1) (post job.1) job.2 pool.shared

theorem Promising.moved (transitive : ∀ a b c, rely a b → rely b c → rely a c)
    (stable : ∀ purpose value a b, rely a b → post purpose value a → post purpose value b)
    (promising : Promising inv rely guar post pool) (moved : rely pool.shared now)
    (holds : inv now) : Promising inv rely guar post { pool with shared := now } :=
  ⟨holds, fun job mem => (promising.2 job mem).later transitive (stable job.1) moved⟩

theorem Promising.started (promising : Promising inv rely guar post pool)
    (meets : Prog.Meets inv rely (guar purpose) (post purpose) program pool.shared) :
    Promising inv rely guar post (pool.start purpose program) :=
  ⟨promising.1, List.forall_mem_append.mpr ⟨promising.2, List.forall_mem_singleton.mpr meets⟩⟩

theorem Promising.advanced (reflexive : ∀ a, rely a a) (transitive : ∀ a b c, rely a b → rely b c → rely a c)
    (stable : ∀ purpose value a b, rely a b → post purpose value a → post purpose value b)
    (accepted : ∀ purpose a b, inv a → guar purpose a b → rely a b)
    (promising : Promising inv rely guar post pool) (advanced : pool.advance i = some after) :
    Promising inv rely guar post after ∧
      ∃ purpose rest, pool.jobs[i]? = some (purpose, rest) ∧ guar purpose pool.shared after.shared := by
  obtain ⟨purpose, change, next, found, rfl⟩ := advance_cases advanced
  have mem : (purpose, Prog.act change next) ∈ pool.jobs := List.mem_of_getElem? found
  obtain ⟨given, kept, meets⟩ := promising.2 _ mem pool.shared (reflexive _) promising.1
  have moved := accepted purpose _ _ promising.1 given
  refine ⟨⟨kept, fun job isJob => ?_⟩, purpose, _, found, given⟩
  rcases List.mem_or_eq_of_mem_set isJob with other | isNext
  · exact (promising.2 job other).later transitive (stable job.1) moved
  · rw [isNext]
    exact meets

end

/-! ### Jobs that put up with some of the others

Here what a job puts up with depends on what it is for.  It is only asked of the jobs
that are still under way. -/

section

variable {inv : σ → Prop} {rely guar : κ → σ → σ → Prop} {post : κ → α → σ → Prop}

def Keeping (inv : σ → Prop) (rely guar : κ → σ → σ → Prop) (post : κ → α → σ → Prop) (pool : Pool σ κ α) : Prop :=
  ∀ job ∈ pool.jobs, job.2.isDone = false →
    Prog.Meets inv (rely job.1) (guar job.1) (post job.1) job.2 pool.shared

theorem Keeping.moved (transitive : ∀ purpose a b c, rely purpose a b → rely purpose b c → rely purpose a c)
    (keeping : Keeping inv rely guar post pool)
    (moved : ∀ job ∈ pool.jobs, job.2.isDone = false → rely job.1 pool.shared now) :
    Keeping inv rely guar post { pool with shared := now } :=
  fun job mem underWay =>
    (keeping job mem underWay).moved (transitive job.1) underWay (moved job mem underWay)

theorem Keeping.started (keeping : Keeping inv rely guar post pool)
    (meets : Prog.Meets inv (rely purpose) (guar purpose) (post purpose) program pool.shared) :
    Keeping inv rely guar post (pool.start purpose program) :=
  List.forall_mem_append.mpr ⟨keeping, List.forall_mem_singleton.mpr fun _ => meets⟩

theorem Keeping.advanced (reflexive : ∀ purpose a, rely purpose a a)
    (transitive : ∀ purpose a b c, rely purpose a b → rely purpose b c → rely purpose a c)
    (keeping : Keeping inv rely guar post pool) (holds : inv pool.shared)
    (advanced : pool.advance i = some after)
    (accepted : ∀ purpose rest, pool.jobs[i]? = some (purpose, rest) → rest.isDone = false →
      guar purpose pool.shared after.shared → ∀ j job, j ≠ i → pool.jobs[j]? = some job → job.2.isDone = false →
      rely job.1 pool.shared after.shared) :
    Keeping inv rely guar post after ∧ inv after.shared ∧
      ∃ purpose rest rest', pool.jobs[i]? = some (purpose, rest) ∧ rest.isDone = false ∧
        after.jobs = pool.jobs.set i (purpose, rest') ∧ guar purpose pool.shared after.shared ∧
        Prog.Meets inv (rely purpose) (guar purpose) (post purpose) rest' after.shared := by
  obtain ⟨purpose, change, next, found, rfl⟩ := advance_cases advanced
  have mem : (purpose, Prog.act change next) ∈ pool.jobs := List.mem_of_getElem? found
  obtain ⟨given, kept, meets⟩ := keeping _ mem rfl pool.shared (reflexive _ _) holds
  refine ⟨fun job isJob underWay => ?_, kept, purpose, _, _, found, rfl, rfl, given, meets⟩
  obtain ⟨j, isJ⟩ := List.mem_iff_getElem?.mp isJob
  by_cases same : j = i
  · subst same
    rw [List.getElem?_set_self (List.getElem?_eq_some_iff.mp found).1] at isJ
    cases isJ
    exact meets
  · rw [List.getElem?_set_ne (Ne.symm same)] at isJ
    exact (keeping job (List.mem_of_getElem? isJ) underWay).moved (transitive job.1) underWay
      (accepted purpose _ found rfl given j job same isJ underWay)

end

end Pool

end OtelFleet.Semantics
