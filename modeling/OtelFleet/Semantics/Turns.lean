import OtelFleet.Data.Rows
import OtelFleet.Semantics.Run
import OtelFleet.Semantics.Session

/-! # Transactions that take turns

Several sessions run at the isolation level READ COMMITTED.  Some of the marks that
their transactions hold are row locks.  A statement waits while one of its marks
conflicts with a mark that another transaction holds.
-/

namespace OtelFleet.Semantics

variable {δ κ α β ε ι : Type}

/-- A session that is under way: what it is for, the pending changes and the marks of
    its transaction, and what is left to do. -/
structure Job (δ κ ι α : Type) where
  purpose : ι
  pending : δ → δ := id
  held : List κ := []
  rest : Session δ κ α

structure Sessions (δ κ ι α : Type) where
  committed : δ
  jobs : List (Job δ κ ι α)

variable (job : Job δ κ ι α)

def Job.step (committed : δ) : Option (δ × Job δ κ ι α) :=
  match job.rest with
  | .done _ => none
  | .statement marks change next =>
    let seen := job.pending committed
    some (committed, { job with
      pending := fun db => change seen (job.pending db)
      held := job.held ++ marks seen
      rest := next seen })
  | .commit next => some (job.pending committed, ⟨job.purpose, id, [], next⟩)
  | .rollback next => some (committed, ⟨job.purpose, id, [], next⟩)

def Job.commits : Bool :=
  match job.rest with
  | .commit _ => true
  | .done _ | .statement _ _ _ | .rollback _ => false

def Job.rollsBack : Bool :=
  match job.rest with
  | .rollback _ => true
  | .done _ | .statement _ _ _ | .commit _ => false

/-- The job holds the mark, or a statement that leaves it is still to come. -/
def Job.Owes (guar : ι → Session.Promise δ κ) (job : Job δ κ ι α) (mark : κ) : Prop :=
  mark ∈ job.held ∨ (guar job.purpose).owed job.rest mark

def Apart (conflicts : κ → κ → Prop) (held others : List κ) : Prop := ∀ mark ∈ held, ∀ other ∈ others, ¬ conflicts mark other

instance {conflicts : κ → κ → Prop} [DecidableRel conflicts] (held others : List κ) : Decidable (Apart conflicts held others) :=
  inferInstanceAs (Decidable (∀ mark ∈ held, ∀ other ∈ others, ¬ conflicts mark other))

theorem Apart.symm {conflicts : κ → κ → Prop} {held others : List κ} (symmetric : ∀ a b, conflicts a b → conflicts b a)
    (apart : Apart conflicts held others) : Apart conflicts others held :=
  fun mark mem other isOther conflict => apart other isOther mark mem (symmetric _ _ conflict)

namespace Sessions

inductive Event (ι : Type) where
  | start (purpose : ι)
  | advance (job : Nat)

section

variable (program : ι → Session δ κ α) (conflicts : κ → κ → Prop) [DecidableRel conflicts]

def Clear (conflicts : κ → κ → Prop) (system : Sessions δ κ ι α) (i : Nat) (held : List κ) : Prop :=
  ∀ other ∈ system.jobs.eraseIdx i, Apart conflicts held other.held

variable (system : Sessions δ κ ι α)

instance (i : Nat) (held : List κ) : Decidable (Clear conflicts system i held) :=
  inferInstanceAs (Decidable (∀ other ∈ system.jobs.eraseIdx i, Apart conflicts held other.held))

def start (purpose : ι) : Sessions δ κ ι α :=
  { system with jobs := system.jobs ++ [⟨purpose, id, [], program purpose⟩] }

def perform : Event ι → Option (Sessions δ κ ι α)
  | .start purpose => some (system.start program purpose)
  | .advance i => do
    let job ← system.jobs[i]?
    let (committed, job') ← job.step system.committed
    if Clear conflicts system i job'.held then return ⟨committed, system.jobs.set i job'⟩ else none

def Step (event : Event ι) (next : Sessions δ κ ι α) : Prop :=
  system.perform program conflicts event = some next

/-- The step also respects the conflicts of other marks. -/
def Respects (stricter : κ → κ → Prop) (system : Sessions δ κ ι α) : Event ι → Prop
  | .start _ => True
  | .advance i => ∀ job ∈ system.jobs[i]?, ∀ res ∈ job.step system.committed, Clear stricter system i res.2.held

instance (stricter : κ → κ → Prop) [DecidableRel stricter] (system : Sessions δ κ ι α) :
    (event : Event ι) → Decidable (Respects stricter system event)
  | .start _ => isTrue trivial
  | .advance i => inferInstanceAs (Decidable (∀ job ∈ system.jobs[i]?, ∀ res ∈ job.step system.committed,
      Clear stricter system i res.2.held))

variable {system next : Sessions δ κ ι α} {program : ι → Session δ κ α}

theorem perform_cases {conflicts : κ → κ → Prop} [DecidableRel conflicts] {i : Nat}
    (step : Step program conflicts system (.advance i) next) :
    ∃ job committed job', system.jobs[i]? = some job ∧ job.step system.committed = some (committed, job') ∧
      Clear conflicts system i job'.held ∧ next = ⟨committed, system.jobs.set i job'⟩ := by
  obtain ⟨job, found, stepped⟩ := Option.bind_eq_some_iff.mp step
  obtain ⟨⟨committed, job'⟩, res, performed⟩ := Option.bind_eq_some_iff.mp stepped
  dsimp only at performed
  split at performed
  · rename_i isClear
    cases performed
    exact ⟨job, committed, job', found, res, isClear, rfl⟩
  · cases performed

/-- A step that respects more conflicts is one of the system that has them. -/
theorem step_stricter {conflicts stricter : κ → κ → Prop} [DecidableRel conflicts] [DecidableRel stricter]
    {event : Event ι} (step : Restricted (Respects stricter) (Step program conflicts) system event next) :
    Step program stricter system event next := by
  obtain ⟨respects, step⟩ := step
  cases event with
  | start purpose => exact step
  | advance i =>
    obtain ⟨job, committed, job', found, res, _, rfl⟩ := perform_cases step
    have isClear := respects job found _ res
    simp only [Step, perform, found, res, Option.bind_eq_bind, Option.bind_some]
    exact if_pos isClear

theorem Run.stricter {program : ι → Session δ κ α} {conflicts stricter : κ → κ → Prop} [DecidableRel conflicts]
    [DecidableRel stricter] {system last : Sessions δ κ ι α} {events : List (Event ι)}
    (run : Run (Restricted (Respects stricter) (Step program conflicts)) system events last) :
    Run (Step program stricter) system events last :=
  run.weaken fun _ _ _ => step_stricter

end

/-! ## What all of them promise -/

section

variable {program : ι → Session δ κ α} {conflicts : κ → κ → Prop} [DecidableRel conflicts]
  {inv : δ → Prop} {rely : List κ → δ → δ → Prop} {guar : ι → Session.Promise δ κ}
  {system next : Sessions δ κ ι α} {i : Nat} {job job' other : Job δ κ ι α} {mark : κ}

/-- The invariant holds, no two jobs hold conflicting marks, and each keeps its promises
    from here on. -/
structure Keeping (conflicts : κ → κ → Prop) (inv : δ → Prop) (rely : List κ → δ → δ → Prop)
    (guar : ι → Session.Promise δ κ) (system : Sessions δ κ ι α) : Prop where
  holds : inv system.committed
  apart : ∀ (i j : Nat) job other, i ≠ j → system.jobs[i]? = some job → system.jobs[j]? = some other →
    Apart conflicts job.held other.held
  meets : ∀ job ∈ system.jobs,
    Session.Meets inv rely (guar job.purpose) (fun _ => Session.Idle) job.rest job.pending job.held system.committed

inductive Outcome (guar : ι → Session.Promise δ κ) (job job' : Job δ κ ι α) (before after : δ) : Prop where
  | waits (marks : List κ) (isOpen : job.commits = false) (same : after = before) (held : job'.held = job.held ++ marks)
      (noted : (guar job.purpose).notes job.held marks before)
      (owes : ∀ mark, (guar job.purpose).owed job.rest mark → mark ∈ marks ∨ (guar job.purpose).owed job'.rest mark)
  | commits (isCommit : job.commits = true) (held : job'.held = [])
      (given : (guar job.purpose).gives job.held ((guar job.purpose).owed job'.rest) before after)
      (owes : ∀ mark, (guar job.purpose).owed job.rest mark → (guar job.purpose).owed job'.rest mark)
  | fails (isOpen : job.commits = false) (isRollback : job.rollsBack = true) (same : after = before) (held : job'.held = [])
      (lost : (guar job.purpose).loses job.held before)
      (owes : ∀ mark, (guar job.purpose).owed job.rest mark →
        (guar job.purpose).mayFail ∨ (guar job.purpose).owed job'.rest mark)

theorem job_step {committed committed' : δ} (reflexive : ∀ held a, rely held a a)
    (meets : Session.Meets inv rely (guar job.purpose) (fun _ => Session.Idle) job.rest job.pending job.held committed)
    (holds : inv committed) (res : job.step committed = some (committed', job')) :
    job'.purpose = job.purpose ∧
      Session.Meets inv rely (guar job.purpose) (fun _ => Session.Idle) job'.rest job'.pending job'.held committed' ∧
        inv committed' ∧ Outcome guar job job' committed committed' := by
  obtain ⟨purpose, pending, held, rest⟩ := job
  cases rest with
  | done value => cases res
  | statement marks change next =>
    cases res
    obtain ⟨noted, meetsThen⟩ := meets committed (reflexive _ _) holds
    exact ⟨rfl, meetsThen, holds, .waits _ rfl rfl rfl noted fun mark will => will (pending committed)⟩
  | commit next =>
    cases res
    obtain ⟨given, kept, meetsThen⟩ := meets committed (reflexive _ _) holds
    exact ⟨rfl, meetsThen, kept, .commits rfl rfl given fun mark will => will⟩
  | rollback next =>
    cases res
    obtain ⟨lost, meetsThen⟩ := meets committed (reflexive _ _) holds
    exact ⟨rfl, meetsThen, holds, .fails rfl rfl rfl rfl lost fun mark will => will⟩

omit [DecidableRel conflicts] in
theorem Keeping.started (keeping : Keeping conflicts inv rely guar system) {purpose : ι}
    (meets : Session.Meets inv rely (guar purpose) (fun _ => Session.Idle) (program purpose) id [] system.committed) :
    Keeping conflicts inv rely guar (system.start program purpose) := by
  -- The new job holds no marks.
  have held : ∀ (j : Nat) job, (system.start program purpose).jobs[j]? = some job →
      system.jobs[j]? = some job ∨ job.held = [] := by
    intro j job isJob
    unfold start at isJob
    rcases Nat.lt_or_ge j system.jobs.length with old | new
    · rw [List.getElem?_append_left old] at isJob
      exact Or.inl isJob
    · rw [List.getElem?_append_right new] at isJob
      rw [List.mem_singleton.mp (List.mem_of_getElem? isJob)]
      exact Or.inr rfl
  refine ⟨keeping.holds, ?_, ?_⟩
  · intro i j job other distinct isJob isOther mark isMark
    rcases held i job isJob with oldJob | empty
    · rcases held j other isOther with oldOther | emptyOther
      · exact keeping.apart i j job other distinct oldJob oldOther mark isMark
      · rw [emptyOther]
        exact fun _ mem => nomatch mem
    · rw [empty] at isMark
      cases isMark
  · exact List.forall_mem_append.mpr ⟨keeping.meets, List.forall_mem_singleton.mpr meets⟩

structure Moved (system next : Sessions δ κ ι α) (i : Nat) (job job' : Job δ κ ι α) : Prop where
  found : system.jobs[i]? = some job
  jobs : next.jobs = system.jobs.set i job'
  samePurpose : job'.purpose = job.purpose

section

variable (moved : Moved system next i job job')
include moved

theorem Moved.self : next.jobs[i]? = some job' := by
  rw [moved.jobs, List.getElem?_set_self (List.getElem?_eq_some_iff.mp moved.found).1]

theorem Moved.apart {j : Nat} (distinct : j ≠ i) : next.jobs[j]? = system.jobs[j]? := by
  rw [moved.jobs, List.getElem?_set_ne (Ne.symm distinct)]

theorem Moved.cases (mem : other ∈ next.jobs) :
    other = job' ∨ ∃ j, j ≠ i ∧ system.jobs[j]? = some other ∧ next.jobs[j]? = some other := by
  obtain ⟨j, isOther⟩ := List.mem_iff_getElem?.mp mem
  by_cases jIsI : j = i
  · subst jIsI
    exact Or.inl (Option.some.inj (isOther.symm.trans moved.self))
  · exact Or.inr ⟨j, jIsI, (moved.apart jIsI).symm.trans isOther, isOther⟩

theorem Moved.stays (mem : other ∈ system.jobs) : other = job ∨ other ∈ next.jobs := by
  rw [moved.jobs]
  exact Data.mem_set_of_mem moved.found job' mem

end

theorem Keeping.step_outcome (reflexive : ∀ held a, rely held a a)
    (keeping : Keeping conflicts inv rely guar system) (step : Step program conflicts system (.advance i) next) :
    ∃ job job', Moved system next i job job' ∧ Outcome guar job job' system.committed next.committed := by
  obtain ⟨job, committed, job', found, res, _, rfl⟩ := perform_cases step
  obtain ⟨samePurpose, _, _, outcome⟩ :=
    job_step reflexive (keeping.meets job (List.mem_of_getElem? found)) keeping.holds res
  exact ⟨job, job', ⟨found, rfl, samePurpose⟩, outcome⟩

/-! ## What is owed -/

def Owing (guar : ι → Session.Promise δ κ) (system : Sessions δ κ ι α) (mark : κ) : Prop := ∃ job ∈ system.jobs, job.Owes guar mark

theorem owing_start (owing : system.Owing guar mark) (purpose : ι) :
    (system.start program purpose).Owing guar mark := by
  obtain ⟨job, mem, owes⟩ := owing
  exact ⟨job, List.mem_append_left _ mem, owes⟩

omit [DecidableRel conflicts] in
theorem Keeping.not_owing (reflexive : ∀ held a, rely held a a)
    (keeping : Keeping conflicts inv rely guar system) (returned : ∀ job ∈ system.jobs, job.rest.isDone = true) (mark : κ) :
    ¬ system.Owing guar mark := by
  rintro ⟨job, mem, owes⟩
  have meets := keeping.meets job mem
  have isDone := returned job mem
  unfold Job.Owes at owes
  cases rest : job.rest with
  | done value =>
    rw [rest] at meets owes
    rcases owes with isHeld | will
    · rw [(meets system.committed (reflexive _ _) keeping.holds).2] at isHeld
      cases isHeld
    · exact will
  | statement marks change next | commit next | rollback next => simp [rest, Session.isDone] at isDone

def Awaits (guar : ι → Session.Promise δ κ) (system : Sessions δ κ ι α) (mark : κ) : Prop :=
  ∃ job ∈ system.jobs, (guar job.purpose).owed job.rest mark

theorem Awaits.owing (awaits : system.Awaits guar mark) : system.Owing guar mark := by
  obtain ⟨job, mem, will⟩ := awaits
  exact ⟨job, mem, Or.inr will⟩

theorem awaits_start (awaits : system.Awaits guar mark) (purpose : ι) :
    (system.start program purpose).Awaits guar mark := by
  obtain ⟨job, mem, will⟩ := awaits
  exact ⟨job, List.mem_append_left _ mem, will⟩

theorem awaits_step (moved : Moved system next i job job')
    (outcome : Outcome guar job job' system.committed next.committed) (awaits : system.Awaits guar mark) :
    next.Awaits guar mark ∨
      (∃ marks, mark ∈ marks ∧ job'.held = job.held ++ marks ∧ (guar job.purpose).notes job.held marks system.committed) ∨
      job.rollsBack = true ∧ (guar job.purpose).loses job.held system.committed ∧ (guar job.purpose).mayFail := by
  obtain ⟨other, mem, will⟩ := awaits
  have awaitsThen : (guar job.purpose).owed job'.rest mark → next.Awaits guar mark := by
    intro willThen
    refine ⟨job', List.mem_of_getElem? moved.self, ?_⟩
    rw [moved.samePurpose]
    exact willThen
  rcases moved.stays mem with rfl | stays
  · cases outcome with
    | waits marks _ _ held noted owed =>
      rcases owed mark will with isLeft | willThen
      · exact Or.inr (Or.inl ⟨marks, isLeft, held, noted⟩)
      · exact Or.inl (awaitsThen willThen)
    | commits _ _ _ owed => exact Or.inl (awaitsThen (owed mark will))
    | fails _ isRollback _ _ lost owed =>
      rcases owed mark will with mayFail | willThen
      · exact Or.inr (Or.inr ⟨isRollback, lost, mayFail⟩)
      · exact Or.inl (awaitsThen willThen)
  · exact Or.inl ⟨other, stays, will⟩

theorem owing_step (moved : Moved system next i job job')
    (outcome : Outcome guar job job' system.committed next.committed) (owing : system.Owing guar mark) :
    next.Owing guar mark ∨
      mark ∈ job.held ∧
        (guar job.purpose).gives job.held ((guar job.purpose).owed job'.rest) system.committed next.committed ∨
      job.rollsBack = true ∧ (guar job.purpose).loses job.held system.committed ∧
        (mark ∈ job.held ∨ (guar job.purpose).mayFail) := by
  obtain ⟨other, mem, isHeld | will⟩ := owing
  · rcases moved.stays mem with rfl | stays
    · cases outcome with
      | waits marks _ _ held _ _ =>
        refine Or.inl ⟨job', List.mem_of_getElem? moved.self, Or.inl ?_⟩
        rw [held]
        exact List.mem_append_left _ isHeld
      | commits _ _ given _ => exact Or.inr (Or.inl ⟨isHeld, given⟩)
      | fails _ isRollback _ _ lost _ => exact Or.inr (Or.inr ⟨isRollback, lost, Or.inl isHeld⟩)
    · exact Or.inl ⟨other, stays, Or.inl isHeld⟩
  · rcases awaits_step moved outcome ⟨other, mem, will⟩ with awaits | ⟨marks, isLeft, held, _⟩ | ⟨isRollback, lost, mayFail⟩
    · exact Or.inl awaits.owing
    · refine Or.inl ⟨job', List.mem_of_getElem? moved.self, Or.inl ?_⟩
      rw [held]
      exact List.mem_append_right _ isLeft
    · exact Or.inr (Or.inr ⟨isRollback, lost, Or.inr mayFail⟩)

/-! ## Runs -/

section

variable (reflexive : ∀ held a, rely held a a)
  (transitive : ∀ held a b c, rely held a b → rely held b c → rely held a c)
  (symmetric : ∀ a b, conflicts a b → conflicts b a)
  (accepted : ∀ purpose held owed others a b, Apart conflicts held others → inv a → (guar purpose).gives held owed a b →
    rely others a b)
include reflexive transitive symmetric accepted

theorem Keeping.advanced (keeping : Keeping conflicts inv rely guar system)
    (step : Step program conflicts system (.advance i) next) : Keeping conflicts inv rely guar next := by
  obtain ⟨job, committed, job', found, res, isClear, rfl⟩ := perform_cases step
  obtain ⟨samePurpose, meets, kept, outcome⟩ :=
    job_step reflexive (keeping.meets job (List.mem_of_getElem? found)) keeping.holds res
  have moved : Moved system ⟨committed, system.jobs.set i job'⟩ i job job' := ⟨found, rfl, samePurpose⟩
  -- The marks of the job that moved, against those of another one.
  have clear : ∀ j other, j ≠ i → system.jobs[j]? = some other → Apart conflicts job'.held other.held := by
    intro j other distinct isOther
    apply isClear other
    rw [List.mem_eraseIdx_iff_getElem?]
    exact ⟨j, distinct, isOther⟩
  refine ⟨kept, ?_, ?_⟩
  · intro j k first second distinct isFirst isSecond
    by_cases jIsI : j = i
    · subst jIsI
      cases moved.self.symm.trans isFirst
      rw [moved.apart distinct.symm] at isSecond
      exact clear k second distinct.symm isSecond
    · rw [moved.apart jIsI] at isFirst
      by_cases kIsI : k = i
      · subst kIsI
        cases moved.self.symm.trans isSecond
        exact Apart.symm symmetric (clear j first jIsI isFirst)
      · rw [moved.apart kIsI] at isSecond
        exact keeping.apart j k first second distinct isFirst isSecond
  · intro other mem
    rcases moved.cases mem with rfl | ⟨j, distinct, isOther, _⟩
    · rw [samePurpose]
      exact meets
    · have relies : rely other.held system.committed committed := by
        cases outcome with
        | waits _ _ same _ _ _ | fails _ _ same _ _ _ =>
          rw [same]
          exact reflexive _ _
        | commits _ _ given _ =>
          exact accepted _ _ _ _ _ _ (keeping.apart i j job other distinct.symm found isOther) keeping.holds given
      exact (keeping.meets other (List.mem_of_getElem? isOther)).later transitive relies

theorem Keeping.stepped {event : Event ι}
    (programs : ∀ purpose, event = .start purpose →
      Session.Meets inv rely (guar purpose) (fun _ => Session.Idle) (program purpose) id [] system.committed)
    (keeping : Keeping conflicts inv rely guar system) (step : Step program conflicts system event next) :
    Keeping conflicts inv rely guar next := by
  cases event with
  | start purpose =>
    cases step
    exact keeping.started (programs purpose rfl)
  | advance i => exact keeping.advanced reflexive transitive symmetric accepted step

theorem Run.keeping
    (programs : ∀ purpose committed, inv committed →
      Session.Meets inv rely (guar purpose) (fun _ => Session.Idle) (program purpose) id [] committed)
    {last : Sessions δ κ ι α} {events : List (Event ι)} (run : Run (Step program conflicts) system events last)
    (keeping : Keeping conflicts inv rely guar system) : Keeping conflicts inv rely guar last := by
  apply run.invariant _ keeping
  intro system event next step keeping
  exact keeping.stepped reflexive transitive symmetric accepted (fun purpose _ => programs purpose _ keeping.holds) step

end

omit [DecidableRel conflicts] in
theorem keeping_idle {committed : δ} (holds : inv committed) :
    Keeping conflicts inv rely guar (⟨committed, []⟩ : Sessions δ κ ι α) :=
  ⟨holds, fun _ _ _ _ _ isJob => (nomatch isJob), fun _ mem => (nomatch mem)⟩

end

end Sessions

end OtelFleet.Semantics
