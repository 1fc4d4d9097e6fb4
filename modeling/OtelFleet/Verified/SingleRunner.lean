import OtelFleet.Leader.Elector
import OtelFleet.Semantics.Run

/-! # One runner at a time

The lock excludes two holders, and a replica whose connection is alive holds the lock from
its election until it has unlocked.  A replica that has lost its connection goes on working
without the lock, so runners exclude each other only if none is started beside such a
replica, nor by one that has lost its connection before it starts.
-/

namespace OtelFleet.Verified.SingleRunner

open Leader Semantics

variable {n : Nat} {contest next : Contest n} {event : Event n}

def isElected : Phase → Bool
  | .elected | .working | .cancelled | .returned => true
  | .idle | .acquired => false

def Holding (replica : Replica) : Prop := isElected replica.phase ∧ replica.connected

/-! ## What a step does -/

inductive LockMove (contest : Contest n) (i : Fin n) (replica : Replica) : Option (Fin n) → Prop where
  | keeps (held : Holding replica → Holding (contest.replicas i)) : LockMove contest i replica contest.lock
  | takes (free : contest.lock = none) : LockMove contest i replica (some i)
  | frees (ended : ¬ Holding replica) :
      LockMove contest i replica (if contest.lock = some i then none else contest.lock)

theorem step_cases (step : contest.Step event next) :
    ∃ i replica, next.replicas = Function.update contest.replicas i replica ∧ LockMove contest i replica next.lock ∧
      (replica.phase.inWork → (contest.replicas i).phase.inWork ∨
        (event = .start i ∧ (contest.replicas i).phase = .elected)) := by
  cases event with
  | acquire i | lockFailed i =>
    obtain ⟨_, ⟨⟩⟩ := Option.ite_none_right_eq_some.mp step
    exact ⟨i, _, rfl, .keeps (fun holding => nomatch holding.1), (fun working => nomatch working)⟩
  | tryLock i =>
    obtain ⟨_, step⟩ := Option.ite_none_right_eq_some.mp step
    split at step
    · next free =>
      cases step
      exact ⟨i, _, rfl, .takes free, (fun working => nomatch working)⟩
    · cases step
      exact ⟨i, _, rfl, .keeps (fun holding => nomatch holding.1), (fun working => nomatch working)⟩
  | start i =>
    obtain ⟨elected, ⟨⟩⟩ := Option.ite_none_right_eq_some.mp step
    exact ⟨i, _, rfl, .keeps fun holding => ⟨by rw [elected]; rfl, holding.2⟩, fun _ => Or.inr ⟨rfl, elected⟩⟩
  | poll i =>
    obtain ⟨working, step⟩ := Option.ite_none_right_eq_some.mp step
    split at step
    · cases step
      exact ⟨i, contest.replicas i, (Function.update_eq_self i _).symm, .keeps id, Or.inl⟩
    · cases step
      exact ⟨i, _, rfl, .keeps fun holding => ⟨by rw [working]; rfl, holding.2⟩, fun _ => Or.inl (by rw [working]; rfl)⟩
  | stop i =>
    cases step
    exact ⟨i, _, rfl, .keeps id, Or.inl⟩
  | noticeStop i =>
    obtain ⟨⟨working, _⟩, ⟨⟩⟩ := Option.ite_none_right_eq_some.mp step
    exact ⟨i, _, rfl, .keeps fun holding => ⟨by rw [working]; rfl, holding.2⟩, fun _ => Or.inl (by rw [working]; rfl)⟩
  | workReturns i =>
    obtain ⟨working, ⟨⟩⟩ := Option.ite_none_right_eq_some.mp step
    refine ⟨i, _, rfl, .keeps fun holding => ⟨?_, holding.2⟩, (fun working => nomatch working)⟩
    cases phase : (contest.replicas i).phase <;> simp [phase, Phase.inWork, isElected] at working ⊢
  | unlock i =>
    obtain ⟨_, ⟨⟩⟩ := Option.ite_none_right_eq_some.mp step
    exact ⟨i, _, rfl, .frees (fun holding => nomatch holding.1), (fun working => nomatch working)⟩
  | lose i =>
    obtain ⟨_, ⟨⟩⟩ := Option.ite_none_right_eq_some.mp step
    exact ⟨i, _, rfl, .frees (fun holding => nomatch holding.2), Or.inl⟩
  | restart i =>
    cases step
    exact ⟨i, _, rfl, .frees (fun holding => nomatch holding.1), (fun working => nomatch working)⟩

/-! ## The lock -/

/-- A session that got the lock and is alive holds it. -/
def Guarded (contest : Contest n) : Prop := ∀ i, Holding (contest.replicas i) → contest.lock = some i

theorem Guarded.step (guarded : Guarded contest) (step : contest.Step event next) : Guarded next := by
  obtain ⟨i, replica, moved, lock, _⟩ := step_cases step
  intro j holding
  rw [moved] at holding
  generalize next.lock = nextLock at lock ⊢
  by_cases same : j = i
  · subst same
    rw [Function.update_self] at holding
    cases lock with
    | keeps held => exact guarded j (held holding)
    | takes _ => rfl
    | frees ended => exact absurd holding ended
  · rw [Function.update_of_ne same] at holding
    have held := guarded j holding
    cases lock with
    | keeps _ => exact held
    | takes free => rw [free] at held; cases held
    | frees _ => rw [held, if_neg fun other => same (Option.some.inj other)]

theorem isElected_of_inWork {phase : Phase} (working : phase.inWork) : isElected phase := by
  cases phase <;> simp_all [Phase.inWork, isElected]

/-- The lock is held by the live session that got it, and by no other. -/
@[grind] def Owned (contest : Contest n) : Prop := ∀ i, contest.lock = some i ↔ Holding (contest.replicas i)

theorem Owned.step (owned : Owned contest) (step : contest.Step event next) : Owned next := by
  intro j
  cases event with
  | stop i | restart i =>
    cases step
    simp only [Contest.setReplica, Contest.endSession, Function.update_apply]
    grind [Holding, isElected]
  | acquire i | lockFailed i | start i | noticeStop i | workReturns i | unlock i | lose i =>
    obtain ⟨_, ⟨⟩⟩ := Option.ite_none_right_eq_some.mp step
    simp only [Contest.setReplica, Contest.endSession, Function.update_apply]
    grind [Holding, isElected, isElected_of_inWork]
  | tryLock i | poll i =>
    obtain ⟨_, step⟩ := Option.ite_none_right_eq_some.mp step
    split at step <;> cases step
    all_goals
      try simp only [Contest.setReplica, Function.update_apply]
      grind [Holding, isElected]

/-- **Lock.**  Whatever connections are lost and whichever processes end, the lock is free
    or with the one session that is alive and has got it. -/
theorem lock_owned {events : List (Event n)} (run : Run Contest.Step {} events contest) : Owned contest :=
  run.invariant (fun _ _ _ step owned => owned.step step) fun _ => by simp [Holding, isElected]

/-! ## The runners -/

/-- No two replicas are inside their work. -/
def Exclusive (contest : Contest n) : Prop :=
  ∀ i j, (contest.replicas i).phase.inWork → (contest.replicas j).phase.inWork → i = j

/-- A work is started over a connection that is still alive, and while every other
    replica inside its work has its connection, too. -/
def Fenced (contest : Contest n) : Event n → Prop
  | .start i => (contest.replicas i).connected ∧
      ∀ j, j ≠ i → (contest.replicas j).phase.inWork → (contest.replicas j).connected
  | _ => True

instance (contest : Contest n) (event : Event n) : Decidable (Fenced contest event) :=
  match event with
  | .start _ => inferInstanceAs (Decidable (_ ∧ _))
  | .acquire _ | .tryLock _ | .lockFailed _ | .poll _ | .stop _ | .noticeStop _ | .workReturns _ | .unlock _ | .lose _
  | .restart _ => inferInstanceAs (Decidable True)

theorem alone_of_step (guarded : Guarded contest) (exclusive : Exclusive contest) (fenced : Fenced contest event)
    {i j : Fin n} (entered : (contest.replicas i).phase.inWork ∨
      (event = .start i ∧ (contest.replicas i).phase = .elected))
    (working : (contest.replicas j).phase.inWork) : j = i := by
  cases entered with
  | inl already => exact exclusive j i working already
  | inr starts =>
    obtain ⟨rfl, elected⟩ := starts
    by_contra differ
    -- both have their connections, so both would hold the lock
    have mine := guarded i ⟨by rw [elected]; rfl, fenced.1⟩
    have electedToo : isElected (contest.replicas j).phase := by
      revert working
      cases (contest.replicas j).phase <;> simp [isElected, Phase.inWork]
    have other := guarded j ⟨electedToo, fenced.2 j differ working⟩
    exact differ (Option.some.inj (other.symm.trans mine))

theorem Exclusive.step (guarded : Guarded contest) (exclusive : Exclusive contest) (fenced : Fenced contest event)
    (step : contest.Step event next) : Exclusive next := by
  obtain ⟨i, replica, moved, _, enters⟩ := step_cases step
  intro j k working working'
  rw [moved] at working working'
  by_cases isJ : j = i
  · subst isJ
    rw [Function.update_self] at working
    by_cases isK : k = j
    · exact isK.symm
    · rw [Function.update_of_ne isK] at working'
      exact (alone_of_step guarded exclusive fenced (enters working) working').symm
  · rw [Function.update_of_ne isJ] at working
    by_cases isK : k = i
    · subst isK
      rw [Function.update_self] at working'
      exact alone_of_step guarded exclusive fenced (enters working') working
    · rw [Function.update_of_ne isK] at working'
      exact exclusive j k working working'

/-- In every run that starts works only where they are fenced, at most one replica is
    inside its work at any time. -/
theorem runners_exclude {events : List (Event n)} (run : Run (Restricted Fenced Contest.Step) {} events contest) :
    Exclusive contest := by
  have start : Guarded ({} : Contest n) ∧ Exclusive ({} : Contest n) :=
    ⟨fun _ holding => (nomatch holding.1), fun _ _ working => (nomatch working)⟩
  exact (@Run.invariant _ _ _ (fun contest : Contest n => Guarded contest ∧ Exclusive contest)
    (fun _ _ _ step holds => ⟨holds.1.step step.2, holds.2.step holds.1 step.1 step.2⟩) _ _ _ run start).2

/-! ## A connection that is lost -/

def firstElected : List (Event 2) := [.acquire 0, .tryLock 0, .start 0]

def secondElected : List (Event 2) := [.acquire 1, .tryLock 1, .start 1]

def working (perform : Contest 2 → Event 2 → Option (Contest 2)) (events : List (Event 2)) : Option (List (Fin 2)) :=
  (performAll perform {} events).map fun contest => (List.finRange 2).filter fun i => (contest.replicas i).phase.inWork

theorem mem_working {perform : Contest 2 → Event 2 → Option (Contest 2)} {events : List (Event 2)} {workers : List (Fin 2)}
    (observed : working perform events = some workers) : ∃ contest, performAll perform {} events = some contest ∧
      ∀ i ∈ workers, (contest.replicas i).phase.inWork := by
  obtain ⟨contest, performed, rfl⟩ := Option.map_eq_some_iff.mp observed
  exact ⟨contest, performed, fun i mem => by simpa using (List.mem_filter.mp mem).2⟩

theorem lock_owned_by_first : ∃ contest : Contest 2, Run Contest.Step {} firstElected contest ∧ Owned contest := by
  have observed : working Contest.perform firstElected = some [0] := by decide +kernel
  obtain ⟨contest, performed, _⟩ := mem_working observed
  have run := run_of_performAll performed
  exact ⟨contest, run, lock_owned run⟩

/-- The second replica takes over after the first has noticed the loss of its
    connection. -/
theorem runners_exclude_after_loss :
    ∃ contest : Contest 2, Run (Restricted Fenced Contest.Step) {}
        (firstElected ++ [.lose 0, .poll 0, .workReturns 0, .unlock 0] ++ secondElected) contest ∧
      (contest.replicas 1).phase.inWork ∧ Exclusive contest := by
  have observed : working (fun contest event => if Fenced contest event then contest.perform event else none)
      (firstElected ++ [.lose 0, .poll 0, .workReturns 0, .unlock 0] ++ secondElected) = some [1] := by decide +kernel
  obtain ⟨contest, performed, isWorking⟩ := mem_working observed
  have run := restricted_of_performAll performed
  exact ⟨contest, run, isWorking 1 (List.mem_singleton_self _), runners_exclude run⟩

/-- The second replica is elected before the first polls. -/
theorem two_runners_before_poll :
    ∃ contest : Contest 2, Run Contest.Step {} (firstElected ++ [.lose 0] ++ secondElected) contest ∧
      (contest.replicas 0).phase.inWork ∧ (contest.replicas 1).phase.inWork := by
  have observed : working Contest.perform (firstElected ++ [.lose 0] ++ secondElected) = some [0, 1] := by decide +kernel
  obtain ⟨contest, performed, isWorking⟩ := mem_working observed
  exact ⟨contest, run_of_performAll performed, isWorking 0 (by simp), isWorking 1 (by simp)⟩

end OtelFleet.Verified.SingleRunner
