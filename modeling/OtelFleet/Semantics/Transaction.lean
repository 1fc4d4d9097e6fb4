import Mathlib.Data.List.Basic

/-! # Transactions with failing statements

A transaction is a list of statements, each of which takes the database to its
next state or refuses.  Beside the refusals a statement, the `BEGIN` and the
`COMMIT` may fail for reasons of their own: `faults n` is the error of the
`n`-th of them.  A transaction that fails anywhere leaves the database as it
was.
-/

namespace OtelFleet.Semantics

variable {δ ε : Type*}

/-- A statement on a database of type `δ` with errors in `ε`. -/
abbrev Statement (δ ε : Type*) := δ → Except ε δ

/-- The error of each statement that fails by itself, by its number. -/
abbrev Faults (ε : Type*) := Nat → Option ε

/-- The statements from number `n` on, and the `COMMIT` after them. -/
def runStatements (faults : Faults ε) : Nat → List (Statement δ ε) → Statement δ ε
  | n, [], db => (faults n).elim (.ok db) .error
  | n, statement :: rest, db =>
    match faults n with
    | some err => .error err
    | none => (statement db).bind (runStatements faults (n + 1) rest)

/-- `inTx`: the `BEGIN` is statement 0, and an error rolls back. -/
def inTx (faults : Faults ε) (statements : List (Statement δ ε)) (db : δ) : Except ε Unit × δ :=
  match faults 0 with
  | some err => (.error err, db)
  | none =>
    match runStatements faults 1 statements db with
    | .error err => (.error err, db)
    | .ok committed => (.ok (), committed)

def runAll (statements : List (Statement δ ε)) (db : δ) : Except ε δ :=
  statements.foldlM (fun db statement => statement db) db

/-- No `BEGIN`, statement or `COMMIT` of a transaction of this length fails. -/
def FaultFree (faults : Faults ε) (statements : Nat) : Prop := ∀ n < statements + 2, faults n = none

theorem runStatements_ok_iff {faults : Faults ε} {statements : List (Statement δ ε)} {n : Nat}
    {db committed : δ} : runStatements faults n statements db = .ok committed ↔
      (∀ m < statements.length + 1, faults (n + m) = none) ∧ runAll statements db = .ok committed := by
  induction statements generalizing n db with
  | nil => cases fault : faults n <;> simp [runStatements, runAll, fault, pure, Except.pure]
  | cons statement rest ih =>
    have shift : (∀ m < rest.length + 1 + 1, faults (n + m) = none) ↔
        faults n = none ∧ ∀ m < rest.length + 1, faults (n + 1 + m) = none := by
      rw [Nat.forall_lt_succ_left]
      simp only [Nat.add_zero, Nat.add_right_comm, Nat.add_assoc]
    rw [List.length_cons, shift, runStatements]
    cases fault : faults n with
    | some err => simp
    | none =>
      cases res : statement db with
      | error err => simp [runAll, res, bind, Except.bind]
      | ok next =>
        simp only [Except.bind, ih]
        simp [runAll, res, bind, Except.bind]

section

variable {faults : Faults ε} {statements : List (Statement δ ε)} {db : δ}

theorem faultFree_iff {n : Nat} : FaultFree faults n ↔ faults 0 = none ∧ ∀ m < n + 1, faults (1 + m) = none := by
  rw [FaultFree, Nat.forall_lt_succ_left]
  simp only [Nat.add_comm 1]

/-- A transaction commits what its statements leave, provided none of them fails
    or refuses. -/
theorem inTx_ok {committed : δ} (faultFree : FaultFree faults statements.length) (ran : runAll statements db = .ok committed) :
    inTx faults statements db = (.ok (), committed) := by
  obtain ⟨begun, rest⟩ := faultFree_iff.mp faultFree
  rw [inTx, begun, runStatements_ok_iff.mpr ⟨rest, ran⟩]

/-- Otherwise it reports an error and changes nothing. -/
theorem inTx_error (failed : ¬ (FaultFree faults statements.length ∧ ∃ committed, runAll statements db = .ok committed)) :
    ∃ err, inTx faults statements db = (.error err, db) := by
  unfold inTx
  cases begun : faults 0 with
  | some err => exact ⟨err, rfl⟩
  | none =>
    cases res : runStatements faults 1 statements db with
    | error err => exact ⟨err, rfl⟩
    | ok committed =>
      obtain ⟨rest, ran⟩ := runStatements_ok_iff.mp res
      exact absurd ⟨faultFree_iff.mpr ⟨begun, rest⟩, committed, ran⟩ failed

end

theorem inTx_cases (faults : Faults ε) (statements : List (Statement δ ε)) (db : δ) :
    (∃ committed, runAll statements db = .ok committed ∧ inTx faults statements db = (.ok (), committed)) ∨
    ∃ err, inTx faults statements db = (.error err, db) := by
  by_cases succeeds : FaultFree faults statements.length ∧ ∃ committed, runAll statements db = .ok committed
  · obtain ⟨faultFree, committed, ran⟩ := succeeds
    exact Or.inl ⟨committed, ran, inTx_ok faultFree ran⟩
  · exact Or.inr (inTx_error succeeds)

section

variable {inv : δ → Prop} {statements : List (Statement δ ε)}
variable (preserves : ∀ statement ∈ statements, ∀ db after, statement db = .ok after → inv db → inv after)
include preserves

theorem runAll_preserves {db committed : δ} (res : runAll statements db = .ok committed) (holds : inv db) :
    inv committed := by
  induction statements generalizing db with
  | nil =>
    cases res
    exact holds
  | cons statement rest ih =>
    have unfolded : runAll (statement :: rest) db = (statement db).bind (runAll rest) := rfl
    rw [unfolded] at res
    cases next : statement db with
    | error err =>
      rw [next] at res
      cases res
    | ok after =>
      rw [next] at res
      have kept := preserves statement List.mem_cons_self db after next holds
      exact ih (fun other mem => preserves other (List.mem_cons_of_mem _ mem)) res kept

/-- What every statement preserves, the transaction preserves. -/
theorem inTx_preserves (faults : Faults ε) {db : δ} (holds : inv db) : inv (inTx faults statements db).2 := by
  rcases inTx_cases faults statements db with ⟨committed, res, left⟩ | ⟨err, left⟩
  · rw [left]
    exact runAll_preserves preserves res holds
  · rw [left]
    exact holds

end

theorem audited_preserves {inv : δ → Prop} {change : Statement δ ε} {audit : δ → δ} (faults : Faults ε)
    (changed : ∀ db after, change db = .ok after → inv db → inv after) (audited : ∀ db, inv db → inv (audit db)) {db : δ}
    (holds : inv db) : inv (inTx faults [change, fun db => .ok (audit db)] db).2 := by
  apply inTx_preserves _ faults holds
  simp only [List.forall_mem_cons]
  refine ⟨changed, ?_, by simp⟩
  intro db after written
  cases written
  exact audited db

variable {τ : Type*} {view : δ → τ} {statements : List (Statement δ ε)}
variable (keeps : ∀ statement ∈ statements, ∀ db after, statement db = .ok after → view after = view db)
include keeps

theorem runAll_keeps {db committed : δ} (res : runAll statements db = .ok committed) :
    view committed = view db :=
  @runAll_preserves _ _ (fun after => view after = view db) _
    (fun statement mem before after step kept => (keeps statement mem before after step).trans kept) _ _ res rfl

/-- What every statement leaves alone, the transaction leaves alone. -/
theorem inTx_keeps (faults : Faults ε) (db : δ) : view (inTx faults statements db).2 = view db :=
  @inTx_preserves _ _ (fun after => view after = view db) _
    (fun statement mem before after step kept => (keeps statement mem before after step).trans kept) faults _ rfl

end OtelFleet.Semantics
