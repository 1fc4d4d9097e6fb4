import OtelFleet.Semantics.Effect
import OtelFleet.Semantics.Transaction

/-! # Transactions that read before they write

The statements of such a transaction depend on what earlier ones returned, so its
body is a computation on a working copy of the database.  The copy comes with the
number of the next statement, by which faults are given.
-/

namespace OtelFleet.Semantics

variable {δ ε α : Type}

abbrev Body (δ ε α : Type) := Eff (δ × Nat) ε α

namespace Body

variable (faults : Faults ε)

def statement (res : δ → α) (change : δ → δ) : Body δ ε α where
  run := fun (db, n) =>
    match faults n with
    | some err => (.error err, (db, n + 1))
    | none => (.ok (res db), (change db, n + 1))

def select (res : δ → α) : Body δ ε α := statement faults res id

def exec (change : δ → δ) : Body δ ε Unit := statement faults (fun _ => ()) change

variable {faults}

theorem statement_preserves {inv : δ → Prop} {change : δ → δ} (kept : ∀ db, inv db → inv (change db))
    (res : δ → α) : Eff.Preserves (fun world => inv world.1) (statement faults res change) := by
  rintro ⟨db, n⟩ holds
  unfold statement
  dsimp only
  cases faults n with
  | some err => exact holds
  | none => exact kept db holds

theorem select_bind_preserves {β : Type} {inv : δ → Prop} {res : δ → α} {next : α → Body δ ε β}
    (preserves : ∀ db, inv db → Eff.Preserves (fun world => inv world.1) (next (res db))) :
    Eff.Preserves (fun world => inv world.1) (select faults res >>= next) := by
  rintro ⟨db, n⟩ holds
  rw [Eff.run_bind, select, statement]
  dsimp only
  cases faults n with
  | some err => exact holds
  | none => exact preserves db holds _ holds

end Body

/-- `inTx` of a body: `BEGIN` is statement 0, and an error rolls back. -/
def transact (faults : Faults ε) (body : Body δ ε α) (db : δ) : Except ε α × δ :=
  match faults 0 with
  | some err => (.error err, db)
  | none =>
    match body.run (db, 1) with
    | (.error err, _) => (.error err, db)
    | (.ok value, (after, n)) =>
      match faults n with
      | some err => (.error err, db)
      | none => (.ok value, after)

variable {faults : Faults ε} {body : Body δ ε α} {db : δ}

theorem transact_error {err : ε} (failed : (transact faults body db).1 = .error err) :
    (transact faults body db).2 = db := by
  unfold transact at failed ⊢
  split at failed
  · simp_all
  · split at failed
    · simp_all
    · split at failed <;> simp_all

theorem transact_of_error {err : ε} {after : δ × Nat} (ran : body.run (db, 1) = (.error err, after)) :
    ∃ err, transact faults body db = (.error err, db) := by
  unfold transact
  cases faults 0 with
  | some err => exact ⟨err, rfl⟩
  | none =>
    rw [ran]
    exact ⟨err, rfl⟩

theorem transact_of_ok (noFault : ∀ n, faults n = none) {value : α} {after : δ} {n : Nat}
    (ran : body.run (db, 1) = (.ok value, (after, n))) : transact faults body db = (.ok value, after) := by
  simp only [transact, noFault, ran]

theorem transact_preserves {inv : δ → Prop} (preserves : Eff.Preserves (fun world => inv world.1) body)
    (holds : inv db) : inv (transact faults body db).2 := by
  have kept := preserves (db, 1) holds
  unfold transact
  split
  · exact holds
  · split
    · exact holds
    · rename_i ran
      rw [ran] at kept
      split
      · exact holds
      · exact kept

end OtelFleet.Semantics
