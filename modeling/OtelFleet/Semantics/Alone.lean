import OtelFleet.Semantics.Session

/-! # Sessions that run alone

What a session comes to when no other one acts in between.  A triple says what holds at
the end of such a run, and a transaction that keeps its promises either commits them or
leaves the database as it was.
-/

namespace OtelFleet.Semantics.Session

variable {δ κ α β ε : Type}

/-- The result, the pending changes and the marks of a transaction that is open, the
    committed database, and the marks of the transactions that were committed. -/
structure Solo (δ κ α : Type) where
  value : α
  pending : δ → δ
  held : List κ
  committed : δ
  commits : List (List κ)

def alone : Session δ κ α → (δ → δ) → List κ → δ → Solo δ κ α
  | done value, pending, held, committed => ⟨value, pending, held, committed, []⟩
  | statement marks change next, pending, held, committed =>
    let seen := pending committed
    (next seen).alone (fun db => change seen (pending db)) (held ++ marks seen) committed
  | commit next, pending, held, committed =>
    let rest := next.alone id [] (pending committed)
    { rest with commits := held :: rest.commits }
  | rollback next, _, _, committed => next.alone id [] committed

def Solo.following (start : Solo δ κ β) (next : β → Session δ κ α) : Solo δ κ α :=
  let rest := (next start.value).alone start.pending start.held start.committed
  { rest with commits := start.commits ++ rest.commits }

theorem alone_bind (first : Session δ κ β) (next : β → Session δ κ α) (pending : δ → δ) (held : List κ) (committed : δ) :
    (first >>= next).alone pending held committed = (first.alone pending held committed).following next := by
  change (first.bind next).alone pending held committed = _
  induction first generalizing pending held committed with
  | done value => rfl
  | statement marks change rest ih => exact ih _ _ _ _
  | commit rest ih =>
    simp only [bind, alone, ih]
    rfl
  | rollback rest ih => exact ih _ _ _

@[simp] theorem alone_pure (value : α) (pending : δ → δ) (held : List κ) (committed : δ) :
    (pure value : Session δ κ α).alone pending held committed = ⟨value, pending, held, committed, []⟩ := rfl

@[simp] theorem alone_execute (marks : δ → List κ) (effect : δ → α × (δ → δ)) (pending : δ → δ) (held : List κ) (committed : δ) :
    (execute marks effect).alone pending held committed =
      ⟨(effect (pending committed)).1, fun db => (effect (pending committed)).2 (pending db), held ++ marks (pending committed),
        committed, []⟩ := rfl

theorem alone_inTx (body : Session δ κ (Except ε α)) (pending : δ → δ) (held : List κ) (committed : δ) :
    (inTx body).alone pending held committed = (body.alone pending held committed).following finish :=
  alone_bind body finish pending held committed

section

variable {session : Session δ κ α} {pending : δ → δ} {held : List κ} {committed : δ}

theorem Within.alone (within : Within session) (pending : δ → δ) (held : List κ) (committed : δ) :
    (session.alone pending held committed).committed = committed ∧ (session.alone pending held committed).commits = [] := by
  induction session generalizing pending held with
  | done value => exact ⟨rfl, rfl⟩
  | statement marks change next ih => exact ih _ (within _) _ _
  | commit next | rollback next => exact within.elim

theorem Within.held_alone (within : Within session) {mark : κ} (isHeld : mark ∈ held) :
    mark ∈ (session.alone pending held committed).held := by
  induction session generalizing pending held with
  | done value => exact isHeld
  | statement marks change next ih => exact ih _ (within _) (List.mem_append_left _ isHeld)
  | commit next | rollback next => exact within.elim

theorem Within.will_alone {mayFail : Prop} {mark : κ} (within : Within session) {next : α → Session δ κ β}
    (will : Will mayFail mark (session >>= next)) (pending : δ → δ) (held : List κ) (committed : δ) :
    mark ∈ (session.alone pending held committed).held ∨ Will mayFail mark (next (session.alone pending held committed).value) := by
  change Will mayFail mark (session.bind next) at will
  induction session generalizing pending held with
  | done value => exact Or.inr will
  | statement marks change rest ih =>
    rcases will (pending committed) with isLeft | willThen
    · exact Or.inl ((within _).held_alone (List.mem_append_right _ isLeft))
    · exact ih _ (within _) _ _ willThen
  | commit rest | rollback rest => exact within.elim

variable {inv : δ → Prop} {rely : List κ → δ → δ → Prop} {guar : Promise δ κ} {noted : List κ → δ → Prop}

theorem Meets.alone {post : α → (δ → δ) → List κ → δ → Prop} (reflexive : ∀ held a, rely held a a)
    (more : ∀ held marks now, noted held now → guar.notes held marks now → noted (held ++ marks) now) (within : Within session)
    (meets : Meets inv rely guar post session pending held committed) (holds : inv committed) (isNoted : noted held committed) :
    post (session.alone pending held committed).value (session.alone pending held committed).pending
        (session.alone pending held committed).held committed ∧
      noted (session.alone pending held committed).held committed := by
  induction session generalizing pending held with
  | done value => exact ⟨meets _ (reflexive _ _) holds, isNoted⟩
  | statement marks change next ih =>
    obtain ⟨notes, meetsThen⟩ := meets _ (reflexive _ _) holds
    exact ih _ (within _) meetsThen (more _ _ _ isNoted notes)
  | commit next | rollback next => exact within.elim

end

/-- What a transaction comes to that keeps its promises. -/
inductive Transacted (guar : Promise δ κ) (owed : α → κ → Prop) (held : List κ) (db : δ) : Solo δ κ (Except ε α) → Prop where
  | committed {value : α} {after : δ} (given : guar.gives held (owed value) db after) :
      Transacted guar owed held db ⟨.ok value, id, [], after, [held]⟩
  | refused {err : ε} (lost : guar.loses held db) : Transacted guar owed held db ⟨.error err, id, [], db, []⟩

theorem Transacts.alone {inv : δ → Prop} {rely : List κ → δ → δ → Prop} {guar : Promise δ κ} {owed : α → κ → Prop}
    {session : Session δ κ (Except ε α)} {noted : List κ → δ → Prop} {db : δ} (reflexive : ∀ held a, rely held a a)
    (more : ∀ held marks now, noted held now → guar.notes held marks now → noted (held ++ marks) now)
    (transacts : Transacts inv rely guar Idle owed session) (holds : inv db) (nothing : noted [] db) :
    ∃ held, noted held db ∧ (∀ mark, Will False mark session → mark ∈ held) ∧
      Transacted guar owed held db (session.alone id [] db) := by
  obtain ⟨body, rfl, within, triple⟩ := transacts
  obtain ⟨ends, isNoted⟩ := (triple.meets id [] db holds ⟨rfl, rfl⟩).alone reflexive more within holds nothing
  have will := fun mark (will : Will False mark (inTx body)) => within.will_alone will id [] db
  obtain ⟨same, none⟩ := within.alone id [] db
  refine ⟨_, isNoted, ?_, ?_⟩
  · intro mark willMark
    refine (will mark willMark).resolve_right ?_
    cases (body.alone id [] db).value with
    | error err => exact fun lost => lost.elim False.elim False.elim
    | ok value => exact False.elim
  · rw [inTx, alone_bind]
    revert ends same none
    generalize body.alone id [] db = solo
    obtain ⟨value, pending, held, committed, commits⟩ := solo
    rintro ends rfl rfl
    cases value with
    | error err => exact .refused (ends.fails err rfl)
    | ok value => exact .committed (ends.commits value rfl).1

end OtelFleet.Semantics.Session
