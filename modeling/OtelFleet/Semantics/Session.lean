import Mathlib.Data.List.Basic

/-! # Programs in transactions

A session is a program of statements on a database, in transactions.  A statement sees
what was committed when it runs, with the pending changes of its own transaction on top
of it; these become visible to the others when the transaction is committed.  A
statement leaves marks, which its transaction holds until it ends.

`Meets` says what a session does when others act in between.  They are assumed to keep
an invariant of the committed database and to change it along a relation, which depends
on the marks that the session holds; the session promises the same of its own commits.
-/

namespace OtelFleet.Semantics

/-- A program in transactions: `change seen` is the pending change of a statement that
    has seen `seen`. -/
inductive Session (δ κ α : Type) where
  | done (value : α)
  | statement (marks : δ → List κ) (change : δ → δ → δ) (next : δ → Session δ κ α)
  | commit (next : Session δ κ α)
  | rollback (next : Session δ κ α)

variable {δ κ α β ε ι : Type}

namespace Session

def bind : Session δ κ α → (α → Session δ κ β) → Session δ κ β
  | done value, following => following value
  | statement marks change next, following => statement marks change fun seen => (next seen).bind following
  | commit next, following => commit (next.bind following)
  | rollback next, following => rollback (next.bind following)

instance : Monad (Session δ κ) where
  pure := done
  bind := bind

theorem bind_assoc {γ : Type} (first : Session δ κ γ) (second : γ → Session δ κ β) (third : β → Session δ κ α) :
    first >>= second >>= third = first >>= fun value => second value >>= third := by
  change (first.bind second).bind third = first.bind fun value => (second value).bind third
  induction first with
  | done value => rfl
  | statement marks change next ih | commit next ih | rollback next ih => simp only [bind, ih]

theorem bind_pure (session : Session δ κ α) : session >>= pure = session := by
  change session.bind done = session
  induction session with
  | done value => rfl
  | statement marks change next ih | commit next ih | rollback next ih => simp only [bind, ih]

def execute (marks : δ → List κ) (effect : δ → α × (δ → δ)) : Session δ κ α :=
  statement marks (fun seen => (effect seen).2) fun seen => done (effect seen).1

def query (view : δ → α) : Session δ κ α := execute (fun _ => []) fun seen => (view seen, id)

def finish : Except ε α → Session δ κ (Except ε α)
  | .ok value => commit (done (.ok value))
  | .error err => rollback (done (.error err))

def inTx (body : Session δ κ (Except ε α)) : Session δ κ (Except ε α) := body >>= finish

def isDone : Session δ κ α → Bool
  | done _ => true
  | statement _ _ _ | commit _ | rollback _ => false

/-- Whatever the statements see, one that leaves the mark is still to come; if
    `mayFail`, unless a transaction is rolled back before. -/
def Will (mayFail : Prop) (mark : κ) : Session δ κ α → Prop
  | done _ => False
  | statement marks _ next => ∀ seen, mark ∈ marks seen ∨ Will mayFail mark (next seen)
  | commit next => Will mayFail mark next
  | rollback next => mayFail ∨ Will mayFail mark next

variable {first : Session δ κ β} {following : β → Session δ κ α}

section

variable {mayFail : Prop} {mark : κ}

theorem Will.bind (will : Will mayFail mark first) (following : β → Session δ κ α) :
    Will mayFail mark (first >>= following) := by
  induction first with
  | done value => exact will.elim
  | statement marks change next ih =>
    exact fun seen => (will seen).imp_right (ih seen)
  | commit next ih => exact ih will
  | rollback next ih => exact will.imp_right ih

theorem will_bind (first : Session δ κ β)
    (will : ∀ value, Will mayFail mark (following value)) : Will mayFail mark (first >>= following) := by
  induction first with
  | done value => exact will value
  | statement marks change next ih => exact fun seen => Or.inr (ih seen)
  | commit next ih => exact ih
  | rollback next ih => exact Or.inr ih

theorem will_inTx_bind (fails : mayFail) (body : Session δ κ (Except ε β)) {following : Except ε β → Session δ κ α}
    (will : ∀ value, Will mayFail mark (following (.ok value))) : Will mayFail mark (inTx body >>= following) := by
  rw [inTx, bind_assoc]
  apply will_bind
  intro res
  cases res with
  | error err => exact Or.inl fails
  | ok value => exact will value

end

/-- Statements only: the transaction does not end. -/
def Within : Session δ κ α → Prop
  | done _ => True
  | statement _ _ next => ∀ seen, Within (next seen)
  | commit _ | rollback _ => False

theorem within_execute (marks : δ → List κ) (effect : δ → α × (δ → δ)) : Within (execute marks effect) := fun _ => trivial

theorem Within.bind (within : Within first)
    (rest : ∀ value, Within (following value)) : Within (first >>= following) := by
  induction first with
  | done value => exact rest value
  | statement marks change next ih => exact fun seen => ih seen (within seen)
  | commit next | rollback next => exact within.elim

theorem Within.orRefuse {first : Session δ κ (Except ε β)} {following : Except ε β → Session δ κ α} (within : Within first)
    (refused : ∀ err, Within (following (.error err))) (rest : ∀ value, Within (following (.ok value))) :
    Within (first >>= following) := by
  apply within.bind
  intro res
  cases res with
  | error err => exact refused err
  | ok value => exact rest value

/-- What a session promises: what the marks of a statement say, beside those that the
    transaction holds; what a commit gives, by the marks of the transaction, the marks
    that are still to come and the change of the database; and what is lost by a
    rollback. -/
structure Promise (δ κ : Type) where
  notes : List κ → List κ → δ → Prop
  gives : List κ → (κ → Prop) → δ → δ → Prop
  loses : List κ → δ → Prop
  /-- What is owed may be lost by a rollback. -/
  mayFail : Prop
  mono : ∀ {held : List κ} {owed owed' : κ → Prop} {before after : δ}, (∀ mark, owed mark → owed' mark) →
    gives held owed before after → gives held owed' before after

def Promise.owed (guar : Promise δ κ) (session : Session δ κ α) (mark : κ) : Prop := Will guar.mayFail mark session

def Promise.Quiet (guar : Promise δ κ) : Prop := ∀ held marks now, guar.notes held marks now

variable (relation : List κ → δ → δ → Prop)

/-- A promise of commits only, in which nothing is owed. -/
def Promise.of : Promise δ κ where
  notes _ _ _ := True
  gives held _ := relation held
  loses _ _ := True
  mayFail := False
  mono _ given := given

theorem Promise.of_quiet : (Promise.of relation).Quiet := fun _ _ _ => trivial

section

variable (inv : δ → Prop) (rely : List κ → δ → δ → Prop) (guar : Promise δ κ)

/-- From here on, with others committing in between: each commit keeps `inv` and gives
    `guar`, and in the end `post` holds. -/
def Meets (post : α → (δ → δ) → List κ → δ → Prop) : Session δ κ α → (δ → δ) → List κ → δ → Prop
  | done value, pending, held, committed => ∀ now, rely held committed now → inv now → post value pending held now
  | statement marks change next, pending, held, committed => ∀ now, rely held committed now → inv now →
      guar.notes held (marks (pending now)) now ∧ Meets post (next (pending now)) (fun db => change (pending now) (pending db)) (held ++ marks (pending now)) now
  | commit next, pending, held, committed => ∀ now, rely held committed now → inv now →
      guar.gives held (guar.owed next) now (pending now) ∧ inv (pending now) ∧ Meets post next id [] (pending now)
  | rollback next, _, held, committed => ∀ now, rely held committed now → inv now →
      guar.loses held now ∧ Meets post next id [] now

variable {inv rely guar} {post : α → (δ → δ) → List κ → δ → Prop} {pending : δ → δ} {held : List κ} {committed : δ}

theorem Meets.bind {mid : β → (δ → δ) → List κ → δ → Prop} (meets : Meets inv rely guar mid first pending held committed)
    (holds : inv committed)
    (rest : ∀ value pending held now, inv now → (∀ later, rely held now later → inv later → mid value pending held later) →
      Meets inv rely guar post (following value) pending held now) :
    Meets inv rely guar post (first >>= following) pending held committed := by
  induction first generalizing pending held committed with
  | done value => exact rest value pending held committed holds meets
  | statement marks change next ih =>
    intro now moved isInv
    obtain ⟨noted, meetsThen⟩ := meets now moved isInv
    exact ⟨noted, ih _ meetsThen isInv⟩
  | commit next ih =>
    intro now moved isInv
    obtain ⟨given, kept, meetsThen⟩ := meets now moved isInv
    exact ⟨guar.mono (fun _ will => Will.bind will following) given, kept, ih meetsThen kept⟩
  | rollback next ih =>
    intro now moved isInv
    obtain ⟨lost, meetsThen⟩ := meets now moved isInv
    exact ⟨lost, ih meetsThen isInv⟩

theorem Meets.later (transitive : ∀ held a b c, rely held a b → rely held b c → rely held a c) {session : Session δ κ α}
    {now : δ} (meets : Meets inv rely guar post session pending held committed) (moved : rely held committed now) :
    Meets inv rely guar post session pending held now := by
  cases session with
  | done value | statement marks change next | commit next | rollback next =>
    exact fun later movedOn => meets later (transitive held _ _ _ moved movedOn)

/-- What is known of a session at some point: of its pending changes, its marks and the
    committed database. -/
abbrev Assertion (δ κ : Type) := (δ → δ) → List κ → δ → Prop

def Stable (inv : δ → Prop) (rely : List κ → δ → δ → Prop) (assertion : Assertion δ κ) : Prop :=
  ∀ pending held before after, rely held before after → inv before → inv after →
    assertion pending held before → assertion pending held after

/-- From a point where `pre` holds the session keeps its promises, and in the end `post`
    holds. -/
structure Triple (inv : δ → Prop) (rely : List κ → δ → δ → Prop) (guar : Promise δ κ) (pre : Assertion δ κ)
    (session : Session δ κ α) (post : α → Assertion δ κ) : Prop where
  meets : ∀ pending held committed, inv committed → pre pending held committed →
    Meets inv rely guar post session pending held committed

variable {pre : Assertion δ κ} {session : Session δ κ α} {value : α}

theorem triple_pure (stable : Stable inv rely pre)
    (implies : ∀ pending held now, inv now → pre pending held now → post value pending held now) :
    Triple inv rely guar pre (pure value) post :=
  ⟨fun _ _ _ isInv holds _ moved isInvNow => implies _ _ _ isInvNow (stable _ _ _ _ moved isInv isInvNow holds)⟩

theorem triple_pure_always (always : ∀ pending held now, post value pending held now) :
    Triple inv rely guar pre (pure value) post :=
  ⟨fun _ _ _ _ _ _ _ _ => always _ _ _⟩

variable {effect : δ → α × (δ → δ)} {marks : δ → List κ}

theorem triple_noted (stable : Stable inv rely pre)
    (stablePost : ∀ value, Stable inv rely (post value))
    (holds : ∀ pending held now, inv now → pre pending held now → guar.notes held (marks (pending now)) now ∧
      post (effect (pending now)).1 (fun db => (effect (pending now)).2 (pending db)) (held ++ marks (pending now)) now) :
    Triple inv rely guar pre (execute marks effect) post := by
  constructor
  intro pending held committed isInv isPre now moved isInvNow
  obtain ⟨noted, isPost⟩ := holds _ _ _ isInvNow (stable _ _ _ _ moved isInv isInvNow isPre)
  refine ⟨noted, ?_⟩
  intro later movedOn isInvLater
  exact stablePost _ _ _ _ _ movedOn isInvNow isInvLater isPost

theorem triple_execute (quiet : guar.Quiet) (stable : Stable inv rely pre)
    (stablePost : ∀ value, Stable inv rely (post value))
    (holds : ∀ pending held now, inv now → pre pending held now →
      post (effect (pending now)).1 (fun db => (effect (pending now)).2 (pending db)) (held ++ marks (pending now)) now) :
    Triple inv rely guar pre (execute marks effect) post :=
  triple_noted stable stablePost fun pending held now isInv isPre => ⟨quiet _ _ _, holds pending held now isInv isPre⟩

theorem Triple.bind {mid : β → Assertion δ κ} (reflexive : ∀ held a, rely held a a)
    (triple : Triple inv rely guar pre first mid)
    (rest : ∀ value, Triple inv rely guar (mid value) (following value) post) :
    Triple inv rely guar pre (first >>= following) post := by
  constructor
  intro pending held committed isInv isPre
  apply (triple.meets _ _ _ isInv isPre).bind isInv
  intro value pending held now isInvNow isMid
  exact (rest value).meets _ _ _ isInvNow (isMid now (reflexive held now) isInvNow)

theorem Triple.imp {pre' : Assertion δ κ} (triple : Triple inv rely guar pre session post)
    (implies : ∀ pending held now, inv now → pre' pending held now → pre pending held now) :
    Triple inv rely guar pre' session post :=
  ⟨fun _ _ _ isInv isPre => triple.meets _ _ _ isInv (implies _ _ _ isInv isPre)⟩

theorem Triple.given {fact : Prop} (implies : ∀ pending held now, pre pending held now → fact)
    (triple : fact → Triple inv rely guar pre session post) : Triple inv rely guar pre session post :=
  ⟨fun _ _ _ isInv isPre => (triple (implies _ _ _ isPre)).meets _ _ _ isInv isPre⟩

theorem Triple.weaken {post' : α → Assertion δ κ} (triple : Triple inv rely guar pre session post)
    (implies : ∀ value pending held now, inv now → post value pending held now → post' value pending held now) :
    Triple inv rely guar pre session post' := by
  constructor
  intro pending held committed isInv isPre
  rw [← bind_pure session]
  apply (triple.meets _ _ _ isInv isPre).bind isInv
  exact fun _ _ _ _ _ ends later moved isInvLater => implies _ _ _ _ isInvLater (ends later moved isInvLater)

/-- What is pending may be committed if what is owed is still to come, or rolled back if
    the transaction failed. -/
structure EndsOwing (inv : δ → Prop) (guar : Promise δ κ) (owed : α → κ → Prop) (res : Except ε α) (pending : δ → δ)
    (held : List κ) (now : δ) : Prop where
  commits : ∀ value, res = .ok value → guar.gives held (owed value) now (pending now) ∧ inv (pending now)
  fails : ∀ err, res = .error err → guar.loses held now

abbrev Ends (inv : δ → Prop) (guar : Promise δ κ) : Except ε α → Assertion δ κ := EndsOwing inv guar fun _ _ => False

variable {owed : α → κ → Prop}

theorem ends_ok (given : guar.gives held (owed value) committed (pending committed)) (kept : inv (pending committed)) :
    EndsOwing inv guar owed (.ok value : Except ε α) pending held committed :=
  ⟨fun _ same => (Except.ok.inj same) ▸ ⟨given, kept⟩, fun _ isError => nomatch isError⟩

theorem triple_error {err : ε} (free : ∀ held now, guar.loses held now) :
    Triple inv rely guar pre (pure (.error err)) (EndsOwing inv guar owed) :=
  triple_pure_always fun _ held now => ⟨fun _ isOk => (nomatch isOk), fun _ _ => free held now⟩

def Idle : Assertion δ κ := fun pending held _ => pending = id ∧ held = []

variable {following : Except ε β → Session δ κ α} {owed : β → κ → Prop}

/-- A transaction keeps its promises if its body ends where they can be kept, and what
    is owed comes in what follows. -/
theorem triple_inTx_bind {body : Session δ κ (Except ε β)}
    (triple : Triple inv rely guar pre body (EndsOwing inv guar owed))
    (will : ∀ value mark, owed value mark → guar.owed (following (.ok value)) mark)
    (rest : ∀ res, Triple inv rely guar Idle (following res) post) :
    Triple inv rely guar pre (inTx body >>= following) post := by
  rw [inTx, bind_assoc]
  constructor
  intro pending held committed isInv isPre
  apply (triple.meets _ _ _ isInv isPre).bind isInv
  intro res pending held now _ ends
  cases res with
  | error err =>
    intro later moved isInvLater
    exact ⟨(ends later moved isInvLater).fails err rfl, (rest _).meets _ _ _ isInvLater ⟨rfl, rfl⟩⟩
  | ok value =>
    intro later moved isInvLater
    obtain ⟨given, kept⟩ := (ends later moved isInvLater).commits value rfl
    exact ⟨guar.mono (will value) given, kept, (rest _).meets _ _ _ kept ⟨rfl, rfl⟩⟩

theorem triple_inTx {body : Session δ κ (Except ε α)} (triple : Triple inv rely guar pre body (Ends inv guar)) :
    Triple inv rely guar pre (inTx body) fun _ => Idle := by
  rw [← bind_pure (inTx body)]
  apply triple_inTx_bind triple (fun _ _ => False.elim)
  exact fun _ => triple_pure (fun _ _ _ _ _ _ _ idle => idle) fun _ _ _ _ idle => idle

/-- The session is one transaction, and its body ends where the promises can be kept. -/
def Transacts (inv : δ → Prop) (rely : List κ → δ → δ → Prop) (guar : Promise δ κ) (pre : Assertion δ κ) (owed : α → κ → Prop)
    (session : Session δ κ (Except ε α)) : Prop :=
  ∃ body, session = inTx body ∧ Within body ∧ Triple inv rely guar pre body (EndsOwing inv guar owed)

theorem Transacts.bind {session : Session δ κ (Except ε β)} (transacts : Transacts inv rely guar pre owed session)
    (will : ∀ value mark, owed value mark → guar.owed (following (.ok value)) mark)
    (rest : ∀ res, Triple inv rely guar Idle (following res) post) :
    Triple inv rely guar pre (session >>= following) post := by
  obtain ⟨body, rfl, _, triple⟩ := transacts
  exact triple_inTx_bind triple will rest

theorem Transacts.triple {session : Session δ κ (Except ε α)} (transacts : Transacts inv rely guar pre (fun _ _ => False) session) :
    Triple inv rely guar pre session fun _ => Idle := by
  obtain ⟨body, rfl, _, triple⟩ := transacts
  exact triple_inTx triple

end

end Session

end OtelFleet.Semantics
