import OtelFleet.Verified.ServiceRuns

/-! # Pipeline scope under store failures

The access check of the pipeline handlers lets a request pass when its own load
of the pipeline fails, and the operation then loads the pipeline again.  For a
principal without access to the pipeline's customer this module determines, for
every pattern of failing store calls, whether an operation changes the store,
starts a rollout or reveals content.
-/

namespace OtelFleet.Verified.PipelineScope

open Data Store Semantics Pipelines Api
open Verified.ServiceRuns

/-! ## What a request must not do -/

def Untouched (before after : World) : Prop :=
  after.db = before.db ∧ after.distributed = before.distributed ∧ after.notified = before.notified

def Silent : ApiError → Prop
  | .forbidden _ | .notFound _ | .internal => True
  | .badRequest _ | .conflict _ => False

def ContentFree {α : Type} (content : α → Prop) (res : Except ApiError α) : Prop :=
  match res with
  | .ok value => ¬ content value
  | .error err => Silent err

/-- A validation result has content once it carries the rendered fragment. -/
def versionContent : CreateVersionResponse → Prop
  | .invalid res => res.renderedYaml ≠ none
  | .created _ => True

/-- The run of a handler that leaves the world alone and reveals nothing. -/
def Harmless {α : Type} (content : α → Prop) (handler : HandlerM α) (world : World) : Prop :=
  Untouched world (handler.run world).2 ∧ ContentFree content (handler.run world).1

theorem untouched_tick (world : World) : Untouched world (tick world) := ⟨rfl, rfl, rfl⟩

theorem Untouched.trans {first second third : World} (left : Untouched first second)
    (right : Untouched second third) : Untouched first third :=
  ⟨right.1.trans left.1, right.2.1.trans left.2.1, right.2.2.trans left.2.2⟩

variable {before after : World}

variable {db : PipelineTables}

theorem not_untouched_of_logged {env : ServiceEnv} (before world : World) {α β : Type}
    {run : PipelineTables → Except StoreError (α × PipelineTables)} {next : α → ServiceM β} {value : α}
    {entry : AuditEntry} (same : world.db = before.db) (clear : env.faults world.calls = none)
    (ran : run world.db = .ok (value, db)) (logged : db.auditLog = world.db.auditLog ++ [entry])
    (keeps : ∀ value, Eff.Keeps World.db (next value)) :
    ¬ Untouched before ((storeCall env run >>= next).run world).2 := by
  simp only [Eff.run_bind, run_storeCall, clear, ran]
  have kept := keeps value { tick world with db }
  intro untouched
  have unchanged : db = before.db := kept.symm.trans untouched.1
  rw [unchanged, same] at logged
  exact absurd logged (by simp)

/-! ## The access check -/

section

variable {env : ServiceEnv} {p : Principal} {world : World} {pipelineID : Uuid} {pipe : Pipeline}

/-- The principal is limited to customers that the pipeline does not belong to. -/
structure Foreign (p : Principal) (db : PipelineTables) (pipelineID : Uuid) (pipe : Pipeline) : Prop where
  limited : p.allCustomers = false
  found : db.getPipeline pipelineID = .ok pipe
  outside : pipe.customerID ∉ p.allowedCustomers

section

variable (foreign : Foreign p world.db pipelineID pipe)
include foreign

theorem run_requirePipelineAccess :
    (requirePipelineAccess env (some p) pipelineID).run world =
      match env.faults world.calls with
      | some _ => (.ok (), tick world)
      | none => (.error (.forbidden "you do not have access to this customer"), tick world) := by
  have isScoped : customerScope (some p) = some p.allowedCustomers := by
    simp [customerScope, foreign.limited]
  simp only [requirePipelineAccess, isScoped, Eff.run_attempt_bind, run_query, foreign.found]
  cases env.faults world.calls with
  | some msg => rfl
  | none => simp [Except.mapError, requireCustomerAccess, Principal.canAccessCustomer, foreign.limited, foreign.outside]

theorem harmless_iff {α : Type} {content : α → Prop} (rest : HandlerM α) :
    Harmless content (requirePipelineAccess env (some p) pipelineID >>= fun _ => rest) world ↔
      env.faults world.calls = none ∨ Harmless content rest (tick world) := by
  rw [Harmless, Eff.run_bind, run_requirePipelineAccess foreign]
  cases env.faults world.calls with
  | none => exact iff_of_true ⟨untouched_tick world, trivial⟩ (Or.inl rfl)
  | some msg => exact ⟨Or.inr, fun harmless => harmless.resolve_left (by simp)⟩

end

/-! ## Deleting -/

theorem getPipeline_row {pipelineID : Uuid} {pipe : Pipeline} (found : db.getPipeline pipelineID = .ok pipe) :
    ∃ row, db.pipelines.find? (fun row => row.id = pipelineID) = some row ∧
      db.joinPipeline row = some pipe := by
  unfold PipelineTables.getPipeline at found
  split at found
  next joined bound =>
    cases found
    exact Option.bind_eq_some_iff.mp bound
  next => cases found

theorem exists_pipeline (found : db.getPipeline pipelineID = .ok pipe) : ∃ row ∈ db.pipelines, row.id = pipelineID := by
  obtain ⟨row, isRow, _⟩ := getPipeline_row found
  exact ⟨row, List.mem_of_find?_eq_some isRow, by simpa using List.find?_some isRow⟩

theorem deletePipeline_ok (found : db.getPipeline pipelineID = .ok pipe) (entry : AuditEntry) :
    ∃ after, db.deletePipeline pipelineID [entry] = .ok ((), after) ∧
      after.auditLog = db.auditLog ++ [entry] := by
  rw [PipelineTables.deletePipeline, if_pos (exists_pipeline found)]
  exact ⟨_, rfl, rfl⟩

theorem harmless_delete_iff [PrintTable] (foreign : Foreign p world.db pipelineID pipe) :
    Harmless (fun _ => False) (callService (notFoundOr "pipeline not found") (deletePipeline env pipelineID))
      world ↔ env.faults world.calls ≠ none ∨ env.faults (world.calls + 1) ≠ none := by
  rw [Harmless, run_callService, deletePipeline, Eff.run_bind, run_query]
  cases env.faults world.calls with
  | some msg => exact iff_of_true ⟨untouched_tick world, trivial⟩ (Or.inl (by simp))
  | none =>
    simp only [foreign.found, Except.mapError]
    cases second : env.faults (world.calls + 1) with
    | some msg =>
      have second' : env.faults (tick world).calls = some msg := second
      rw [Eff.run_bind, run_storeCall, second']
      exact iff_of_true ⟨(untouched_tick world).trans (untouched_tick _), trivial⟩ (Or.inr (by simp))
    | none =>
      have second' : env.faults (tick world).calls = none := second
      obtain ⟨after, deleted, logged⟩ := deletePipeline_ok foreign.found _
      refine iff_of_false (fun harmless => ?_) (by simp)
      refine not_untouched_of_logged world (tick world) rfl second' deleted logged (fun _ => ?_) harmless.1
      split
      · exact (rollOut_keeps_db env pipe).attempt.bind fun _ => Eff.keeps_pure ()
      · exact Eff.keeps_pure ()

/-! ## Reading a version -/

def Readable (db : PipelineTables) (pipelineID : Uuid) (version : Nat) : Prop :=
  ∃ found graph, db.getPipelineVersion pipelineID version = .ok found ∧ parseGraph found.row.graph = .ok graph

theorem harmless_read_iff (version : Nat) :
    Harmless (fun _ => True) (do
      let found ← callService (notFoundOr "version not found")
        (query env fun db => db.getPipelineVersion pipelineID version)
      Eff.ofExcept ((toVersion found).mapError fun _ => .internal)) world ↔
      env.faults world.calls ≠ none ∨ ¬ Readable world.db pipelineID version := by
  rw [Harmless, Eff.run_bind, run_callService, run_query]
  cases env.faults world.calls with
  | some msg => exact iff_of_true ⟨untouched_tick world, trivial⟩ (Or.inl (by simp))
  | none =>
    cases loaded : world.db.getPipelineVersion pipelineID version with
    | error err =>
      refine iff_of_true ⟨untouched_tick world, ?_⟩ (Or.inr ?_)
      · cases err <;> trivial
      · rintro ⟨found, _, present, _⟩
        rw [loaded] at present
        cases present
    | ok found =>
      cases parsed : parseGraph found.row.graph with
      | error msg =>
        refine iff_of_true ⟨untouched_tick world, ?_⟩ (Or.inr ?_)
        · simp [toVersion, parsed, Except.mapError, ContentFree, Silent]
        · rintro ⟨other, graph, present, decoded⟩
          rw [loaded, Except.ok.injEq] at present
          rw [← present, parsed] at decoded
          cases decoded
      | ok graph =>
        refine iff_of_false (fun harmless => ?_) ?_
        · simp [toVersion, parsed, Except.mapError, ContentFree] at harmless
        · simp [Readable, loaded, parsed]

/-! ## Activating -/

theorem getPipelineVersion_error {version : Nat} {err : StoreError}
    (missing : db.getPipelineVersion pipelineID version = .error err) : err = .notFound := by
  unfold PipelineTables.getPipelineVersion at missing
  split at missing
  · cases missing
  · cases missing
    rfl

theorem getPipeline_setActiveVersion (found : db.getPipeline pipelineID = .ok pipe) (versionID : Uuid)
    (entry : AuditEntry) :
    ∃ after, ((db.setActiveVersion pipelineID versionID).writeAudit [entry]).getPipeline pipelineID = .ok after := by
  obtain ⟨row, isRow, joined⟩ := getPipeline_row found
  obtain ⟨customer, isCustomer, _⟩ := Option.map_eq_some_iff.mp joined
  let activated row : PipelineRow :=
    if row.id = pipelineID then { row with activeVersionID := some versionID } else row
  have sameID : (fun row => decide (row.id = pipelineID)) ∘ activated = fun row => decide (row.id = pipelineID) := by
    funext row
    simp only [activated, Function.comp]
    split <;> rfl
  have sameCustomer : (activated row).customerID = row.customerID := by
    simp only [activated]
    split <;> rfl
  have isRow' : ((db.setActiveVersion pipelineID versionID).writeAudit [entry]).pipelines.find?
      (fun row => row.id = pipelineID) = some (activated row) := by
    refine List.find?_map.trans ?_
    rw [sameID, isRow]
    rfl
  have isCustomer' : ((db.setActiveVersion pipelineID versionID).writeAudit [entry]).customer
      (activated row).customerID = some customer := by
    rw [sameCustomer]
    exact isCustomer
  rw [PipelineTables.getPipeline, isRow', Option.bind_some, PipelineTables.joinPipeline, isCustomer']
  exact ⟨_, rfl⟩

theorem activatePipelineVersion_ok {version : Nat} {found : PipelineVersion}
    (pipeline : db.getPipeline pipelineID = .ok pipe) (loaded : db.getPipelineVersion pipelineID version = .ok found)
    (valid : found.row.valid) (entry : AuditEntry) :
      ∃ pipe' after, db.activatePipelineVersion pipelineID version [entry] = .ok (pipe', after) ∧
      after.auditLog = db.auditLog ++ [entry] := by
  obtain ⟨pipe', readBack⟩ := getPipeline_setActiveVersion pipeline found.row.id entry
  refine ⟨pipe', (db.setActiveVersion pipelineID found.row.id).writeAudit [entry], ?_, rfl⟩
  simp only [PipelineTables.activatePipelineVersion, loaded, valid, not_true_eq_false, if_false, readBack]

theorem harmless_activate_iff [PrintTable] (foreign : Foreign p world.db pipelineID pipe) (version : Nat) :
    Harmless (fun _ => True) (do
      let (_, rollout) ← callService activateError (activate env pipelineID version)
      return (⟨version, rollout.state, rollout.detail⟩ : RolloutResponse)) world ↔
      env.faults world.calls ≠ none ∨ ∀ found, world.db.getPipelineVersion pipelineID version ≠ .ok found := by
  cases fault : env.faults world.calls with
  | some msg =>
    simp only [Harmless, Eff.run_bind, run_callService, activate, run_storeCall, fault]
    exact iff_of_true ⟨untouched_tick world, trivial⟩ (Or.inl (by simp))
  | none =>
    cases loaded : world.db.getPipelineVersion pipelineID version with
    | error err =>
      simp only [Harmless, Eff.run_bind, run_callService, activate, run_storeCall, fault,
        PipelineTables.activatePipelineVersion, loaded, getPipelineVersion_error loaded]
      exact iff_of_true ⟨untouched_tick world, trivial⟩ (Or.inr (by simp))
    | ok found =>
      refine iff_of_false (fun harmless => ?_) (by simp)
      by_cases valid : found.row.valid
      · obtain ⟨pipe', after, activated, logged⟩ := activatePipelineVersion_ok foreign.found loaded valid _
        have touched := harmless.1
        rw [Eff.snd_run_bind (fun _ _ => rfl), run_callService] at touched
        refine not_untouched_of_logged world world rfl fault activated logged (fun pipe => ?_) touched
        refine (rollOut_keeps_db env pipe).attempt.bind fun res => ?_
        cases res with
        | ok rollout => exact Eff.keeps_pure _
        | error err => exact Eff.keeps_ofExcept _
      · -- the answer says that the version is not valid
        simp [Harmless, Eff.run_bind, run_callService, activate, run_storeCall, fault,
          PipelineTables.activatePipelineVersion, loaded, valid] at harmless
        exact harmless.2

/-! ## Creating a version -/

/-- The insert of a new version that starts with the `n`th call goes through. -/
def Insertable (env : ServiceEnv) (db : PipelineTables) (n : Nat) : Prop :=
  env.faults n = none ∧ ∀ version ∈ db.versions, version.id ≠ env.newID

/-- Creating a version from the `n`th call on gets a rendered fragment out or a
    version in. -/
def Discloses [PrintTable] (env : ServiceEnv) (db : PipelineTables) (pipelineID : Uuid) (graph : Graph)
    (n : Nat) : Prop :=
  ∃ pipe prev m stored plain others,
    Reaches env db pipelineID graph n pipe prev m stored plain others ∧
      validateStructural env.validator.schemas plain = [] ∧
      (env.validator.Rejects pipe.targetClass (candidateOf pipe plain) others ∨ Insertable env db (m + 1))

def HarmlessOutcome (before : World) (outcome : Except ServiceError CreatedVersion × World) : Prop :=
  Untouched before outcome.2 ∧
    ContentFree versionContent ((outcome.1.mapError (notFoundOr "pipeline not found")).bind versionResponse)

theorem harmless_create_outcome [PrintTable] (pipelineID : Uuid) (graph : Graph) :
    Harmless versionContent (createVersionResponse env pipelineID graph) world ↔
      HarmlessOutcome world ((createVersion env pipelineID graph).run world) := by
  rw [Harmless, run_createVersionResponse]
  rfl

theorem harmlessOutcome_error (untouched : Untouched before after) (err : ServiceError) :
    HarmlessOutcome before (.error err, after) := by
  cases err with
  | store err => cases err <;> trivial
  | other msg => trivial

theorem harmlessOutcome_invalid (untouched : Untouched before after) (res : Result) :
    HarmlessOutcome before (.ok (.invalid res), after) ↔ res.renderedYAML = none := by
  refine ⟨fun harmless => not_not.mp harmless.2, fun empty => ⟨untouched, ?_⟩⟩
  exact not_not.mpr empty

theorem createPipelineVersion_ok (found : db.getPipeline pipelineID = .ok pipe) {new : VersionRow}
    (samePipeline : new.pipelineID = pipelineID) (fresh : ∀ version ∈ db.versions, version.id ≠ new.id)
    (entry : AuditEntry) : ∃ created after, db.createPipelineVersion new [entry] = .ok (created, after) ∧
      after.auditLog = db.auditLog ++ [entry] := by
  obtain ⟨row, isRow, _⟩ := getPipeline_row found
  have present : ∃ row ∈ db.pipelines, row.id = new.pipelineID := samePipeline ▸ exists_pipeline found
  have notTaken : ¬ ∃ version ∈ db.versions, version.id = new.id := by
    rintro ⟨version, isVersion, same⟩
    exact fresh version isVersion same
  let version := { new with version := (db.latestVersion new.pipelineID).getD 0 + 1 }
  let after := { db with versions := db.versions ++ [version] }.writeAudit [entry]
  have joins : ∃ joined, after.joinVersion version = some joined := by
    simp [after, version, PipelineTables.joinVersion, PipelineTables.writeAudit, samePipeline, isRow]
  obtain ⟨joined, isJoined⟩ := joins
  refine ⟨joined, after, ?_, rfl⟩
  rw [PipelineTables.createPipelineVersion, if_pos present, if_neg notTaken]
  simp only [version, after] at isJoined
  simp only [isJoined]
  rfl

theorem getPipeline_id (found : db.getPipeline pipelineID = .ok pipe) : pipe.id = pipelineID := by
  obtain ⟨row, isRow, joined⟩ := getPipeline_row found
  obtain ⟨customer, _, isPipe⟩ := Option.map_eq_some_iff.mp joined
  rw [← isPipe]
  simpa using List.find?_some isRow

section

variable {before : World} (untouched : Untouched before world)
  (found : world.db.getPipeline pipelineID = .ok pipe)

include untouched found

theorem harmless_insert_iff (version : VersionRow) (samePipeline : version.pipelineID = pipelineID)
    (newID : version.id = env.newID) :
    HarmlessOutcome before ((insertVersion env pipelineID pipe (.ready version)).run world) ↔
      ¬ Insertable env world.db world.calls := by
  unfold insertVersion Insertable
  cases fault : env.faults world.calls with
  | some msg =>
    rw [Eff.run_bind, run_storeCall, fault]
    exact iff_of_true (harmlessOutcome_error (untouched.trans (untouched_tick world)) _) (by simp)
  | none =>
    by_cases fresh : ∀ version ∈ world.db.versions, version.id ≠ env.newID
    · obtain ⟨created, after, inserted, logged⟩ :=
        createPipelineVersion_ok found samePipeline (by rwa [newID]) _
      refine iff_of_false (fun harmless => ?_) (not_not.mpr ⟨rfl, fresh⟩)
      exact not_untouched_of_logged before world untouched.1 fault inserted logged
        (fun _ => Eff.keeps_pure _) harmless.1
    · have present : ∃ row ∈ world.db.pipelines, row.id = version.pipelineID := samePipeline ▸ exists_pipeline found
      have taken : ∃ other ∈ world.db.versions, other.id = version.id := by
        rw [newID]
        push Not at fresh
        exact fresh
      have refused entry : world.db.createPipelineVersion version [entry] =
          .error (.other "insert pipeline version") := by
        rw [PipelineTables.createPipelineVersion, if_pos present, if_pos taken]
      rw [Eff.run_bind, run_storeCall, fault, refused]
      exact iff_of_true (harmlessOutcome_error (untouched.trans (untouched_tick world)) _)
        (fun insertable => fresh insertable.2)

/-- A validated graph: the fragment comes back unless there are structural findings,
    or the graph is valid and cannot be inserted. -/
theorem harmless_prepared_iff [PrintTable] (stored plain : Graph) (others : List RenderPipeline) :
    HarmlessOutcome before
        ((insertVersion env pipelineID pipe (prepared env pipe stored plain others)).run world) ↔
      ¬ (validateStructural env.validator.schemas plain = [] ∧
        (env.validator.Rejects pipe.targetClass (candidateOf pipe plain) others ∨
          Insertable env world.db world.calls)) := by
  by_cases clean : validateStructural env.validator.schemas plain = []
  · by_cases rejects : env.validator.Rejects pipe.targetClass (candidateOf pipe plain) others
    · obtain ⟨res, isPrepared, rendered⟩ := @prepared_of_rejects env _ pipe stored plain others clean rejects
      rw [isPrepared]
      refine iff_of_false (fun harmless => ?_) (not_not.mpr ⟨clean, Or.inl rejects⟩)
      rw [(harmlessOutcome_invalid untouched _).mp harmless] at rendered
      cases rendered
    · obtain ⟨issues, isPrepared⟩ := @prepared_of_accepts env _ pipe stored plain others clean rejects
      rw [isPrepared, harmless_insert_iff untouched found _ (getPipeline_id found) rfl]
      simp [clean, rejects]
  · rw [prepared_of_issues clean]
    exact iff_of_true ((harmlessOutcome_invalid untouched _).mpr rfl) (fun disclosed => clean disclosed.1)

end

theorem stopsEarly_harmless {outcome : Except ServiceError CreatedVersion × World}
    (stops : StopsEarly world outcome) : HarmlessOutcome world outcome := by
  cases stops with
  | failed err calls => exact harmlessOutcome_error ⟨rfl, rfl, rfl⟩ err
  | refused issues calls => exact (harmlessOutcome_invalid ⟨rfl, rfl, rfl⟩ _).mpr rfl

theorem harmless_create_iff [PrintTable] (pipelineID : Uuid) (graph : Graph) (world : World) :
    HarmlessOutcome world ((createVersion env pipelineID graph).run world) ↔
      ¬ Discloses env world.db pipelineID graph world.calls := by
  rcases @createVersion_cases env _ pipelineID graph world with
    ⟨pipe, prev, m, stored, plain, others, reaches, ran⟩ | ⟨never, stops⟩
  · have counted : Untouched world { world with calls := m + 1 } := ⟨rfl, rfl, rfl⟩
    rw [ran, harmless_prepared_iff counted reaches.found]
    refine not_congr ⟨fun disclosed => ⟨pipe, prev, m, stored, plain, others, reaches, disclosed⟩, ?_⟩
    rintro ⟨pipe', prev', m', stored', plain', others', reaches', disclosed⟩
    obtain ⟨rfl, rfl, rfl, rfl, rfl, rfl⟩ := reaches.unique reaches'
    exact disclosed
  · refine iff_of_true (stopsEarly_harmless stops) ?_
    rintro ⟨pipe, prev, m, stored, plain, others, reaches, _⟩
    exact never pipe prev m stored plain others reaches

/-! ## The four operations -/

/-- An operation on a foreign pipeline is harmless exactly when the load of the
    access check works, or the operation itself gets nowhere: a later call fails, or
    there is nothing to read, render or activate. -/
theorem foreign_operations_harmless_iff [PrintTable] (foreign : Foreign p world.db pipelineID pipe)
    (graph : Graph) (version : Nat) :
    (Harmless (fun _ => False) (deletePipelineHandler env (some p) pipelineID) world ↔
      env.faults world.calls = none ∨ env.faults (world.calls + 1) ≠ none ∨
        env.faults (world.calls + 2) ≠ none) ∧
    (Harmless versionContent (createPipelineVersionHandler env (some p) pipelineID graph) world ↔
      env.faults world.calls = none ∨ ¬ Discloses env world.db pipelineID graph (world.calls + 1)) ∧
    (Harmless (fun _ => True) (getPipelineVersionHandler env (some p) pipelineID version) world ↔
      env.faults world.calls = none ∨ env.faults (world.calls + 1) ≠ none ∨
        ¬ Readable world.db pipelineID version) ∧
    (Harmless (fun _ => True) (activatePipelineVersionHandler env (some p) pipelineID version) world ↔
      env.faults world.calls = none ∨ env.faults (world.calls + 1) ≠ none ∨
        ∀ found, world.db.getPipelineVersion pipelineID version ≠ .ok found) := by
  -- the checked handlers continue in the ticked world, whose tables are the same
  have foreign' : Foreign p (tick world).db pipelineID pipe := foreign
  refine ⟨?_, ?_, ?_, ?_⟩
  · rw [deletePipelineHandler, harmless_iff foreign, harmless_delete_iff foreign']
    rfl
  · rw [createPipelineVersionHandler, harmless_iff foreign, harmless_create_outcome, harmless_create_iff]
    rfl
  · rw [getPipelineVersionHandler, harmless_iff foreign, harmless_read_iff]
    rfl
  · rw [activatePipelineVersionHandler, harmless_iff foreign, harmless_activate_iff foreign']
    rfl

end

/-! ## One failing load -/

attribute [local instance] asciiPrintTable

def debugGraph : Graph := ⟨["logs"], [], [⟨"debug", none, none⟩]⟩

def acmeWorld : World := oneVersion none debugGraph

def onceFailing : ServiceEnv :=
  { workingEnv with faults := fun n => if n = 0 then some "connection reset by peer" else none }

def globexEditor : Principal where
  user := { id := ⟨2⟩, email := "editor@globex.example", role := "editor", createdAt := 0 }
  allCustomers := false
  allowedCustomers := [⟨3⟩]

theorem globexEditor_foreign : Foreign globexEditor acmeWorld.db ⟨10⟩ acmePipeline :=
  ⟨rfl, rfl, by decide⟩

theorem globexEditor_operations_iff :
    Foreign globexEditor acmeWorld.db ⟨10⟩ acmePipeline ∧
    (Harmless (fun _ => False) (deletePipelineHandler onceFailing (some globexEditor) ⟨10⟩) acmeWorld ↔
      onceFailing.faults 0 = none ∨ onceFailing.faults 1 ≠ none ∨ onceFailing.faults 2 ≠ none) :=
  ⟨globexEditor_foreign, (foreign_operations_harmless_iff globexEditor_foreign debugGraph 1).1⟩

/-- The load of the access check fails and every later call works: the editor of
    another customer deletes, activates and reads the pipeline, and adds a version
    to it. -/
theorem onceFailing_operations_harmful :
    Foreign globexEditor acmeWorld.db ⟨10⟩ acmePipeline ∧
    ¬ Harmless (fun _ => False) (deletePipelineHandler onceFailing (some globexEditor) ⟨10⟩) acmeWorld ∧
    ¬ Harmless versionContent (createPipelineVersionHandler onceFailing (some globexEditor) ⟨10⟩ debugGraph)
      acmeWorld ∧
    ¬ Harmless (fun _ => True) (getPipelineVersionHandler onceFailing (some globexEditor) ⟨10⟩ 1) acmeWorld ∧
    ¬ Harmless (fun _ => True) (activatePipelineVersionHandler onceFailing (some globexEditor) ⟨10⟩ 1)
      acmeWorld := by
  have foreign := globexEditor_foreign
  have later : Foreign globexEditor (tick acmeWorld).db ⟨10⟩ acmePipeline := foreign
  refine ⟨foreign, ?_, ?_, ?_, ?_⟩
  · rw [deletePipelineHandler, harmless_iff foreign, harmless_delete_iff later]
    decide
  · rw [createPipelineVersionHandler, harmless_iff foreign, harmless_create_outcome, harmless_create_iff]
    have reaches : Reaches onceFailing acmeWorld.db ⟨10⟩ debugGraph 1 acmePipeline (some debugGraph) 3
        debugGraph debugGraph [] :=
      ⟨⟨rfl, rfl, rfl, rfl⟩, rfl, rfl, rfl, rfl, _, debugGraph, rfl, rfl, rfl⟩
    rintro (works | discloses)
    · cases works
    · exact discloses ⟨_, _, _, _, _, _, reaches, by decide, Or.inr ⟨rfl, by decide⟩⟩
  · rw [getPipelineVersionHandler, harmless_iff foreign, harmless_read_iff]
    rintro (works | failed | unreadable)
    · cases works
    · exact failed rfl
    · exact unreadable ⟨_, debugGraph, rfl, rfl⟩
  · rw [activatePipelineVersionHandler, harmless_iff foreign, harmless_activate_iff later]
    rintro (works | failed | missing)
    · cases works
    · exact failed rfl
    · exact missing _ rfl

end OtelFleet.Verified.PipelineScope
