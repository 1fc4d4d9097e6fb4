import OtelFleet.Api.Pipelines

/-! # Runs of the pipeline service

What the computations of the service do to a world, as equations: one for each
outcome of a store call, and one for each function that proofs about requests
would otherwise unfold.
-/

namespace OtelFleet.Verified.ServiceRuns

open Data Store Semantics Pipelines Api

/-! ## Store calls -/

def tick (world : World) : World := { world with calls := world.calls + 1 }

variable {db : PipelineTables} {msg : String}

section

variable {env : ServiceEnv} {world : World} {α : Type}

theorem run_storeCall (env : ServiceEnv) (run : PipelineTables → Except StoreError (α × PipelineTables)) (world : World) :
    (storeCall env run).run world =
      match env.faults world.calls with
      | some msg => (.error (.store (.other msg)), tick world)
      | none =>
        match run world.db with
        | .error err => (.error (.store err), tick world)
        | .ok (value, db) => (.ok value, { tick world with db }) := rfl

variable {run : PipelineTables → Except StoreError (α × PipelineTables)}

theorem storeCall_inv {value : α} {after : World}
    (ran : (storeCall env run).run world = (.ok value, after)) : run world.db = .ok (value, after.db) := by
  rw [run_storeCall] at ran
  split at ran
  · cases ran
  · split at ran
    · cases ran
    · cases ran
      assumption

theorem run_query (env : ServiceEnv) (run : PipelineTables → Except StoreError α) (world : World) :
    (query env run).run world =
      match env.faults world.calls with
      | some msg => (.error (.store (.other msg)), tick world)
      | none => ((run world.db).mapError .store, tick world) := by
  rw [query, run_storeCall]
  cases env.faults world.calls with
  | some msg => rfl
  | none =>
    cases run world.db <;> rfl

theorem query_keeps_db (env : ServiceEnv) (run : PipelineTables → Except StoreError α) :
    Eff.Keeps World.db (query env run) := by
  intro world
  rw [run_query]
  cases env.faults world.calls <;> rfl

end

theorem countEdgeAgents_keeps_db (env : ServiceEnv) (customerID : Uuid) :
    Eff.Keeps World.db (countEdgeAgents env customerID) := by
  refine Eff.Keeps.bind (query_keeps_db env _).attempt fun res => ?_
  cases res with
  | ok counts => exact Eff.keeps_pure counts
  | error err => exact Eff.keeps_pure (0, 0)

theorem edgeConfigChanged_keeps_db (env : ServiceEnv) (customerID : Uuid) :
    Eff.Keeps World.db (edgeConfigChanged env customerID) := by
  unfold edgeConfigChanged
  split
  · exact Eff.keeps_pure ()
  · exact Eff.Keeps.bind (fun _ => rfl) fun _ => Eff.keeps_ofExcept _

theorem rollOut_keeps_db [PrintTable] (env : ServiceEnv) (pipe : Pipeline) :
    Eff.Keeps World.db (rollOut env pipe) := by
  unfold rollOut
  split
  · refine (edgeConfigChanged_keeps_db env _).bind fun _ => ?_
    exact (countEdgeAgents_keeps_db env _).bind fun _ => Eff.keeps_pure _
  · refine Eff.Keeps.bind (Eff.Keeps.bind ?_ fun _ => Eff.keeps_ofExcept _) fun _ => ?_
    · exact (query_keeps_db env _).bind fun _ => Eff.keeps_ofExcept _
    · exact Eff.Keeps.bind (fun _ => rfl) fun _ => Eff.keeps_ofExcept _

variable {α : Type}

theorem run_callService (answer : ServiceError → ApiError) (call : ServiceM α) (world : World) :
    (callService answer call).run world = ((call.run world).1.mapError answer, (call.run world).2) := by
  rw [callService, Eff.run_attempt_bind]
  cases (call.run world).1 <;> rfl

/-! ## Versions -/

theorem run_liftError (res : Except String α) (world : World) :
    (liftError res).run world = (res.mapError .other, world) := rfl

section

variable (env : ServiceEnv) (pipe : Pipeline)

def prepared [PrintTable] (stored plain : Graph) (others : List RenderPipeline) : Prepared :=
  let res := env.validator.validate pipe.targetClass (candidateOf pipe plain) others
  if res.valid then
    .ready (versionRow env pipe stored
      (fragmentFor pipe.targetClass (candidateOf pipe (redactGraphSecrets stored))) res.issues)
  else .invalid res

theorem run_activeRenderPipelines (targetClass : TargetClass) (customerID exclude : Option Uuid) (world : World) :
    (activeRenderPipelines env targetClass customerID exclude).run world =
      match env.faults world.calls with
      | some msg => (.error (.store (.other msg)), tick world)
      | none => ((renderInputs env.cipher exclude
          (world.db.listActivePipelines targetClass customerID)).mapError .other, tick world) := by
  unfold activeRenderPipelines
  rw [Eff.run_bind, run_query]
  cases env.faults world.calls <;> rfl

theorem run_validateStored [PrintTable] (stored : Graph) (world : World) :
    (validateStored env pipe stored).run world =
      match decryptGraphSecrets stored env.cipher with
      | .error msg => (.error (.other msg), world)
      | .ok plain =>
        match env.faults world.calls with
        | some msg => (.error (.store (.other msg)), tick world)
        | none =>
          match renderInputs env.cipher (some pipe.id)
              (world.db.listActivePipelines pipe.targetClass (scopeOf pipe)) with
          | .error msg => (.error (.other msg), tick world)
          | .ok others => (.ok (prepared env pipe stored plain others), tick world) := by
  unfold validateStored
  simp only [Eff.run_bind, run_liftError, run_activeRenderPipelines]
  cases decryptGraphSecrets stored env.cipher with
  | error msg => rfl
  | ok plain =>
    dsimp only [Except.mapError]
    cases env.faults world.calls with
    | some msg => rfl
    | none =>
      cases renderInputs env.cipher (some pipe.id) (world.db.listActivePipelines pipe.targetClass (scopeOf pipe)) with
      | error msg => rfl
      | ok others =>
        simp only [prepared]
        split
        · rw [renderFragmentFor_eq]
          rfl
        · rfl

theorem run_prepare [PrintTable] (graph : Graph) (prev : Option Graph) (world : World) :
    (prepare env pipe graph prev).run world =
      match encryptGraphSecrets graph env.cipher env.entropy prev with
      | .error msg => (.error (.other msg), world)
      | .ok (.error issues) => (.ok (.invalid { valid := false, issues }), world)
      | .ok (.ok stored) => (validateStored env pipe stored).run world := by
  unfold prepare
  cases encryptGraphSecrets graph env.cipher env.entropy prev with
  | error msg => rfl
  | ok secrets => cases secrets <;> rfl

theorem run_previousGraph (world : World) :
    (previousGraph env pipe).run world =
      match pipe.latestVersion with
      | none => (.ok none, world)
      | some latest =>
        match env.faults world.calls with
        | some msg => (.error (.store (.other msg)), tick world)
        | none =>
          match world.db.getPipelineVersion pipe.id latest with
          | .error err => (.error (.store err), tick world)
          | .ok version => (((parseGraph version.row.graph).map some).mapError .other, tick world) := by
  unfold previousGraph
  cases pipe.latestVersion with
  | none => rfl
  | some latest =>
    simp only [Eff.run_bind, run_query]
    cases env.faults world.calls with
    | some msg => rfl
    | none =>
      cases world.db.getPipelineVersion pipe.id latest with
      | error err => rfl
      | ok version =>
        dsimp only [Except.mapError]
        cases parseGraph version.row.graph <;> rfl

end

/-! ## Reaching the validation -/

section

variable {env : ServiceEnv}

/-- The read of the graph that sentinels resolve against, from the `n`th call on:
    what it yields and which call is next. -/
def PreviousRead (env : ServiceEnv) (db : PipelineTables) (pipe : Pipeline) (n : Nat)
    (prev : Option Graph) (m : Nat) : Prop :=
  match pipe.latestVersion with
  | none => prev = none ∧ m = n
  | some latest => env.faults n = none ∧ m = n + 1 ∧ ∃ version graph,
      db.getPipelineVersion pipe.id latest = .ok version ∧ parseGraph version.row.graph = .ok graph ∧
        prev = some graph

/-- The secrets of the graph can be encrypted and decrypted, and the `m`th call
    lists pipelines that can be decrypted. -/
structure Prepares (env : ServiceEnv) (db : PipelineTables) (pipe : Pipeline) (graph : Graph)
    (prev : Option Graph) (m : Nat) (stored plain : Graph) (others : List RenderPipeline) : Prop where
  encrypted : encryptGraphSecrets graph env.cipher env.entropy prev = .ok (.ok stored)
  decrypted : decryptGraphSecrets stored env.cipher = .ok plain
  last : env.faults m = none
  listed : renderInputs env.cipher (some pipe.id)
    (db.listActivePipelines pipe.targetClass (scopeOf pipe)) = .ok others

/-- A graph submitted at the `n`th call gets as far as being validated. -/
structure Reaches (env : ServiceEnv) (db : PipelineTables) (pipelineID : Uuid) (graph : Graph) (n : Nat)
    (pipe : Pipeline) (prev : Option Graph) (m : Nat) (stored plain : Graph)
    (others : List RenderPipeline) : Prop extends Prepares env db pipe graph prev m stored plain others where
  first : env.faults n = none
  found : db.getPipeline pipelineID = .ok pipe
  read : PreviousRead env db pipe (n + 1) prev m

variable {prev prev' : Option Graph}

/-- An outcome before the validation: an error or findings, with nothing changed. -/
inductive StopsEarly (world : World) : Except ServiceError CreatedVersion × World → Prop where
  | failed (err : ServiceError) (calls : Nat) : StopsEarly world (.error err, { world with calls })
  | refused (issues : List Issue) (calls : Nat) :
    StopsEarly world (.ok (.invalid { valid := false, issues }), { world with calls })

theorem StopsEarly.of_calls {world : World} {calls : Nat} {outcome : Except ServiceError CreatedVersion × World}
    (stops : StopsEarly { world with calls } outcome) : StopsEarly world outcome := by
  cases stops with
  | failed err calls => exact .failed err calls
  | refused issues calls => exact .refused issues calls

theorem previousGraph_cases (pipe : Pipeline) (world : World) :
    (∃ err calls, (previousGraph env pipe).run world = (.error err, { world with calls }) ∧
      ∀ prev m, ¬ PreviousRead env world.db pipe world.calls prev m) ∨
    ∃ prev m, (previousGraph env pipe).run world = (.ok prev, { world with calls := m }) ∧
      ∀ prev' m', PreviousRead env world.db pipe world.calls prev' m' ↔ prev' = prev ∧ m' = m := by
  rw [run_previousGraph]
  unfold PreviousRead
  cases pipe.latestVersion with
  | none => exact Or.inr ⟨none, world.calls, rfl, fun _ _ => Iff.rfl⟩
  | some latest =>
    dsimp only
    cases fault : env.faults world.calls with
    | some msg => exact Or.inl ⟨_, _, rfl, by simp⟩
    | none =>
      cases loaded : world.db.getPipelineVersion pipe.id latest with
      | error err => exact Or.inl ⟨_, _, rfl, by simp⟩
      | ok version =>
        cases parsed : parseGraph version.row.graph with
        | error msg =>
          exact Or.inl ⟨.other msg, world.calls + 1, by simp only [parsed]; rfl, by simp [parsed]⟩
        | ok graph =>
          refine Or.inr ⟨some graph, world.calls + 1, by simp only [parsed]; rfl, fun prev m => ?_⟩
          simp [parsed, and_comm]

theorem PreviousRead.unique {pipe : Pipeline} {n m m' : Nat} (read : PreviousRead env db pipe n prev m)
    (read' : PreviousRead env db pipe n prev' m') : prev = prev' ∧ m = m' := by
  rcases @previousGraph_cases env pipe ⟨db, n, [], []⟩ with ⟨_, _, _, never⟩ | ⟨_, _, _, only⟩
  · exact absurd read (never prev m)
  · obtain ⟨rfl, rfl⟩ := (only prev m).mp read
    obtain ⟨rfl, rfl⟩ := (only prev' m').mp read'
    exact ⟨rfl, rfl⟩

variable {pipelineID : Uuid}

theorem Reaches.unique {graph : Graph} {n m m' : Nat} {pipe pipe' : Pipeline} {stored stored' plain plain' : Graph}
    {others others' : List RenderPipeline}
    (reaches : Reaches env db pipelineID graph n pipe prev m stored plain others)
    (reaches' : Reaches env db pipelineID graph n pipe' prev' m' stored' plain' others') :
    pipe = pipe' ∧ prev = prev' ∧ m = m' ∧ stored = stored' ∧ plain = plain' ∧ others = others' := by
  cases reaches.found.symm.trans reaches'.found
  obtain ⟨rfl, rfl⟩ := reaches.read.unique reaches'.read
  cases reaches.encrypted.symm.trans reaches'.encrypted
  cases reaches.decrypted.symm.trans reaches'.decrypted
  cases reaches.listed.symm.trans reaches'.listed
  exact ⟨rfl, rfl, rfl, rfl, rfl, rfl⟩

theorem prepare_cases [PrintTable] (pipelineID : Uuid) (pipe : Pipeline) (graph : Graph)
    (prev : Option Graph) (world : World) :
    (∃ stored plain others, Prepares env world.db pipe graph prev world.calls stored plain others ∧
      (prepare env pipe graph prev >>= insertVersion env pipelineID pipe).run world =
        (insertVersion env pipelineID pipe (prepared env pipe stored plain others)).run (tick world)) ∨
    (∀ stored plain others, ¬ Prepares env world.db pipe graph prev world.calls stored plain others) ∧
      StopsEarly world ((prepare env pipe graph prev >>= insertVersion env pipelineID pipe).run world) := by
  rw [Eff.run_bind, run_prepare]
  cases encrypted : encryptGraphSecrets graph env.cipher env.entropy prev with
  | error msg =>
    refine Or.inr ⟨fun _ _ _ prepares => ?_, .failed _ _⟩
    cases encrypted.symm.trans prepares.encrypted
  | ok secrets =>
    cases secrets with
    | error issues =>
      refine Or.inr ⟨fun _ _ _ prepares => ?_, .refused _ _⟩
      cases encrypted.symm.trans prepares.encrypted
    | ok stored =>
      simp only [run_validateStored]
      -- the remaining stages of `prepare` fail one after the other
      cases decrypted : decryptGraphSecrets stored env.cipher with
      | error msg =>
        refine Or.inr ⟨fun _ _ _ prepares => ?_, .failed _ _⟩
        cases encrypted.symm.trans prepares.encrypted
        cases decrypted.symm.trans prepares.decrypted
      | ok plain =>
        cases fault : env.faults world.calls with
        | some msg =>
          refine Or.inr ⟨fun _ _ _ prepares => ?_, .failed _ _⟩
          cases fault.symm.trans prepares.last
        | none =>
          cases listed : renderInputs env.cipher (some pipe.id)
              (world.db.listActivePipelines pipe.targetClass (scopeOf pipe)) with
          | error msg =>
            refine Or.inr ⟨fun _ _ _ prepares => ?_, .failed _ _⟩
            cases listed.symm.trans prepares.listed
          | ok others => exact Or.inl ⟨stored, plain, others, ⟨encrypted, decrypted, fault, listed⟩, rfl⟩

theorem createVersion_cases [PrintTable] (pipelineID : Uuid) (graph : Graph) (world : World) :
    (∃ pipe prev m stored plain others,
      Reaches env world.db pipelineID graph world.calls pipe prev m stored plain others ∧
      (createVersion env pipelineID graph).run world =
        (insertVersion env pipelineID pipe (prepared env pipe stored plain others)).run
          { world with calls := m + 1 }) ∨
    (∀ pipe prev m stored plain others,
      ¬ Reaches env world.db pipelineID graph world.calls pipe prev m stored plain others) ∧
      StopsEarly world ((createVersion env pipelineID graph).run world) := by
  rw [createVersion, Eff.run_bind, run_query]
  cases fault : env.faults world.calls with
  | some msg =>
    refine Or.inr ⟨fun _ _ _ _ _ _ reaches => ?_, .failed _ _⟩
    cases fault.symm.trans reaches.first
  | none =>
    cases found : world.db.getPipeline pipelineID with
    | error err =>
      refine Or.inr ⟨fun _ _ _ _ _ _ reaches => ?_, .failed _ _⟩
      cases found.symm.trans reaches.found
    | ok pipe =>
      dsimp only [Except.mapError]
      rw [Eff.run_bind]
      rcases @previousGraph_cases env pipe (tick world) with ⟨err, calls, ran, never⟩ | ⟨prev, m, ran, only⟩
      · rw [ran]
        refine Or.inr ⟨fun pipe' prev m _ _ _ reaches => ?_, .failed _ _⟩
        cases found.symm.trans reaches.found
        exact never prev m reaches.read
      · rw [ran]
        rcases @prepare_cases env _ pipelineID pipe graph prev { world with calls := m } with
          ⟨stored, plain, others, prepares, prepareRan⟩ | ⟨never, stops⟩
        · exact Or.inl ⟨pipe, prev, m, stored, plain, others,
            ⟨prepares, fault, found, (only _ _).mpr ⟨rfl, rfl⟩⟩, prepareRan⟩
        · refine Or.inr ⟨fun pipe' prev' m' stored plain others reaches => ?_, stops.of_calls⟩
          cases found.symm.trans reaches.found
          obtain ⟨rfl, rfl⟩ := (only _ _).mp reaches.read
          exact never stored plain others reaches.toPrepares

/-! ## After the validation -/

variable [PrintTable]

theorem run_createVersionResponse (pipelineID : Uuid) (graph : Graph) (world : World) :
    (createVersionResponse env pipelineID graph).run world =
      ((((createVersion env pipelineID graph).run world).1.mapError (notFoundOr "pipeline not found")).bind
        versionResponse, ((createVersion env pipelineID graph).run world).2) := by
  rw [createVersionResponse, Eff.run_bind, run_callService]
  cases ((createVersion env pipelineID graph).run world).1 <;> rfl

section

variable {pipe : Pipeline} {stored plain : Graph} {others : List RenderPipeline}

theorem prepared_of_issues (found : validateStructural env.validator.schemas plain ≠ []) :
    prepared env pipe stored plain others =
      .invalid { valid := false, issues := validateStructural env.validator.schemas plain } := by
  have refused := @validate_of_issues _ env.validator pipe.targetClass (candidateOf pipe plain) others found
  rw [prepared, refused]
  rfl

theorem prepared_of_rejects (clean : validateStructural env.validator.schemas plain = [])
    (rejects : env.validator.Rejects pipe.targetClass (candidateOf pipe plain) others) :
    ∃ res, prepared env pipe stored plain others = .invalid res ∧
      res.renderedYAML = some (fragmentFor pipe.targetClass (candidateOf pipe plain)) :=
  ⟨_, if_neg fun valid => (validate_valid_iff clean).mp valid rejects, validate_renderedYAML others clean⟩

theorem prepared_of_accepts (clean : validateStructural env.validator.schemas plain = [])
    (accepts : ¬ env.validator.Rejects pipe.targetClass (candidateOf pipe plain) others) :
    ∃ issues, prepared env pipe stored plain others = .ready (versionRow env pipe stored
      (fragmentFor pipe.targetClass (candidateOf pipe (redactGraphSecrets stored))) issues) :=
  ⟨_, if_pos ((validate_valid_iff clean).mpr accepts)⟩

omit [PrintTable] in
theorem insertVersion_ready_ne_invalid (pipelineID : Uuid) (version : VersionRow) (world : World) (res : Result) :
    ((insertVersion env pipelineID pipe (.ready version)).run world).1 ≠ .ok (.invalid res) := by
  rw [insertVersion, Eff.run_bind]
  split <;> simp

variable {created : PipelineVersion}

omit [PrintTable] in
theorem graph_of_createPipelineVersion {db after : PipelineTables} {new : VersionRow} {entries : List AuditEntry}
    (inserted : db.createPipelineVersion new entries = .ok (created, after)) : created.row.graph = new.graph := by
  unfold PipelineTables.createPipelineVersion at inserted
  split at inserted
  · split at inserted
    · cases inserted
    · dsimp only at inserted
      split at inserted
      · next joined isJoined =>
        cases inserted
        obtain ⟨row, _, rfl⟩ := Option.map_eq_some_iff.mp isJoined
        rfl
      · cases inserted
  · cases inserted

variable {world after : World}

omit [PrintTable] in
theorem graph_of_created {version : VersionRow}
    (inserted : (insertVersion env pipelineID pipe (.ready version)).run world = (.ok (.created created), after)) :
    created.row.graph = version.graph := by
  rw [insertVersion, Eff.run_bind] at inserted
  split at inserted
  · rename_i ran
    cases inserted
    exact graph_of_createPipelineVersion (storeCall_inv ran)
  · cases inserted

theorem graph_of_prepared
    (inserted : (insertVersion env pipelineID pipe (prepared env pipe stored plain others)).run world =
      (.ok (.created created), after)) : created.row.graph = marshalGraph env.format stored := by
  dsimp only [prepared] at inserted
  split at inserted
  · exact graph_of_created inserted
  · cases inserted

end

end

/-! ## A store with one version -/

/-- Acme has one pipeline, and the graph is its one version. -/
def oneVersion (active : Option Uuid) (graph : Graph) : World where
  db :=
    { customers := [⟨⟨1⟩, "acme", "Acme", "cust_aaaa1111", .active⟩]
      pipelines := [⟨⟨10⟩, ⟨1⟩, "main", .forwarding, active, 0⟩]
      versions := [⟨⟨100⟩, ⟨10⟩, 1, some graph, .map [], "", true, none, none, 0⟩]
      emails := [], auditLog := [] }
  calls := 0
  distributed := []
  notified := []

def acmePipeline : Pipeline :=
  ⟨⟨10⟩, ⟨1⟩, "Acme", "acme", "cust_aaaa1111", "main", .forwarding, none, none, some 1, 0⟩

/-- Every store call works; there is no key and no collector binary. -/
def workingEnv : ServiceEnv where
  faults _ := none
  validator := ⟨fun _ _ => none, "/usr/local/bin/otelcol", none⟩
  cipher := none
  entropy := ⟨fun _ => .ok 0, fun _ => ""⟩
  distributor _ := .ok ⟨stateApplied, ""⟩
  edge := none
  listAgents _ := (0, 0)
  format _ := ""
  sha256 _ := ""
  actor := some ⟨2⟩
  newID := ⟨101⟩
  now := 1

end OtelFleet.Verified.ServiceRuns
