import OtelFleet.Crypto.Cipher
import OtelFleet.Verified.KeptSecrets

/-! # The keys of saved pipelines

A version that is saved from the redacted graph takes over the stored markers as
they are, so a secret that was under an old key stays under it.  Once the old keys
are dropped, such a version can no longer be rendered.
-/

namespace OtelFleet.Verified.SavedKeys

open Crypto Data Pipelines Semantics Store
open Verified.KeptSecrets Verified.SecretTraversal Verified.ServiceRuns
open Verified.StoredSecrets

variable (ring : KeyRing)

def UnderPrimary (value : Json) : Prop :=
  ∀ ciphertext, encValue value = some ciphertext → ∃ plaintext, ring.dropSecondaries.decrypt ciphertext = some plaintext

def AllUnderPrimary (graph : Graph) : Prop :=
  ∀ field ∈ graphFields graph, UnderPrimary ring field.2

/-- The primary key alone opens what the graph stores at each path. -/
def KeptUnderPrimary (prev : Graph) : Prop :=
  ∀ path stored, (graphFields prev).lookup path = some stored → UnderPrimary ring stored

/-! ## One save -/

section

variable {ring : KeyRing} {entropy : Entropy} {prev stored : Graph}

theorem underPrimary_encrypt (nonce : Nat) (plaintext : String) :
    UnderPrimary ring (newEncValue (ring.cipher.encrypt nonce plaintext)) := by
  intro ciphertext marker
  rw [encValue_newEncValue] at marker
  cases marker
  exact ⟨plaintext, ring.dropSecondaries.decrypt_encrypt nonce plaintext⟩

theorem encryptField_redacted {path : String} {value res : Json}
    (encrypted : encryptField (some ring.cipher) entropy (graphFields prev) path (redactField value) =
      .ok (res, [])) :
    (value = .null ∧ res = .null) ∨
      ∃ kept, (graphFields prev).lookup path = some kept ∧
        (res = kept ∨ (encValue kept = none ∧ UnderPrimary ring res)) := by
  by_cases isNull : value = .null
  · subst isNull
    cases encrypted
    exact Or.inl ⟨rfl, rfl⟩
  · right
    have noMarker : encValue (.str redactedSentinel) = none := rfl
    rw [redactField, if_neg isNull] at encrypted
    cases found : (graphFields prev).lookup path with
    | none => simp [encryptField, noMarker, found] at encrypted
    | some kept =>
      refine ⟨kept, rfl, ?_⟩
      by_cases marker : (encValue kept).isSome
      · simp [encryptField, noMarker, found, marker] at encrypted
        exact Or.inl encrypted.symm
      · have plain : encryptPlaintext (some ring.cipher) entropy path (.str redactedSentinel) (legacyPlaintext kept) =
            .ok (res, []) := by
          simpa [encryptField, noMarker, found, marker] using encrypted
        obtain ⟨c, nonce, isCipher, rfl⟩ := encryptPlaintext_ok plain
        cases isCipher
        exact Or.inr ⟨by simpa using marker, underPrimary_encrypt nonce _⟩

theorem saved_underPrimary_iff
    (encrypted : encryptGraphSecrets (redactGraphSecrets prev) (some ring.cipher) entropy (some prev) =
      .ok (.ok stored)) : AllUnderPrimary ring stored ↔ KeptUnderPrimary ring prev := by
  obtain ⟨rfl, stores⟩ := encryptGraphSecrets_ok encrypted
  rw [redactGraphSecrets_eq, replaceGraph_replaceGraph, AllUnderPrimary, graphFields_replaceGraph]
  rw [redactGraphSecrets_eq, graphFields_replaceGraph] at stores
  have fields {path : String} {value : Json} (mem : (path, value) ∈ graphFields prev) :=
    encryptField_redacted (stores _ (List.mem_map_of_mem mem))
  constructor
  · intro saved path kept found ciphertext marker
    -- the path has a field of its own, which is not null, so its marker was copied
    have mem := mem_keys_of_lookup found
    rcases fields mem with ⟨rfl, _⟩ | ⟨kept', found', isKept | ⟨unmarked, _⟩⟩
    · cases marker
    · cases found.symm.trans found'
      have underPrimary := saved _ (List.mem_map_of_mem mem)
      rw [isKept] at underPrimary
      exact underPrimary ciphertext marker
    · cases found.symm.trans found'
      cases unmarked.symm.trans marker
  · intro kept field mem
    obtain ⟨⟨path, value⟩, isField, rfl⟩ := List.mem_map.mp mem
    rcases fields isField with ⟨_, isNull⟩ | ⟨stored, found, isKept | ⟨_, underPrimary⟩⟩
    · rw [isNull]
      intro ciphertext marker
      cases marker
    · rw [isKept]
      exact kept path stored found
    · exact underPrimary

end

/-- The client has sent the redacted graph of the latest version back, and what
    was stored of it is `payload`. -/
def Resaved [PrintTable] (prev : Graph) (payload : Payload) : Prop :=
  ∃ env world pipelineID version after, env.cipher = some ring.cipher ∧
    LatestGraph world.db pipelineID prev ∧
    (createVersion env pipelineID (redactGraphSecrets prev)).run world = (.ok (.created version), after) ∧
    version.row.graph = payload

theorem Resaved.underPrimary_iff [PrintTable] {ring : KeyRing} {prev : Graph} {payload : Payload}
    (resaved : Resaved ring prev payload) :
    ∃ graph, payload = some graph ∧ (AllUnderPrimary ring graph ↔ KeptUnderPrimary ring prev) := by
  obtain ⟨env, world, pipelineID, version, after, isCipher, latest, created, rfl⟩ := resaved
  obtain ⟨stored, plain, isStored, encrypted, -⟩ := stored_of_created latest created
  rw [isCipher] at encrypted
  refine ⟨_, isStored, Iff.trans ?_ (saved_underPrimary_iff encrypted)⟩
  -- numbers change in the database, markers do not
  rw [AllUnderPrimary, AllUnderPrimary, graphFields_storeGraph]
  simp only [List.forall_mem_map, UnderPrimary, encValue_store]

/-! ## Rendering without the old keys -/

section

variable {ring : KeyRing} {graph : Graph}

theorem decryptField_drop {path : String} {value : Json} (underPrimary : UnderPrimary ring value) :
    ∃ plain log, decryptField (some ring.cipher) path value = .ok (plain, log) ∧
      decryptField (some ring.dropSecondaries.cipher) path value = .ok (plain, log) := by
  unfold decryptField
  cases marker : encValue value with
  | none => exact ⟨value, [], rfl, rfl⟩
  | some ciphertext =>
    obtain ⟨plaintext, opens⟩ := underPrimary ciphertext marker
    refine ⟨.str plaintext, [], ?_, ?_⟩
    · simp [decryptWith, KeyRing.cipher, KeyRing.decrypt_of_dropSecondaries opens]
    · simp [decryptWith, KeyRing.cipher, opens]

theorem decryptGraphSecrets_drop (underPrimary : AllUnderPrimary ring graph) :
    ∃ plain, decryptGraphSecrets graph (some ring.cipher) = .ok plain ∧
      decryptGraphSecrets graph (some ring.dropSecondaries.cipher) = .ok plain := by
  have clean (c : Cipher) (fields : ∀ field ∈ graphFields graph, ∃ res,
      decryptField (some c) field.1 field.2 = .ok res) :
      (graphFields graph).findSome? (fieldError (decryptField (some c))) = none := by
    rw [List.findSome?_eq_none_iff]
    intro field mem
    obtain ⟨res, decrypted⟩ := fields field mem
    rw [fieldError, decrypted]
  have both (field : String × Json) (mem : field ∈ graphFields graph) :=
    @decryptField_drop ring field.1 field.2 (underPrimary field mem)
  rw [decryptGraphSecrets_eq, decryptGraphSecrets_eq, clean, clean]
  · refine ⟨_, rfl, congrArg Except.ok (replaceGraph_congr fun field mem => ?_)⟩
    obtain ⟨plain, log, whole, dropped⟩ := both field mem
    rw [fieldValue, fieldValue, whole, dropped]
  · intro field mem
    obtain ⟨plain, log, _, dropped⟩ := both field mem
    exact ⟨_, dropped⟩
  · intro field mem
    obtain ⟨plain, log, whole, _⟩ := both field mem
    exact ⟨_, whole⟩

theorem renderInputs_drop {rows : List ActivePipeline}
    (underPrimary : ∀ ap ∈ rows, ∃ graph, ap.graph = some graph ∧ AllUnderPrimary ring graph) :
    ∃ inputs, renderInputs (some ring.cipher) none rows = .ok inputs ∧
      renderInputs (some ring.dropSecondaries.cipher) none rows = .ok inputs := by
  induction rows with
  | nil => exact ⟨[], rfl, rfl⟩
  | cons ap rest ih =>
    obtain ⟨⟨graph, isGraph, primary⟩, later⟩ := List.forall_mem_cons.mp underPrimary
    obtain ⟨inputs, whole, dropped⟩ := ih later
    obtain ⟨plain, wholePlain, droppedPlain⟩ := decryptGraphSecrets_drop primary
    refine ⟨⟨ap.customerSlug, ap.clientID, pipelineSlug ap.pipelineName, plain⟩ :: inputs, ?_, ?_⟩
    · simp [renderInputs, toRender, isGraph, parseGraph, wholePlain, whole, bind, Except.bind, pure, Except.pure]
    · simp [renderInputs, toRender, isGraph, parseGraph, droppedPlain, dropped, bind, Except.bind, pure, Except.pure]

end

def afterDrop (env : ServiceEnv) : ServiceEnv := { env with cipher := some ring.dropSecondaries.cipher }

/-- The active versions survive the end of the old keys. -/
structure SurvivesDrop [PrintTable] (ring : KeyRing) (db : PipelineTables) : Prop where
  opens : ∀ targetClass customerID, ∀ ap ∈ db.listActivePipelines targetClass customerID, ∀ graph,
    ap.graph = some graph → AllUnderPrimary ring graph
  inputs : ∀ targetClass customerID, ∃ inputs,
    renderInputs (some ring.cipher) none (db.listActivePipelines targetClass customerID) = .ok inputs ∧
    renderInputs (some ring.dropSecondaries.cipher) none (db.listActivePipelines targetClass customerID) = .ok inputs
  current : ∀ env world, env.cipher = some ring.cipher → world.db = db →
    ((renderCurrent (afterDrop ring env)).run world).1 = ((renderCurrent env).run world).1
  edge : ∀ env world customerID, env.cipher = some ring.cipher → world.db = db →
    ((renderEdgeCurrent (afterDrop ring env) customerID).run world).1 = ((renderEdgeCurrent env customerID).run world).1

section

variable {ring : KeyRing} {db : PipelineTables}

theorem run_activeRenderPipelines_drop {env : ServiceEnv} {world : World} {targetClass : TargetClass}
    {customerID : Option Uuid} {inputs : List RenderPipeline} (isCipher : env.cipher = some ring.cipher)
    (whole : renderInputs (some ring.cipher) none (world.db.listActivePipelines targetClass customerID) = .ok inputs)
    (dropped : renderInputs (some ring.dropSecondaries.cipher) none
      (world.db.listActivePipelines targetClass customerID) = .ok inputs) :
    (activeRenderPipelines (afterDrop ring env) targetClass customerID none).run world =
      (activeRenderPipelines env targetClass customerID none).run world := by
  rw [run_activeRenderPipelines, run_activeRenderPipelines, isCipher, whole]
  simp only [afterDrop, dropped]

theorem survivesDrop_of_opens [PrintTable]
    (opens : ∀ targetClass customerID, ∀ ap ∈ db.listActivePipelines targetClass customerID,
      ∃ graph, ap.graph = some graph ∧ AllUnderPrimary ring graph) : SurvivesDrop ring db := by
  have inputs targetClass customerID := renderInputs_drop (opens targetClass customerID)
  refine ⟨?_, inputs, ?_, ?_⟩
  · intro targetClass customerID ap mem graph isGraph
    obtain ⟨graph', isGraph', primary⟩ := opens targetClass customerID ap mem
    cases isGraph.symm.trans isGraph'
    exact primary
  · rintro env world isCipher rfl
    obtain ⟨rendered, whole, dropped⟩ := inputs .forwarding none
    exact congrArg Prod.fst (Eff.run_bind_congr (run_activeRenderPipelines_drop isCipher whole dropped) _)
  · rintro env world customerID isCipher rfl
    obtain ⟨rendered, whole, dropped⟩ := inputs .edge (some customerID)
    exact congrArg Prod.fst (Eff.run_bind_congr (run_activeRenderPipelines_drop isCipher whole dropped) _)

/-- Active versions that were all saved again survive the end of the old keys
    exactly when the versions they were saved from had no secret under such a key. -/
theorem resaved_survives_iff [PrintTable] {latest : Uuid → Graph}
    (saved : ∀ targetClass customerID, ∀ ap ∈ db.listActivePipelines targetClass customerID,
      Resaved ring (latest ap.pipelineID) ap.graph) :
    SurvivesDrop ring db ↔ ∀ targetClass customerID, ∀ ap ∈ db.listActivePipelines targetClass customerID,
      KeptUnderPrimary ring (latest ap.pipelineID) := by
  constructor
  · intro survives targetClass customerID ap mem
    obtain ⟨graph, isGraph, primary⟩ := (saved targetClass customerID ap mem).underPrimary_iff
    exact primary.mp (survives.opens targetClass customerID ap mem graph isGraph)
  · intro kept
    apply survivesDrop_of_opens
    intro targetClass customerID ap mem
    obtain ⟨graph, isGraph, primary⟩ := (saved targetClass customerID ap mem).underPrimary_iff
    exact ⟨graph, isGraph, primary.mpr (kept targetClass customerID ap mem)⟩

end

/-! ## A token saved again after the rotation -/

attribute [local instance] asciiPrintTable

def oldTokenGraph : Graph :=
  ⟨["logs"], [], [hecExporter "https://hec.example:8088" (newEncValue (oldRing.encrypt 0 "t"))]⟩

def oldTokenWorld : World := oneVersion (some ⟨100⟩) oldTokenGraph

def rotating : ServiceEnv := { workingEnv with cipher := some newRing.cipher }

def savedWorld : World := ((createVersion rotating ⟨10⟩ (redactGraphSecrets oldTokenGraph)).run oldTokenWorld).2

def activatedWorld : World := ((activate rotating ⟨10⟩ 2).run savedWorld).2

theorem oldToken_latest : LatestGraph oldTokenWorld.db ⟨10⟩ oldTokenGraph := ⟨_, 1, _, rfl, rfl, rfl, rfl⟩

theorem oldToken_resaved : ∀ targetClass customerID,
    ∀ ap ∈ activatedWorld.db.listActivePipelines targetClass customerID, Resaved newRing oldTokenGraph ap.graph := by
  intro targetClass customerID ap mem
  rw [PipelineTables.listActivePipelines, List.mem_insertionSort, List.mem_filterMap] at mem
  obtain ⟨row, isRow, isActive⟩ := mem
  have rows : activatedWorld.db.pipelines = [⟨⟨10⟩, ⟨1⟩, "main", .forwarding, some ⟨101⟩, 0⟩] := rfl
  have onlyRow := List.mem_of_mem_filter isRow
  rw [rows, List.mem_singleton] at onlyRow
  subst onlyRow
  cases isActive
  exact ⟨rotating, oldTokenWorld, ⟨10⟩, _, savedWorld, rfl, oldToken_latest, rfl, rfl⟩

theorem oldToken_survives_iff :
    (∀ targetClass customerID, ∀ ap ∈ activatedWorld.db.listActivePipelines targetClass customerID,
      Resaved newRing oldTokenGraph ap.graph) ∧
    (SurvivesDrop newRing activatedWorld.db ↔ ∀ targetClass customerID,
      ∀ ap ∈ activatedWorld.db.listActivePipelines targetClass customerID, KeptUnderPrimary newRing oldTokenGraph) :=
  ⟨oldToken_resaved, @resaved_survives_iff newRing activatedWorld.db _ (fun _ => oldTokenGraph) oldToken_resaved⟩

/-- The redacted graph is saved again and activated, and after the old key is
    dropped the config can no longer be rendered. -/
theorem oldToken_lost : LatestGraph oldTokenWorld.db ⟨10⟩ oldTokenGraph ∧
    (∃ version, (createVersion rotating ⟨10⟩ (redactGraphSecrets oldTokenGraph)).run oldTokenWorld =
      (.ok (.created version), savedWorld) ∧ version.row.version = 2) ∧
    (∃ rollout, (activate rotating ⟨10⟩ 2).run savedWorld = (.ok rollout, activatedWorld)) ∧
    (∃ config, ((renderCurrent rotating).run activatedWorld).1 = .ok config) ∧
    (∃ err, ((renderCurrent (afterDrop newRing rotating)).run activatedWorld).1 = .error err) ∧
    ¬ SurvivesDrop newRing activatedWorld.db := by
  have rendered : ∃ config, ((renderCurrent rotating).run activatedWorld).1 = .ok config := ⟨_, rfl⟩
  have fails : ∃ err, ((renderCurrent (afterDrop newRing rotating)).run activatedWorld).1 = .error err :=
    ⟨_, rfl⟩
  refine ⟨oldToken_latest, ⟨_, rfl, rfl⟩, ⟨_, rfl⟩, rendered, fails, fun survives => ?_⟩
  obtain ⟨err, fails⟩ := fails
  rw [survives.current rotating activatedWorld rfl rfl] at fails
  cases fails

end OtelFleet.Verified.SavedKeys
