import OtelFleet.Data.Related
import OtelFleet.Verified.ServiceRuns
import OtelFleet.Verified.StoredSecrets

/-! # Secrets in version responses

Two stores that differ only in the secrets hidden in their markers, and one
request that keeps them all.  This module compares what the API answers over
both stores and determines when the answers are the same.
-/

namespace OtelFleet.Verified.SecretFlow

open Data Store Semantics Pipelines Api
open Verified.SecretTraversal Verified.StoredSecrets Verified.ServiceRuns

/-! ## Stores that differ in hidden secrets -/

/-- A marker with a ciphertext that the service's key, if there is one, decrypts. -/
def Hides (cipher : Option Cipher) (value : Json) : Prop :=
  ∃ ciphertext, encValue value = some ciphertext ∧ ∀ c ∈ cipher, (c.decrypt ciphertext).isSome

def SameSecret (cipher : Option Cipher) (left right : Json) : Prop :=
  left = right ∨ Hides cipher left ∧ Hides cipher right

abbrev SameFields (cipher : Option Cipher) : List (String × Json) → List (String × Json) → Prop :=
  List.Forall₂ fun left right => left.1 = right.1 ∧ SameSecret cipher left.2 right.2

/-- The graphs are the same apart from what their markers hide. -/
structure SameGraph (cipher : Option Cipher) (left right : Graph) : Prop where
  rest : replaceGraph (fun _ _ => .null) left = replaceGraph (fun _ _ => .null) right
  fields : SameFields cipher (graphFields left) (graphFields right)

structure SameVersion (cipher : Option Cipher) (left right : VersionRow) : Prop where
  rest : { left with graph := right.graph } = right
  graph : Option.Rel (SameGraph cipher) left.graph right.graph

structure SameStore (cipher : Option Cipher) (left right : PipelineTables) : Prop where
  customers : left.customers = right.customers
  pipelines : left.pipelines = right.pipelines
  emails : left.emails = right.emails
  auditLog : left.auditLog = right.auditLog
  versions : List.Forall₂ (SameVersion cipher) left.versions right.versions

structure SameActive (cipher : Option Cipher) (left right : ActivePipeline) : Prop where
  rest : { left with graph := right.graph } = right
  graph : Option.Rel (SameGraph cipher) left.graph right.graph

/-! ## Queries -/

section

variable {cipher : Option Cipher} {left right : PipelineTables} (same : SameStore cipher left right)

theorem SameVersion.eq_iff {α : Type} {left right : VersionRow} (same : SameVersion cipher left right)
    (view : VersionRow → α) (blind : ∀ version graph, view { version with graph } = view version) :
    view left = view right :=
  (blind left right.graph).symm.trans (congrArg view same.rest)

include same

theorem versionByID_same (id : Uuid) :
    Option.Rel (SameVersion cipher) (left.versionByID id) (right.versionByID id) :=
  find?_of_forall₂ same.versions fun _ _ version =>
    version.eq_iff (fun version => decide (version.id = id)) fun _ _ => rfl

theorem latestVersion_same (pipelineID : Uuid) : left.latestVersion pipelineID = right.latestVersion pipelineID := by
  have numbers rows rows' (related : List.Forall₂ (SameVersion cipher) rows rows') :
      (rows.filter fun version => version.pipelineID = pipelineID).map VersionRow.version =
        (rows'.filter fun version => version.pipelineID = pipelineID).map VersionRow.version := by
    induction related with
    | nil => rfl
    | @cons version version' _ _ head _ ih =>
      have samePipeline := head.eq_iff VersionRow.pipelineID fun _ _ => rfl
      have sameNumber := head.eq_iff VersionRow.version fun _ _ => rfl
      simp only [List.filter_cons, samePipeline]
      split
      · rw [List.map_cons, List.map_cons, sameNumber, ih]
      · exact ih
  exact congrArg List.max? (numbers _ _ same.versions)

theorem getPipeline_same (id : Uuid) : left.getPipeline id = right.getPipeline id := by
  have joined row : left.joinPipeline row = right.joinPipeline row := by
    have active : (row.activeVersionID.bind left.versionByID).map VersionRow.version =
        (row.activeVersionID.bind right.versionByID).map VersionRow.version := by
      cases row.activeVersionID with
      | none => rfl
      | some versionID =>
        have related := versionByID_same same versionID
        simp only [Option.bind_some]
        generalize left.versionByID versionID = found, right.versionByID versionID = found' at related
        cases related with
        | none => rfl
        | some version => simp [version.eq_iff VersionRow.version fun _ _ => rfl]
    simp only [PipelineTables.joinPipeline, PipelineTables.customer, same.customers, active,
      latestVersion_same same row.id]
  simp only [PipelineTables.getPipeline, same.pipelines, funext joined]

theorem getPipelineVersion_same (pipelineID : Uuid) (number : Nat) :
    Eff.Agree (fun version version' => SameVersion cipher version.row version'.row)
      (left.getPipelineVersion pipelineID number) (right.getPipelineVersion pipelineID number) := by
  have found := @find?_of_forall₂ _ _ _ _ _ same.versions (fun row => row.pipelineID = pipelineID && row.version = number)
    (fun row => row.pipelineID = pipelineID && row.version = number) fun version version' related => by
      rw [related.eq_iff VersionRow.pipelineID fun _ _ => rfl, related.eq_iff VersionRow.version fun _ _ => rfl]
  unfold PipelineTables.getPipelineVersion
  generalize left.versions.find? _ = version, right.versions.find? _ = version' at found
  cases found with
  | none => exact .error _
  | @some version version' related =>
    have samePipeline := related.eq_iff VersionRow.pipelineID fun _ _ => rfl
    simp only [Option.bind_some, PipelineTables.joinVersion, same.pipelines, samePipeline]
    cases right.pipelines.find? fun row => row.id = version'.pipelineID with
    | none => exact .error _
    | some row => exact .ok related

theorem listActivePipelines_same (targetClass : TargetClass) (customerID : Option Uuid) :
    List.Forall₂ (SameActive cipher) (left.listActivePipelines targetClass customerID)
      (right.listActivePipelines targetClass customerID) := by
  have rows row : Option.Rel (SameActive cipher) (left.activeRow row) (right.activeRow row) := by
    simp only [PipelineTables.activeRow, PipelineTables.customer, same.customers]
    cases right.customers.find? fun customer => customer.id = row.customerID with
    | none => exact .none
    | some customer =>
      cases row.activeVersionID with
      | none => exact .none
      | some versionID =>
        have related := versionByID_same same versionID
        simp only [Option.bind_some, bind]
        generalize left.versionByID versionID = found, right.versionByID versionID = found' at related
        cases related with
        | none => exact .none
        | some version =>
          split
          · exact .some ⟨rfl, version.graph⟩
          · exact .none
  unfold PipelineTables.listActivePipelines
  rw [same.pipelines]
  refine forall₂_insertionSort (fun a a' b b' related related' => ?_)
    (List.rel_filterMap (fun row row' isSame => ?_) (List.forall₂_same.mpr fun row _ => Eq.refl row))
  · rw [← related.rest, ← related'.rest]
    rfl
  · cases isSame
    exact rows row

end

/-! ## Fields -/

variable {prev : Option Graph}

section

variable {cipher : Option Cipher} {entropy : Entropy}

theorem Hides.fieldError {value : Json} (hides : Hides cipher value) (path : String) :
    fieldError (decryptField cipher) (path, value) =
      cipher.elim (some ("decrypt secret at " ++ path ++ ": " ++ errNotConfigured)) fun _ => none := by
  obtain ⟨ciphertext, marker, decrypts⟩ := hides
  unfold SecretTraversal.fieldError decryptField
  simp only [marker]
  cases cipher with
  | none => rfl
  | some c =>
    obtain ⟨plaintext, opened⟩ := Option.isSome_iff_exists.mp (decrypts c rfl)
    simp [decryptWith, opened]

theorem SameSecret.fieldError {left right : Json} (same : SameSecret cipher left right) (path : String) :
    fieldError (decryptField cipher) (path, left) = fieldError (decryptField cipher) (path, right) := by
  rcases same with rfl | ⟨hides, hides'⟩
  · rfl
  · rw [hides.fieldError, hides'.fieldError]

theorem Hides.isSome_encValue {value : Json} (hides : Hides cipher value) : (encValue value).isSome := by
  obtain ⟨ciphertext, marker, _⟩ := hides
  rw [marker]
  rfl

theorem decryptGraphSecrets_same {left right : Graph}
    (same : SameFields cipher (graphFields left) (graphFields right)) :
    Eff.Agree (fun _ _ => True) (decryptGraphSecrets left cipher) (decryptGraphSecrets right cipher) := by
  have errors : (graphFields left).findSome? (fieldError (decryptField cipher)) =
      (graphFields right).findSome? (fieldError (decryptField cipher)) := by
    refine findSome?_eq_of_forall₂ same ?_
    rintro ⟨path, value⟩ ⟨_, value'⟩ ⟨rfl, related⟩
    exact related.fieldError path
  rw [decryptGraphSecrets_eq, decryptGraphSecrets_eq, errors]
  cases (graphFields right).findSome? (fieldError (decryptField cipher)) with
  | some msg => exact .error _
  | none => exact .ok trivial

structure SameKey (left right : RenderPipeline) : Prop where
  customerSlug : left.customerSlug = right.customerSlug
  pipelineSlug : left.pipelineSlug = right.pipelineSlug

theorem toRender_same {left right : ActivePipeline} (same : SameActive cipher left right) :
    Eff.Agree SameKey (toRender cipher left) (toRender cipher right) := by
  obtain ⟨rest, graphs⟩ := same
  rw [← rest]
  obtain ⟨id, name, customerID, slug, clientID, graph⟩ := left
  unfold toRender
  generalize right.graph = graph' at graphs
  cases graphs with
  | none => exact .error _
  | @some graph graph' related =>
    have agree := decryptGraphSecrets_same related.fields
    simp only [parseGraph]
    generalize decryptGraphSecrets graph cipher = plain, decryptGraphSecrets graph' cipher = plain' at agree
    cases agree with
    | error msg => exact .error _
    | ok => exact .ok ⟨rfl, rfl⟩

variable {left right : List ActivePipeline} (exclude : Option Uuid)

theorem renderInputs_agree {rel : RenderPipeline → RenderPipeline → Prop}
    (agree : List.Forall₂ (fun ap ap' => ap.pipelineID = ap'.pipelineID ∧
      Eff.Agree rel (toRender cipher ap) (toRender cipher ap')) left right) :
    Eff.Agree (List.Forall₂ rel) (renderInputs cipher exclude left) (renderInputs cipher exclude right) := by
  induction agree with
  | nil => exact .ok .nil
  | @cons ap ap' rest rest' head _ ih =>
    obtain ⟨sameID, input⟩ := head
    unfold renderInputs
    rw [sameID]
    split
    · exact ih
    · generalize toRender cipher ap = first, toRender cipher ap' = first' at input
      cases input with
      | error msg => exact .error msg
      | ok related =>
        generalize renderInputs cipher exclude rest = others, renderInputs cipher exclude rest' = others'
          at ih
        cases ih with
        | error msg => exact .error msg
        | ok relateds => exact .ok (.cons related relateds)

theorem SameActive.pipelineID {left right : ActivePipeline} (same : SameActive cipher left right) :
    left.pipelineID = right.pipelineID := by
  rw [← same.rest]

theorem renderInputs_same (same : List.Forall₂ (SameActive cipher) left right) :
    Eff.Agree (List.Forall₂ SameKey) (renderInputs cipher exclude left) (renderInputs cipher exclude right) :=
  renderInputs_agree exclude (same.imp fun _ _ related => ⟨related.pipelineID, toRender_same related⟩)

/-! ## Kept fields -/

variable {index index' : List (String × Json)}

theorem encryptField_same (same : SameFields cipher index index') (path : String) :
    encryptField cipher entropy index path (.str redactedSentinel) =
      encryptField cipher entropy index' path (.str redactedSentinel) ∨
    ∃ value value', encryptField cipher entropy index path (.str redactedSentinel) = .ok (value, []) ∧
      encryptField cipher entropy index' path (.str redactedSentinel) = .ok (value', []) ∧
      Hides cipher value ∧ Hides cipher value' := by
  have stored := lookup_of_forall₂ same path
  have plain : (encValue (.str redactedSentinel)).isSome = false := rfl
  unfold encryptField
  simp only [plain]
  generalize index.lookup path = kept, index'.lookup path = kept' at stored
  cases stored with
  | none => exact Or.inl rfl
  | @some value value' related =>
    rcases related with rfl | ⟨hides, hides'⟩
    · exact Or.inl rfl
    · have marker := hides.isSome_encValue
      have marker' := hides'.isSome_encValue
      exact Or.inr ⟨value, value', by simp [marker], by simp [marker'], hides, hides'⟩

def keptValue (cipher : Option Cipher) (entropy : Entropy) (index : List (String × Json)) (path : String) : Json :=
  match encryptField cipher entropy index path (.str redactedSentinel) with
  | .ok (value, []) => value
  | _ => .str redactedSentinel

theorem keptValue_same (same : SameFields cipher index index') (path : String) :
    SameSecret cipher (keptValue cipher entropy index path) (keptValue cipher entropy index' path) := by
  unfold keptValue
  rcases encryptField_same same path with equal | ⟨value, value', kept, kept', hides, hides'⟩
  · rw [equal]
    exact Or.inl rfl
  · rw [kept, kept']
    exact Or.inr ⟨hides, hides'⟩

variable (index : List (String × Json))

theorem keptValue_shape (path : String) :
    (∃ fields, keptValue cipher entropy index path = .obj fields) ∨
      keptValue cipher entropy index path = .str redactedSentinel := by
  have plain : (encValue (.str redactedSentinel)).isSome = false := rfl
  unfold keptValue
  split
  · next value stored =>
    unfold encryptField at stored
    simp only [plain] at stored
    cases found : index.lookup path with
    | none => simp [found] at stored
    | some kept =>
      simp only [found] at stored
      by_cases marker : (encValue kept).isSome
      · rw [if_pos marker] at stored
        cases stored
        cases value with
        | obj fields => exact Or.inl ⟨fields, rfl⟩
        | _ => cases marker
      · rw [if_neg marker] at stored
        obtain ⟨c, nonce, _, rfl⟩ := encryptPlaintext_ok stored
        exact Or.inl ⟨_, rfl⟩
  · exact Or.inr rfl

theorem redactField_mapNumbers_keptValue (h : Number → Json) (index : List (String × Json)) (path : String) :
    redactField (Json.mapNumbers h (keptValue cipher entropy index path)) = .str redactedSentinel := by
  rcases @keptValue_shape cipher entropy index path with ⟨fields, shape⟩ | shape
  all_goals
    rw [shape]
    exact if_neg (by simp [Json.mapNumbers])

theorem redactField_keptValue (path : String) :
    redactField (keptValue cipher entropy index path) = .str redactedSentinel := by
  rcases @keptValue_shape cipher entropy index path with ⟨fields, shape⟩ | shape
  all_goals
    rw [shape]
    exact if_neg (by simp)

/-- Every secret field of the submitted graph asks to keep what is stored. -/
def KeepsSecrets (graph : Graph) : Prop := ∀ field ∈ graphFields graph, field.2 = .str redactedSentinel

variable {graph stored : Graph}

theorem stored_eq (keeps : KeepsSecrets graph)
    (encrypted : encryptGraphSecrets graph cipher entropy prev = .ok (.ok stored)) :
    stored = replaceGraph (fun path _ => keptValue cipher entropy (indexOf prev) path) graph := by
  obtain ⟨rfl, stores⟩ := encryptGraphSecrets_ok encrypted
  refine replaceGraph_congr fun field mem => ?_
  have stored := stores field mem
  rw [keeps field mem] at stored ⊢
  rw [keptValue, stored]

def fill (kept : String → String) (graph : Graph) : Graph := replaceGraph (fun path _ => .str (kept path)) graph

def kept (cipher : Option Cipher) (prev : Option Graph) (path : String) : String :=
  (keptPlaintext cipher (indexOf prev) path).getD ""

theorem plain_eq {graph stored plain : Graph} (keeps : KeepsSecrets graph)
    (encrypted : encryptGraphSecrets graph cipher entropy prev = .ok (.ok stored))
    (decrypted : decryptGraphSecrets stored cipher = .ok plain) : plain = fill (kept cipher prev) graph := by
  rw [plainGraph_of_stored encrypted decrypted]
  refine replaceGraph_congr fun field mem => ?_
  rw [keeps field mem]
  rfl

theorem redact_stored (keeps : KeepsSecrets graph)
    (encrypted : encryptGraphSecrets graph cipher entropy prev = .ok (.ok stored)) :
    redactGraphSecrets stored = replaceGraph (fun _ _ => .str redactedSentinel) graph := by
  rw [stored_eq keeps encrypted, redactGraphSecrets_eq, replaceGraph_replaceGraph]
  simp only [redactField_keptValue]

theorem redact_marshalled (format : ℚ → String) (keeps : KeepsSecrets graph)
    (encrypted : encryptGraphSecrets graph cipher entropy prev = .ok (.ok stored)) :
    (marshalGraph format stored).map redactGraphSecrets =
      (marshalGraph format graph).map (replaceGraph fun _ _ => .str redactedSentinel) := by
  rw [stored_eq keeps encrypted]
  have store := @storeGraph_replaceGraph (fun path _ => keptValue cipher entropy (indexOf prev) path)
    (fun path _ => Json.mapNumbers (storeNumber format) (keptValue cipher entropy (indexOf prev) path)) format fun _ _ => rfl
  simp only [marshalGraph, Option.map_some, store, redactGraphSecrets_eq, replaceGraph_replaceGraph, redactField_mapNumbers_keptValue]

end

/-! ## Validation -/

/-- The schema validator says nothing about the string in a password field: such a
    field has the type and the format alone. -/
def SecretBlind (schemas : SchemaValidator) : Prop :=
  ∀ component ∈ Catalog.all, ∀ (path : String) (config : Json) (kept other : String → String),
    schemas component.schema (replaceSecrets (fun path _ => .str (kept path)) (some component.schema) path config) =
      schemas component.schema (replaceSecrets (fun path _ => .str (other path)) (some component.schema) path config)

section

variable {schemas : SchemaValidator} (blind : SecretBlind schemas) (kept other : String → String)

include blind

theorem validateConfig_same {kind : Kind} {node : Node} {component : Component}
    (found : Catalog.lookup kind node.type = some component) (path : String) :
    component.validateConfig schemas (replaceNode (fun path _ => .str (kept path)) kind path node) =
      component.validateConfig schemas (replaceNode (fun path _ => .str (other path)) kind path node) := by
  have normalized (kept : String → String) :
      normalize (replaceNode (fun path _ => .str (kept path)) kind path node).configValue =
        replaceSecrets (fun path _ => .str (kept path)) (some component.schema) path (normalize node.configValue) := by
    rw [configValue_replaceNode, nodeSchema, found]
    exact (@mapNumbers_replaceSecrets _ (fun path _ => .str (kept path)) _ isLeaf_normalizeNumber fun _ _ => rfl).1 _ path _
  rw [Component.validateConfig, Component.validateConfig, normalized, normalized]
  exact blind component (Catalog.lookup_type found).1 path _ kept other

theorem nodeIssues_same [PrintTable] (field : String) (kind : Kind) (name : String) (i : Nat) (seen : List (String × Nat))
    (nodes : List Node) :
    nodeIssues schemas field kind i seen (replaceNodes (fun path _ => .str (kept path)) kind name i nodes) =
      nodeIssues schemas field kind i seen (replaceNodes (fun path _ => .str (other path)) kind name i nodes) := by
  induction nodes generalizing i seen with
  | nil => rfl
  | cons node nodes ih =>
    simp only [replaceNodes, nodeIssues, nameIssues, replaceNode_type, replaceNode_name, componentID, nodeSuffix]
    cases found : Catalog.lookup kind node.type with
    | none => simp only [ih]
    | some component =>
      simp only [validateConfig_same blind kept other found, ih]

theorem validateStructural_same [PrintTable] (graph : Graph) :
    validateStructural schemas (fill kept graph) = validateStructural schemas (fill other graph) := by
  have empty : (fill kept graph).exporters = [] ↔ (fill other graph).exporters = [] := by
    rw [fill, fill, replaceGraph, replaceGraph]
    cases graph.exporters <;> simp [replaceNodes]
  have processors := nodeIssues_same blind kept other "processors" .processor "processors" 0 [] graph.processors
  have exporters := nodeIssues_same blind kept other "exporters" .exporter "exporters" 0 [] graph.exporters
  unfold validateStructural
  rw [if_congr empty rfl rfl]
  exact congrArg₂ _ (congrArg₂ _ rfl processors) exporters

end

section

variable {left right : List RenderPipeline}

theorem duplicateKey_same (same : List.Forall₂ SameKey left right) (seen : List String) :
    duplicateKey seen left = duplicateKey seen right := by
  induction same generalizing seen with
  | nil => rfl
  | @cons p p' _ _ head _ ih =>
    have keys : p.key = p'.key := by
      rw [RenderPipeline.key, RenderPipeline.key, head.customerSlug, head.pipelineSlug]
    simp only [duplicateKey, keys, ih]

theorem renderFullFor_same [PrintTable] (targetClass : TargetClass) (same : List.Forall₂ SameKey left right) :
    Eff.Agree (fun _ _ => True) (renderFullFor targetClass left) (renderFullFor targetClass right) := by
  have sorted : List.Forall₂ SameKey (sortPipelines left) (sortPipelines right) := by
    refine forall₂_insertionSort (fun a a' b b' related related' => ?_) same
    rw [lessPipeline, lessPipeline, related.customerSlug, related.pipelineSlug, related'.customerSlug,
      related'.pipelineSlug]
  have keys := duplicateKey_same sorted []
  cases targetClass with
  | forwarding =>
    simp only [renderFullFor, renderForwardingConfig, keys]
    split
    · exact .error _
    · exact .ok trivial
  | edge =>
    simp only [renderFullFor, renderEdgeConfig, keys]
    split
    · exact .error _
    · exact .ok trivial

end

/-! ## Two runs -/

structure SameWorld (cipher : Option Cipher) (left right : World) : Prop where
  db : SameStore cipher left.db right.db
  calls : left.calls = right.calls

section

variable {env : ServiceEnv} {α β : Type} {rel : α → β → Prop}

theorem sim_query {run : PipelineTables → Except StoreError α} {run' : PipelineTables → Except StoreError β}
    (agree : ∀ left right, SameStore env.cipher left right → Eff.Agree rel (run left) (run' right)) :
    Eff.Sim (SameWorld env.cipher) (SameWorld env.cipher) rel (query env run) (query env run') := by
  intro world other same
  have ticked : SameWorld env.cipher (tick world) (tick other) := ⟨same.db, congrArg (· + 1) same.calls⟩
  have results := agree _ _ same.db
  rw [run_query, run_query, same.calls]
  cases env.faults other.calls with
  | some msg => exact ⟨ticked, .error _⟩
  | none => exact ⟨ticked, results.mapError _⟩

theorem sim_storeCall {run : PipelineTables → Except StoreError (α × PipelineTables)}
    {run' : PipelineTables → Except StoreError (β × PipelineTables)}
    (agree : ∀ left right, SameStore env.cipher left right →
      Eff.Agree (fun a b => rel a.1 b.1) (run left) (run' right)) :
    Eff.Sim (SameWorld env.cipher) (fun _ _ => True) rel (storeCall env run) (storeCall env run') := by
  intro world other same
  refine ⟨trivial, ?_⟩
  have results := agree _ _ same.db
  unfold storeCall
  dsimp only
  rw [same.calls]
  cases env.faults other.calls with
  | some msg => exact .error _
  | none =>
    generalize run world.db = res, run' other.db = res' at results
    cases results with
    | error err => exact .error _
    | ok related => exact .ok related

theorem sim_liftError {left : Except String α} {right : Except String β} (agree : Eff.Agree rel left right) :
    Eff.Sim (SameWorld env.cipher) (SameWorld env.cipher) rel (liftError left) (liftError right) :=
  .ofExcept (agree.mapError _)

theorem sim_previousGraph (pipe : Pipeline) :
    Eff.Sim (SameWorld env.cipher) (SameWorld env.cipher)
      (fun prev prev' => SameFields env.cipher (indexOf prev) (indexOf prev'))
      (previousGraph env pipe) (previousGraph env pipe) := by
  unfold previousGraph
  cases pipe.latestVersion with
  | none => exact .pure .nil
  | some latest =>
    refine .bind (sim_query fun left right same => getPipelineVersion_same same pipe.id latest)
      (fun _ _ same => same) fun version version' related => ?_
    have parsed : Eff.Agree (SameGraph env.cipher) (parseGraph version.row.graph) (parseGraph version'.row.graph) := by
      have graphs := related.graph
      generalize version.row.graph = graph, version'.row.graph = graph' at graphs
      cases graphs with
      | none => exact .error _
      | some same => exact .ok same
    exact .bind (sim_liftError parsed) (fun _ _ same => same) fun graph graph' same => .pure same.fields

theorem sim_activeRenderPipelines (targetClass : TargetClass) (customerID exclude : Option Uuid) :
    Eff.Sim (SameWorld env.cipher) (SameWorld env.cipher) (List.Forall₂ SameKey)
      (activeRenderPipelines env targetClass customerID exclude)
      (activeRenderPipelines env targetClass customerID exclude) := by
  refine .bind (sim_query fun left right same => .ok (listActivePipelines_same same targetClass customerID))
    (fun _ _ same => same) fun aps aps' related => ?_
  exact sim_liftError (renderInputs_same exclude related)

end

structure SameResult (left right : Result) : Prop where
  valid : left.valid = right.valid
  issues : left.issues = right.issues
  rendered : left.renderedYAML = none ↔ right.renderedYAML = none

inductive SameEncrypted : Except (List Issue) Graph → Except (List Issue) Graph → Prop where
  | refused (issues : List Issue) : SameEncrypted (.error issues) (.error issues)
  | stored (left right : Graph) : SameEncrypted (.ok left) (.ok right)

inductive SamePrepared : Prepared → Prepared → Prop where
  | invalid {left right : Result} (same : SameResult left right) : SamePrepared (.invalid left) (.invalid right)
  | ready (version : VersionRow) {graph graph' : Payload}
    (redacted : graph.map redactGraphSecrets = graph'.map redactGraphSecrets) :
    SamePrepared (.ready { version with graph }) (.ready { version with graph := graph' })

inductive SameCreated : CreatedVersion → CreatedVersion → Prop where
  | invalid {left right : Result} (same : SameResult left right) : SameCreated (.invalid left) (.invalid right)
  | created {left right : PipelineVersion} (same : toVersion left = toVersion right) :
    SameCreated (.created left) (.created right)

def SameVerdict (validator : Validator) : Prop :=
  ∃ outcome : Option (Except String Unit), validator.otelcol = outcome.map fun verdict _ => verdict

section

variable {env : ServiceEnv} {graph : Graph} (keeps : KeepsSecrets graph)
  (blind : SecretBlind env.validator.schemas) (verdict : SameVerdict env.validator) (pipe : Pipeline)

include blind verdict in
theorem validate_same [PrintTable] (kept other : String → String) {others others' : List RenderPipeline}
    (same : List.Forall₂ SameKey others others') :
    SameResult (env.validator.validate pipe.targetClass (candidateOf pipe (fill kept graph)) others)
      (env.validator.validate pipe.targetClass (candidateOf pipe (fill other graph)) others') := by
  have structural : validateStructural env.validator.schemas (candidateOf pipe (fill kept graph)).graph =
      validateStructural env.validator.schemas (candidateOf pipe (fill other graph)).graph :=
    validateStructural_same blind kept other graph
  have full := renderFullFor_same pipe.targetClass (List.rel_append same
    (.cons (⟨rfl, rfl⟩ : SameKey (candidateOf pipe (fill kept graph)) (candidateOf pipe (fill other graph))) .nil))
  obtain ⟨outcome, constant⟩ := verdict
  unfold Validator.validate
  rw [structural, renderFragmentFor_eq, renderFragmentFor_eq, constant]
  cases validateStructural env.validator.schemas (candidateOf pipe (fill other graph)).graph with
  | cons issue issues => exact ⟨rfl, rfl, Iff.rfl⟩
  | nil =>
    dsimp only
    generalize renderFullFor pipe.targetClass (others ++ [candidateOf pipe (fill kept graph)]) = res,
      renderFullFor pipe.targetClass (others' ++ [candidateOf pipe (fill other graph)]) = res' at full
    cases full with
    | error msg => exact ⟨rfl, rfl, by simp⟩
    | ok =>
      cases outcome with
      | none => exact ⟨rfl, rfl, by simp⟩
      | some verdict => cases verdict <;> exact ⟨rfl, rfl, by simp⟩

variable {prev prev' : Option Graph}
  (related : SameFields env.cipher (indexOf prev) (indexOf prev'))

include keeps related

theorem encryptGraphSecrets_same :
    Eff.Agree SameEncrypted (encryptGraphSecrets graph env.cipher env.entropy prev)
      (encryptGraphSecrets graph env.cipher env.entropy prev') := by
  have outcomes field (mem : field ∈ graphFields graph) :
      fieldError (encryptField env.cipher env.entropy (indexOf prev)) field =
        fieldError (encryptField env.cipher env.entropy (indexOf prev')) field ∧
      fieldLog (encryptField env.cipher env.entropy (indexOf prev)) field =
        fieldLog (encryptField env.cipher env.entropy (indexOf prev')) field := by
    unfold fieldError fieldLog
    rw [keeps field mem]
    rcases @encryptField_same _ env.entropy _ _ related field.1 with equal | ⟨value, value', kept, kept', _, _⟩
    · rw [equal]
      exact ⟨rfl, rfl⟩
    · rw [kept, kept']
      exact ⟨rfl, rfl⟩
  have errors : (graphFields graph).findSome? (fieldError (encryptField env.cipher env.entropy (indexOf prev))) =
      (graphFields graph).findSome? (fieldError (encryptField env.cipher env.entropy (indexOf prev'))) := by
    have visited : List.Forall₂ (fun a b => a = b ∧ a ∈ graphFields graph) (graphFields graph) (graphFields graph) :=
      List.forall₂_same.mpr fun _ mem => ⟨rfl, mem⟩
    refine findSome?_eq_of_forall₂ visited ?_
    rintro field _ ⟨rfl, mem⟩
    exact (outcomes field mem).1
  have logs := List.flatMap_congr fun field mem => (outcomes field mem).2
  rw [encryptGraphSecrets_eq, encryptGraphSecrets_eq, errors, logs]
  split
  · exact .error _
  · split
    · exact .ok (.stored _ _)
    · exact .ok (.refused _)

include blind verdict

theorem sim_validateStored [PrintTable] {stored stored' : Graph}
    (encrypted : encryptGraphSecrets graph env.cipher env.entropy prev = .ok (.ok stored))
    (encrypted' : encryptGraphSecrets graph env.cipher env.entropy prev' = .ok (.ok stored')) :
    Eff.Sim (SameWorld env.cipher) (SameWorld env.cipher) SamePrepared (validateStored env pipe stored)
      (validateStored env pipe stored') := by
  have fields : SameFields env.cipher (graphFields stored) (graphFields stored') := by
    rw [stored_eq keeps encrypted, stored_eq keeps encrypted', graphFields_replaceGraph, graphFields_replaceGraph]
    refine List.forall₂_map_left_iff.mpr (List.forall₂_map_right_iff.mpr (List.forall₂_same.mpr fun field _ => ?_))
    exact ⟨rfl, keptValue_same related field.1⟩
  refine .bind (sim_liftError (decryptGraphSecrets_same fields).with_eq) (fun _ _ same => same) ?_
  rintro plain plain' ⟨_, decrypted, decrypted'⟩
  rw [plain_eq keeps encrypted decrypted, plain_eq keeps encrypted' decrypted']
  refine .bind (sim_activeRenderPipelines _ _ _) (fun _ _ same => same) fun others others' sameOthers => ?_
  have results := @validate_same env graph blind verdict pipe _ (kept env.cipher prev) (kept env.cipher prev')
    others others' sameOthers
  dsimp only
  rw [← results.valid]
  split
  · rw [redact_stored keeps encrypted, redact_stored keeps encrypted']
    refine .bind (sim_liftError (Eff.Agree.of_eq rfl)) (fun _ _ same => same) ?_
    rintro fragment _ rfl
    rw [results.issues]
    exact .pure (.ready (versionRow env pipe stored fragment _)
      ((redact_marshalled env.format keeps encrypted).trans (redact_marshalled env.format keeps encrypted').symm))
  · exact .pure (.invalid results)

theorem sim_prepare [PrintTable] :
    Eff.Sim (SameWorld env.cipher) (SameWorld env.cipher) SamePrepared (prepare env pipe graph prev)
      (prepare env pipe graph prev') := by
  refine .bind (sim_liftError (encryptGraphSecrets_same keeps related).with_eq) (fun _ _ same => same) ?_
  rintro outcome outcome' ⟨same, encrypted, encrypted'⟩
  cases same with
  | refused issues => exact .pure (.invalid ⟨rfl, rfl, Iff.rfl⟩)
  | stored stored stored' => exact sim_validateStored keeps blind verdict pipe related encrypted encrypted'

end

theorem createPipelineVersion_same {cipher : Option Cipher} {left right : PipelineTables}
    (same : SameStore cipher left right) (version : VersionRow) {graph graph' : Payload}
    (redacted : graph.map redactGraphSecrets = graph'.map redactGraphSecrets) (entries : List AuditEntry) :
    Eff.Agree (fun created created' => toVersion created.1 = toVersion created'.1)
      (left.createPipelineVersion { version with graph } entries)
      (right.createPipelineVersion { version with graph := graph' } entries) := by
  have ids : left.versions.map VersionRow.id = right.versions.map VersionRow.id := by
    refine List.forall₂_eq_eq_eq ▸ ?_
    exact List.forall₂_map_left_iff.mpr (List.forall₂_map_right_iff.mpr
      (same.versions.imp fun _ _ related => related.eq_iff VersionRow.id fun _ _ => rfl))
  have taken : (∃ row ∈ left.versions, row.id = version.id) ↔ ∃ row ∈ right.versions, row.id = version.id := by
    rw [← List.mem_map, ids, List.mem_map]
  have response number email active :
      toVersion ⟨{ version with version := number, graph }, email, active⟩ =
        toVersion ⟨{ version with version := number, graph := graph' }, email, active⟩ := by
    cases graph with
    | none =>
      cases graph' with
      | none => rfl
      | some graph' => cases redacted
    | some graph =>
      cases graph' with
      | none => cases redacted
      | some graph' => simp [toVersion, parseGraph, Option.some.inj redacted]
  unfold PipelineTables.createPipelineVersion
  simp only [PipelineTables.joinVersion, PipelineTables.writeAudit, same.pipelines, same.emails, taken,
    latestVersion_same same]
  split
  · split
    · exact .error _
    · cases right.pipelines.find? fun row => row.id = version.pipelineID with
      | none => exact .error _
      | some row => exact .ok (response _ _ _)
  · exact .error _

theorem sim_insertVersion {env : ServiceEnv} (pipelineID : Uuid) (pipe : Pipeline) {left right : Prepared}
    (same : SamePrepared left right) :
    Eff.Sim (SameWorld env.cipher) (fun _ _ => True) SameCreated (insertVersion env pipelineID pipe left)
      (insertVersion env pipelineID pipe right) := by
  cases same with
  | invalid same => exact fun _ _ _ => ⟨trivial, .ok (.invalid same)⟩
  | ready version redacted =>
    refine .bind (sim_storeCall fun left right same => createPipelineVersion_same same version redacted _)
      (fun _ _ _ => trivial) fun created created' same => .pure (.created same)

theorem sim_createVersion [PrintTable] {env : ServiceEnv} {graph : Graph} (keeps : KeepsSecrets graph)
    (blind : SecretBlind env.validator.schemas) (verdict : SameVerdict env.validator) (pipelineID : Uuid) :
    Eff.Sim (SameWorld env.cipher) (fun _ _ => True) SameCreated (createVersion env pipelineID graph)
      (createVersion env pipelineID graph) := by
  refine .bind (sim_query fun left right same => Eff.Agree.of_eq (getPipeline_same same pipelineID))
    (fun _ _ _ => trivial) ?_
  rintro pipe _ rfl
  refine .bind (sim_previousGraph pipe) (fun _ _ _ => trivial) fun prev prev' related => ?_
  refine .bind (sim_prepare keeps blind verdict pipe related) (fun _ _ _ => trivial) fun prepared prepared' same => ?_
  exact sim_insertVersion pipelineID pipe same

/-! ## Fragments -/

section

variable {kept other : String → String}

theorem kept_of_rendered_nodes (kind : Kind) (name : String) (i : Nat) (nodes : List Node)
    (same : (replaceNodes (fun path _ => .str (kept path)) kind name i nodes).map (fun node => toNode node.configValue) =
      (replaceNodes (fun path _ => .str (other path)) kind name i nodes).map fun node => toNode node.configValue) :
    ∀ field ∈ nodesFields kind name i nodes, kept field.1 = other field.1 := by
  induction nodes generalizing i with
  | nil => simp [nodesFields]
  | cons node nodes ih =>
    simp only [replaceNodes, List.map_cons, List.cons.injEq] at same
    refine List.forall_mem_append.mpr ⟨?_, ih (i + 1) same.2⟩
    rw [nodeFields_eq]
    simp only [configValue_replaceNode] at same
    exact kept_of_toNode_replaceSecrets.1 _ _ _ same.1

theorem map_snd_components (p : RenderPipeline) (nodes : List Node) :
    (p.components nodes).map Prod.snd = nodes.map fun node => toNode node.configValue := by
  refine List.ext_getElem (by simp [RenderPipeline.components]) fun i _ _ => ?_
  simp [RenderPipeline.components]

theorem kept_of_components (pipe : Pipeline) (graph : Graph) (kind : Kind) (name : String) (nodes : List Node)
    (same : (candidateOf pipe (fill kept graph)).components
        (replaceNodes (fun path _ => .str (kept path)) kind name 0 nodes) =
      (candidateOf pipe (fill other graph)).components
        (replaceNodes (fun path _ => .str (other path)) kind name 0 nodes)) :
    ∀ field ∈ nodesFields kind name 0 nodes, kept field.1 = other field.1 := by
  refine kept_of_rendered_nodes kind name 0 nodes ?_
  rw [← map_snd_components, ← map_snd_components, same]

theorem kept_of_fragment (render : String → RenderPipeline → YamlNode) (pipe : Pipeline) (graph : Graph)
    (same : fragment render (candidateOf pipe (fill kept graph)) =
      fragment render (candidateOf pipe (fill other graph))) :
    ∀ field ∈ graphFields graph, kept field.1 = other field.1 := by
  have empty f :
      replaceNodes f .processor "processors" 0 graph.processors = [] ↔ graph.processors = [] := by
    cases graph.processors <;> simp [replaceNodes]
  unfold fragment at same
  by_cases none : graph.processors = []
  · have processors kept : (candidateOf pipe (fill kept graph)).graph.processors = [] :=
      (empty _).mpr none
    rw [if_pos (processors kept), if_pos (processors other)] at same
    simp only [List.nil_append, YamlNode.map.injEq, List.cons.injEq, Prod.mk.injEq, true_and] at same
    refine List.forall_mem_append.mpr ⟨by simp [none, nodesFields], ?_⟩
    exact kept_of_components pipe graph .exporter "exporters" graph.exporters same.1
  · have processors kept : (candidateOf pipe (fill kept graph)).graph.processors ≠ [] :=
      fun nil => none ((empty _).mp nil)
    rw [if_neg (processors kept), if_neg (processors other)] at same
    simp only [List.cons_append, List.nil_append, YamlNode.map.injEq, List.cons.injEq, Prod.mk.injEq, true_and]
      at same
    exact List.forall_mem_append.mpr
      ⟨kept_of_components pipe graph .processor "processors" graph.processors same.1,
        kept_of_components pipe graph .exporter "exporters" graph.exporters same.2.1⟩

theorem fragment_fill_eq_iff (targetClass : TargetClass) (pipe : Pipeline) (graph : Graph) :
    fragmentFor targetClass (candidateOf pipe (fill kept graph)) =
        fragmentFor targetClass (candidateOf pipe (fill other graph)) ↔
      ∀ field ∈ graphFields graph, kept field.1 = other field.1 := by
  constructor
  · cases targetClass with
    | forwarding => exact kept_of_fragment customerPipeline pipe graph
    | edge => exact kept_of_fragment edgePipeline pipe graph
  · intro same
    have filled : fill kept graph = fill other graph :=
      replaceGraph_congr fun field mem => congrArg Json.str (same field mem)
    rw [filled]

end

/-! ## Responses -/

/-- The submitted graph is rendered and then rejected, and the two stores keep
    different secrets for it. -/
def Leaks [PrintTable] (env : ServiceEnv) (left right : PipelineTables) (pipelineID : Uuid) (graph : Graph)
    (n : Nat) : Prop :=
  ∃ pipe prev m stored plain others, Reaches env left pipelineID graph n pipe prev m stored plain others ∧
    validateStructural env.validator.schemas plain = [] ∧
    env.validator.Rejects pipe.targetClass (candidateOf pipe plain) others ∧
    ∃ prev' m', PreviousRead env right pipe (n + 1) prev' m' ∧
      ∃ field ∈ graphFields graph, kept env.cipher prev field.1 ≠ kept env.cipher prev' field.1

section

variable [PrintTable] {env : ServiceEnv} {pipelineID : Uuid} {graph : Graph} {world : World}

theorem rejected_outcome {pipe : Pipeline} {m : Nat} {stored plain : Graph} {others : List RenderPipeline}
    (reaches : Reaches env world.db pipelineID graph world.calls pipe prev m stored plain others)
    (clean : validateStructural env.validator.schemas plain = [])
    (rejects : env.validator.Rejects pipe.targetClass (candidateOf pipe plain) others) :
    ∃ res, ((createVersion env pipelineID graph).run world).1 = .ok (.invalid res) ∧
      res.renderedYAML = some (fragmentFor pipe.targetClass (candidateOf pipe plain)) := by
  rcases @createVersion_cases env _ pipelineID graph world with
    ⟨pipe', prev', m', stored', plain', others', reaches', ran⟩ | ⟨never, _⟩
  · obtain ⟨rfl, rfl, rfl, rfl, rfl, rfl⟩ := reaches.unique reaches'
    obtain ⟨res, isPrepared, rendered⟩ := @prepared_of_rejects env _ pipe stored plain others clean rejects
    rw [ran, isPrepared]
    exact ⟨res, rfl, rendered⟩
  · exact absurd reaches (never _ _ _ _ _ _)

theorem rejected_of_rendered {res : Result} {fragment : YamlNode}
    (invalid : ((createVersion env pipelineID graph).run world).1 = .ok (.invalid res))
    (rendered : res.renderedYAML = some fragment) :
    ∃ pipe prev m stored plain others,
      Reaches env world.db pipelineID graph world.calls pipe prev m stored plain others ∧
      validateStructural env.validator.schemas plain = [] ∧
      env.validator.Rejects pipe.targetClass (candidateOf pipe plain) others ∧
      fragment = fragmentFor pipe.targetClass (candidateOf pipe plain) := by
  rcases @createVersion_cases env _ pipelineID graph world with
    ⟨pipe, prev, m, stored, plain, others, reaches, ran⟩ | ⟨_, stops⟩
  · rw [ran] at invalid
    by_cases clean : validateStructural env.validator.schemas plain = []
    · by_cases rejects : env.validator.Rejects pipe.targetClass (candidateOf pipe plain) others
      · obtain ⟨refused, isPrepared, isFragment⟩ := @prepared_of_rejects env _ pipe stored plain others clean rejects
        rw [isPrepared] at invalid
        cases invalid
        exact ⟨pipe, prev, m, stored, plain, others, reaches, clean, rejects,
          Option.some.inj (rendered.symm.trans isFragment)⟩
      · -- an accepted graph is inserted or its insert fails
        obtain ⟨issues, isPrepared⟩ := @prepared_of_accepts env _ pipe stored plain others clean rejects
        rw [isPrepared] at invalid
        exact absurd invalid (insertVersion_ready_ne_invalid _ _ _ _)
    · rw [prepared_of_issues clean] at invalid
      cases invalid
      cases rendered
  · generalize (createVersion env pipelineID graph).run world = outcome at stops invalid
    cases stops with
    | failed err calls => cases invalid
    | refused issues calls =>
      cases invalid
      cases rendered

theorem fragment_eq_iff_not_leaks {other : World} (keeps : KeepsSecrets graph) (same : SameWorld env.cipher world other)
    {res res' : Result} {fragment fragment' : YamlNode}
    (invalid : ((createVersion env pipelineID graph).run world).1 = .ok (.invalid res))
    (invalid' : ((createVersion env pipelineID graph).run other).1 = .ok (.invalid res'))
    (rendered : res.renderedYAML = some fragment) (rendered' : res'.renderedYAML = some fragment') :
    fragment = fragment' ↔ ¬ Leaks env world.db other.db pipelineID graph world.calls := by
  obtain ⟨pipe, prev, m, stored, plain, others, reaches, clean, rejects, rfl⟩ :=
    rejected_of_rendered invalid rendered
  obtain ⟨pipe', prev', m', stored', plain', others', reaches', _, _, rfl⟩ :=
    rejected_of_rendered invalid' rendered'
  -- the pipeline is the same in both stores
  have samePipe := reaches.found.symm.trans ((getPipeline_same same.db pipelineID).trans reaches'.found)
  cases samePipe
  have read' := reaches'.read
  rw [← same.calls] at read'
  obtain rfl := plain_eq keeps reaches.encrypted reaches.decrypted
  obtain rfl := plain_eq keeps reaches'.encrypted reaches'.decrypted
  rw [fragment_fill_eq_iff]
  constructor
  · rintro equal ⟨_, _, _, _, _, _, leaked, _, _, _, _, read, field, mem, differ⟩
    obtain ⟨rfl, rfl, _⟩ := reaches.unique leaked
    obtain ⟨rfl, _⟩ := read'.unique read
    exact differ (equal field mem)
  · intro notLeaked field mem
    by_contra differ
    exact notLeaked ⟨_, _, _, _, _, _, reaches, clean, rejects, _, _, read', field, mem, differ⟩

/-- Over stores that differ in hidden secrets only, a request that keeps them all is
    answered the same, unless it is rejected with the rendered fragment and the
    secrets that it keeps differ. -/
theorem createVersion_response_eq_iff {other : World} (keeps : KeepsSecrets graph)
    (blind : SecretBlind env.validator.schemas) (verdict : SameVerdict env.validator)
    (same : SameWorld env.cipher world other) :
    ((createVersionResponse env pipelineID graph).run world).1 =
        ((createVersionResponse env pipelineID graph).run other).1 ↔
      ¬ Leaks env world.db other.db pipelineID graph world.calls := by
  have agree := (sim_createVersion keeps blind verdict pipelineID world other same).2
  have notLeaked (harmless : ∀ res, ((createVersion env pipelineID graph).run world).1 = .ok (.invalid res) →
      res.renderedYAML = none) : ¬ Leaks env world.db other.db pipelineID graph world.calls := by
    rintro ⟨pipe, prev, m, stored, plain, others, reaches, clean, rejects, _⟩
    obtain ⟨res, invalid, rendered⟩ := rejected_outcome reaches clean rejects
    cases (harmless res invalid).symm.trans rendered
  rw [run_createVersionResponse, run_createVersionResponse]
  generalize outcome : ((createVersion env pipelineID graph).run world).1 = res,
    outcome' : ((createVersion env pipelineID graph).run other).1 = res' at agree ⊢
  cases agree with
  | error err => exact iff_of_true rfl (notLeaked fun res invalid => by cases outcome.symm.trans invalid)
  | ok related =>
    cases related with
    | @created version version' sameResponse =>
      refine iff_of_true ?_ (notLeaked fun res invalid => by cases outcome.symm.trans invalid)
      simp only [Except.mapError, Except.bind, versionResponse, sameResponse]
    | @invalid res res' sameResult =>
      cases rendered : res.renderedYAML with
      | none =>
        have rendered' := sameResult.rendered.mp rendered
        refine iff_of_true ?_ (notLeaked fun other invalid => ?_)
        · simp [Except.mapError, Except.bind, versionResponse, toValidationResult, sameResult.valid,
            sameResult.issues, rendered, rendered']
        · cases outcome.symm.trans invalid
          exact rendered
      | some fragment =>
        cases rendered' : res'.renderedYAML with
        | none => cases rendered.symm.trans (sameResult.rendered.mpr rendered')
        | some fragment' =>
          rw [← fragment_eq_iff_not_leaks keeps same outcome outcome' rendered rendered']
          simp [Except.mapError, Except.bind, versionResponse, toValidationResult, sameResult.valid,
            sameResult.issues, rendered, rendered']

end

/-! ## A rejected token -/

attribute [local instance] asciiPrintTable

def splunkGraph (token : Json) : Graph :=
  ⟨["logs"], [], [⟨"splunk_hec", none, some [("endpoint", .str "https://hec.example:8088"), ("token", token)]⟩]⟩

def splunkWorld (token : String) : World := oneVersion none (splunkGraph (newEncValue (hexCipher.encrypt 0 token)))

def refusing : ServiceEnv :=
  { workingEnv with
    validator := ⟨fun _ _ => none, "/usr/local/bin/otelcol", some fun _ => .error "exit status 1"⟩
    cipher := some hexCipher }

def keepToken : Graph := splunkGraph (.str redactedSentinel)

theorem splunkWorld_same (token other : String) :
    SameWorld refusing.cipher (splunkWorld token) (splunkWorld other) := by
  have hides token : Hides refusing.cipher (newEncValue (hexCipher.encrypt 0 token)) := by
    refine ⟨_, encValue_newEncValue hexCipher 0 token, ?_⟩
    rintro _ ⟨⟩
    rw [hexCipher.decrypt_encrypt]
    rfl
  have graphs : SameGraph refusing.cipher (splunkGraph (newEncValue (hexCipher.encrypt 0 token)))
      (splunkGraph (newEncValue (hexCipher.encrypt 0 other))) := by
    refine ⟨rfl, ?_⟩
    exact .cons ⟨rfl, Or.inr ⟨hides token, hides other⟩⟩ .nil
  exact ⟨⟨rfl, rfl, rfl, rfl, .cons ⟨rfl, .some graphs⟩ .nil⟩, rfl⟩

theorem keepToken_keeps : KeepsSecrets keepToken := by
  intro field mem
  cases List.mem_singleton.mp mem
  rfl

theorem keepToken_response_iff :
    KeepsSecrets keepToken ∧ SecretBlind refusing.validator.schemas ∧ SameVerdict refusing.validator ∧
    SameWorld refusing.cipher (splunkWorld "a") (splunkWorld "b") ∧
    (((createVersionResponse refusing ⟨10⟩ keepToken).run (splunkWorld "a")).1 =
        ((createVersionResponse refusing ⟨10⟩ keepToken).run (splunkWorld "b")).1 ↔
      ¬ Leaks refusing (splunkWorld "a").db (splunkWorld "b").db ⟨10⟩ keepToken 0) := by
  have blind : SecretBlind refusing.validator.schemas := fun _ _ _ _ _ _ => rfl
  have verdict : SameVerdict refusing.validator := ⟨some (.error "exit status 1"), rfl⟩
  exact ⟨keepToken_keeps, blind, verdict, splunkWorld_same "a" "b",
    createVersion_response_eq_iff keepToken_keeps blind verdict (splunkWorld_same "a" "b")⟩

theorem keepToken_rejected {token : String} (isToken : token = "a" ∨ token = "b") :
    ∃ res, ((createVersion refusing ⟨10⟩ keepToken).run (splunkWorld token)).1 = .ok (.invalid res) ∧
      res.renderedYAML =
        some (fragmentFor .forwarding (candidateOf acmePipeline (splunkGraph (.str token)))) := by
  have reaches : Reaches refusing (splunkWorld token).db ⟨10⟩ keepToken 0 acmePipeline
      (some (splunkGraph (newEncValue (hexCipher.encrypt 0 token)))) 2
      (splunkGraph (newEncValue (hexCipher.encrypt 0 token))) (splunkGraph (.str token)) [] := by
    rcases isToken with rfl | rfl <;> exact ⟨⟨rfl, rfl, rfl, rfl⟩, rfl, rfl, rfl, rfl, _, _, rfl, rfl, rfl⟩
  have clean : validateStructural refusing.validator.schemas (splunkGraph (.str token)) = [] := rfl
  exact rejected_outcome reaches clean (Or.inr ⟨_, _, _, rfl, rfl, rfl⟩)

/-- The collector refuses the config: the answers tell the two tokens apart. -/
theorem keepToken_leaks :
    KeepsSecrets keepToken ∧ SecretBlind refusing.validator.schemas ∧ SameVerdict refusing.validator ∧
    SameWorld refusing.cipher (splunkWorld "a") (splunkWorld "b") ∧
    ((createVersionResponse refusing ⟨10⟩ keepToken).run (splunkWorld "a")).1 ≠
      ((createVersionResponse refusing ⟨10⟩ keepToken).run (splunkWorld "b")).1 := by
  refine ⟨keepToken_keeps, fun _ _ _ _ _ _ => rfl, ⟨some (.error "exit status 1"), rfl⟩, splunkWorld_same "a" "b",
    fun same => ?_⟩
  obtain ⟨res, invalid, rendered⟩ := keepToken_rejected (Or.inl rfl)
  obtain ⟨res', invalid', rendered'⟩ := keepToken_rejected (Or.inr rfl)
  rw [run_createVersionResponse, run_createVersionResponse, invalid, invalid'] at same
  simp only [Except.mapError, Except.bind, versionResponse, toValidationResult, rendered, rendered', Except.ok.injEq,
    CreateVersionResponse.invalid.injEq, ValidationResponse.mk.injEq, Option.some.injEq] at same
  have shown := (@fragment_fill_eq_iff (fun _ => "a") (fun _ => "b") .forwarding acmePipeline keepToken).mp same.2.2
  exact absurd (shown _ (List.mem_singleton.mpr rfl)) (by decide)

end OtelFleet.Verified.SecretFlow
