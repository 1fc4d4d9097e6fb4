import OtelFleet.Verified.ServiceRuns
import OtelFleet.Verified.StoredSecrets
import OtelFleet.Web.Builder

/-! # Kept secrets under edits

A client edits the redacted form of the latest version and submits it.  The
service resolves each sentinel by its index path, so a node that changed its
place is given what was stored at its new place.
-/

namespace OtelFleet.Verified.KeptSecrets

open Data Store Semantics Pipelines Web
open Verified.SecretTraversal Verified.StoredSecrets Verified.ServiceRuns

/-! ## Drafts that remember -/

/-- A node of the draft, with the stored node that it is the redacted form of. -/
structure EditedNode where
  node : Node
  stored : Option Node

def added (node : Node) : EditedNode := ⟨node, none⟩

def remember (redacted stored : List Node) : List EditedNode :=
  List.zipWith (fun node stored => ⟨node, some stored⟩) redacted stored

variable (graph : Graph)

def started : Draft EditedNode :=
  ⟨remember (redactGraphSecrets graph).processors graph.processors,
    remember (redactGraphSecrets graph).exporters graph.exporters⟩

variable (edits : List (NodeSection × Edit))

def draftOf : Draft EditedNode :=
  (started graph).editAll added edits

def Genuine (kind : Kind) (edited : EditedNode) : Prop :=
  ∀ stored ∈ edited.stored, nodeFields kind "" edited.node =
    (nodeFields kind "" stored).map fun field => (field.1, redactField field.2)

section

variable (f : String → Json → Json) (kind : Kind) (name : String) (i : Nat) (nodes : List Node)

theorem node_remember :
    (remember (replaceNodes f kind name i nodes) nodes).map EditedNode.node = replaceNodes f kind name i nodes := by
  induction nodes generalizing i with
  | nil => rfl
  | cons node nodes ih => exact congrArg _ (ih (i + 1))

theorem genuine_remember :
    ∀ edited ∈ remember (replaceNodes (fun _ value => redactField value) kind name i nodes) nodes,
      Genuine kind edited := by
  induction nodes generalizing i with
  | nil => simp [remember]
  | cons node nodes ih =>
    refine List.forall_mem_cons.mpr ⟨?_, ih (i + 1)⟩
    rintro _ ⟨⟩
    exact nodeFields_replaceNode_base _ kind node _

end

theorem draftOf_node :
    (draftOf graph edits).map EditedNode.node = (⟨(redactGraphSecrets graph).processors,
      (redactGraphSecrets graph).exporters⟩ : Draft Node).editAll id edits := by
  have start : (started graph).map EditedNode.node =
      ⟨(redactGraphSecrets graph).processors, (redactGraphSecrets graph).exporters⟩ := by
    rw [started, redactGraphSecrets_eq]
    exact congrArg₂ Draft.mk (node_remember _ _ _ _ _) (node_remember _ _ _ _ _)
  rw [draftOf, map_editAll, start]
  rfl

theorem genuine_draftOf :
    (∀ edited ∈ (draftOf graph edits).processors, Genuine .processor edited) ∧
      ∀ edited ∈ (draftOf graph edits).exporters, Genuine .exporter edited := by
  have start : (∀ edited ∈ (started graph).processors, Genuine .processor edited) ∧
      ∀ edited ∈ (started graph).exporters, Genuine .exporter edited := by
    rw [started, redactGraphSecrets_eq]
    exact ⟨genuine_remember _ _ _ _, genuine_remember _ _ _ _⟩
  have new kind node : Genuine kind (added node) := by
    rintro _ ⟨⟩
  unfold draftOf
  generalize started graph = draft at start
  induction edits generalizing draft with
  | nil => exact start
  | cons edit edits ih =>
    obtain ⟨place, edit⟩ := edit
    refine ih (draft.edit added (place, edit)) ?_
    cases place with
    | processors => exact ⟨forall_apply (new _) start.1 edit, start.2⟩
    | exporters => exact ⟨start.1, forall_apply (new _) start.2 edit⟩

/-! ## Own secrets -/

variable {edited : EditedNode}

section

variable (cipher : Option Cipher) (format : ℚ → String) (index : List (String × Json)) (kind : Kind)

/-- The field of a kept node has the plaintext that the stored node had there. -/
def HoldsStored (own plain : String × Json) : Prop :=
  plain.1 = own.1 ∧ (own.2 = .null → plain.2 = .null) ∧
    (own.2 ≠ .null → ∃ plaintext, storedPlaintext cipher own.2 = some plaintext ∧ plain.2 = .str plaintext)

def submittedValue (value : Json) : Json :=
  match encValue value with
  | some ciphertext => .str ((decryptWith cipher ciphertext).toOption.getD "")
  | none => Json.mapNumbers (storeNumber format) value

/-- The decrypted node has the secrets of the stored node that it comes from, or if
    it is new those that were submitted for it. -/
def HoldsOwn (edited : EditedNode) (plain : Node) : Prop :=
  match edited.stored with
  | some stored => List.Forall₂ (HoldsStored cipher) (nodeFields kind "" stored) (nodeFields kind "" plain)
  | none => List.Forall₂ (fun own plain => plain.1 = own.1 ∧ plain.2 = submittedValue cipher format own.2)
      (nodeFields kind "" edited.node) (nodeFields kind "" plain)

/-- At the node's place, `base`, the index has the plaintexts that the sentinels of
    the node stand for. -/
def InPlace (base : String) (edited : EditedNode) : Prop :=
  match edited.stored with
  | some stored => ∀ field ∈ nodeFields kind "" stored, field.2 ≠ .null → ∃ plaintext,
      storedPlaintext cipher field.2 = some plaintext ∧
        keptPlaintext cipher index (base ++ field.1) = some plaintext
  | none => ∀ field ∈ nodeFields kind "" edited.node, field.2 = .str redactedSentinel →
      keptPlaintext cipher index (base ++ field.1) = some redactedSentinel

variable {cipher format index kind}

theorem plainField_sentinel {path plaintext : String} (isKept : keptPlaintext cipher index path = some plaintext) :
    plainField cipher index path (.str redactedSentinel) = .str plaintext := by
  have noMarker : encValue (.str redactedSentinel) = none := rfl
  simp [plainField, noMarker, isKept]

variable {base : String} {field : String × Json}

theorem holdsStored_iff
    (isKept : field.2 ≠ .null → ∃ plaintext, keptPlaintext cipher index (base ++ field.1) = some plaintext) :
    HoldsStored cipher field (field.1, Json.mapNumbers (storeNumber format)
        (plainField cipher index (base ++ field.1) (redactField field.2))) ↔
      (field.2 ≠ .null → ∃ plaintext, storedPlaintext cipher field.2 = some plaintext ∧
        keptPlaintext cipher index (base ++ field.1) = some plaintext) := by
  by_cases null : field.2 = .null
  · refine iff_of_true ⟨rfl, fun _ => ?_, fun notNull => absurd null notNull⟩ (fun notNull => absurd null notNull)
    rw [null]
    rfl
  · obtain ⟨plaintext, found⟩ := isKept null
    rw [redactField, if_neg null, plainField_sentinel found, found]
    constructor
    · rintro ⟨_, _, own⟩ _
      obtain ⟨stored, isStored, same⟩ := own null
      cases same
      exact ⟨_, isStored, rfl⟩
    · intro own
      obtain ⟨stored, isStored, same⟩ := own null
      cases same
      exact ⟨rfl, fun isNull => absurd isNull null, fun _ => ⟨_, isStored, rfl⟩⟩

theorem submitted_iff
    (isKept : field.2 = .str redactedSentinel →
      ∃ plaintext, keptPlaintext cipher index (base ++ field.1) = some plaintext) :
    Json.mapNumbers (storeNumber format) (plainField cipher index (base ++ field.1) field.2) =
        submittedValue cipher format field.2 ↔
      (field.2 = .str redactedSentinel → keptPlaintext cipher index (base ++ field.1) = some redactedSentinel) := by
  by_cases sentinel : field.2 = .str redactedSentinel
  · obtain ⟨plaintext, found⟩ := isKept sentinel
    have noMarker : encValue (.str redactedSentinel) = none := rfl
    rw [sentinel, plainField_sentinel found, found, submittedValue, noMarker]
    simp [Json.mapNumbers]
  · refine iff_of_true ?_ fun isSentinel => absurd isSentinel sentinel
    unfold plainField submittedValue
    cases encValue field.2 with
    | some ciphertext => rfl
    | none => rw [if_neg sentinel]

theorem holdsOwn_iff (genuine : Genuine kind edited)
    (isKept : ∀ field ∈ nodeFields kind "" edited.node, field.2 = .str redactedSentinel →
      ∃ plaintext, keptPlaintext cipher index (base ++ field.1) = some plaintext) :
    HoldsOwn cipher format kind edited
        (storeNode format (replaceNode (plainField cipher index) kind base edited.node)) ↔
      InPlace cipher index kind base edited := by
  unfold HoldsOwn InPlace
  rw [nodeFields_storeNode, nodeFields_replaceNode_base, List.map_map]
  cases origin : edited.stored with
  | some stored =>
    dsimp only
    rw [genuine stored origin] at isKept ⊢
    rw [List.map_map, List.forall₂_map_right_iff, List.forall₂_same]
    refine forall₂_congr fun field mem => holdsStored_iff fun notNull => ?_
    exact isKept (field.1, redactField field.2) (List.mem_map.mpr ⟨field, mem, rfl⟩) (if_neg notNull)
  | none =>
    rw [List.forall₂_map_right_iff, List.forall₂_same]
    refine forall₂_congr fun field mem => ?_
    rw [← submitted_iff (isKept field mem)]
    exact ⟨fun same => same.2, fun same => ⟨rfl, same⟩⟩

end

/-! ## Accepted versions -/

section

variable (cipher : Option Cipher) (format : ℚ → String) (index : List (String × Json))

def InPlaces (kind : Kind) (name : String) (i : Nat) (nodes : List EditedNode) : Prop :=
  ∀ j edited, nodes[j]? = some edited → InPlace cipher index kind (nodePath name (i + j)) edited

/-- Every node of the draft has its own secrets in the decrypted graph. -/
def Follows (draft : Draft EditedNode) (plain : Graph) : Prop :=
  List.Forall₂ (HoldsOwn cipher format .processor) draft.processors plain.processors ∧
    List.Forall₂ (HoldsOwn cipher format .exporter) draft.exporters plain.exporters

/-- The stored graph has, at the place of every node of the draft, the secrets that
    the node's sentinels stand for. -/
def AllInPlace (prev : Graph) (draft : Draft EditedNode) : Prop :=
  InPlaces cipher (graphFields prev) .processor "processors" 0 draft.processors ∧
    InPlaces cipher (graphFields prev) .exporter "exporters" 0 draft.exporters

variable {cipher format index} {nodes : List EditedNode}

theorem inPlaces_cons {kind : Kind} {name : String} {i : Nat} :
    InPlaces cipher index kind name i (edited :: nodes) ↔
      InPlace cipher index kind (nodePath name i) edited ∧ InPlaces cipher index kind name (i + 1) nodes := by
  constructor
  · intro places
    refine ⟨places 0 edited rfl, fun j other place => ?_⟩
    have next := places (j + 1) other (by simpa using place)
    rwa [show i + (j + 1) = i + 1 + j by omega] at next
  · rintro ⟨head, tail⟩ j other place
    cases j with
    | zero =>
      cases place
      exact head
    | succ j =>
      have next := tail j other (by simpa using place)
      rwa [show i + 1 + j = i + (j + 1) by omega] at next

theorem holdsOwn_section_iff {kind : Kind} {name : String} {i : Nat}
    (genuine : ∀ edited ∈ nodes, Genuine kind edited)
    (isKept : ∀ field ∈ nodesFields kind name i (nodes.map EditedNode.node), field.2 = .str redactedSentinel →
      ∃ plaintext, keptPlaintext cipher index field.1 = some plaintext) :
    List.Forall₂ (HoldsOwn cipher format kind) nodes
        ((replaceNodes (plainField cipher index) kind name i (nodes.map EditedNode.node)).map (storeNode format)) ↔
      InPlaces cipher index kind name i nodes := by
  induction nodes generalizing i with
  | nil => simp [InPlaces, replaceNodes]
  | cons edited nodes ih =>
    rw [List.map_cons, nodesFields, List.forall_mem_append] at isKept
    obtain ⟨head, tail⟩ := List.forall_mem_cons.mp genuine
    have first : ∀ field ∈ nodeFields kind "" edited.node, field.2 = .str redactedSentinel →
        ∃ plaintext, keptPlaintext cipher index (nodePath name i ++ field.1) = some plaintext := by
      intro field mem
      have placed := isKept.1 (nodePath name i ++ field.1, field.2)
      rw [nodeFields_base] at placed
      exact placed (List.mem_map.mpr ⟨field, mem, rfl⟩)
    rw [List.map_cons, replaceNodes, List.map_cons, List.forall₂_cons, holdsOwn_iff head first,
      ih tail isKept.2, inPlaces_cons]

def LatestGraph (db : PipelineTables) (pipelineID : Uuid) (graph : Graph) : Prop :=
  ∃ pipe latest version, db.getPipeline pipelineID = .ok pipe ∧ pipe.latestVersion = some latest ∧
    db.getPipelineVersion pipe.id latest = .ok version ∧ parseGraph version.row.graph = .ok graph

section

variable {world after : World} {pipelineID : Uuid} {graph prev : Graph}
  (latest : LatestGraph world.db pipelineID prev)
include latest

theorem stored_of_created [PrintTable] {env : ServiceEnv} {version : PipelineVersion}
    (accepted : (createVersion env pipelineID graph).run world = (.ok (.created version), after)) :
    ∃ stored plain, version.row.graph = some (storeGraph env.format stored) ∧
      encryptGraphSecrets graph env.cipher env.entropy (some prev) = .ok (.ok stored) ∧
      decryptGraphSecrets stored env.cipher = .ok plain := by
  obtain ⟨pipe, number, loaded, found, isLatest, isLoaded, parsed⟩ := latest
  rcases @createVersion_cases env _ pipelineID graph world with
    ⟨pipe', prev', m, stored, plain, others, reaches, ran⟩ | ⟨_, stops⟩
  · cases found.symm.trans reaches.found
    -- the graph that sentinels resolve against is the latest one
    have isPrevious : prev' = some prev := by
      have read := reaches.read
      simp only [PreviousRead, isLatest] at read
      obtain ⟨_, _, version', graph', isLoaded', parsed', isPrevious⟩ := read
      cases isLoaded.symm.trans isLoaded'
      cases parsed.symm.trans parsed'
      exact isPrevious
    subst isPrevious
    rw [ran] at accepted
    exact ⟨stored, plain, graph_of_prepared accepted, reaches.encrypted, reaches.decrypted⟩
  · rw [accepted] at stops
    cases stops

theorem decrypted_of_created [PrintTable] {env : ServiceEnv} {version : PipelineVersion}
    (accepted : (createVersion env pipelineID graph).run world = (.ok (.created version), after)) :
    ∃ stored, parseGraph version.row.graph = .ok stored ∧
      decryptGraphSecrets stored env.cipher =
        .ok (storeGraph env.format (replaceGraph (plainField env.cipher (graphFields prev)) graph)) ∧
      ∀ field ∈ graphFields graph, field.2 = .str redactedSentinel →
        ∃ plaintext, keptPlaintext env.cipher (graphFields prev) field.1 = some plaintext := by
  obtain ⟨stored, plain, isStored, encrypted, decrypted⟩ := stored_of_created latest accepted
  refine ⟨storeGraph env.format stored, ?_, ?_, kept_of_storedGraph encrypted decrypted⟩
  · rw [isStored]
    rfl
  · rw [decryptGraphSecrets_store env.format decrypted, plainGraph_of_stored encrypted decrypted]
    rfl

end

/-- In an accepted version of an edited graph every node has its own secrets exactly
    when the stored graph has the same secrets at the node's new place. -/
theorem kept_secrets_follow_iff [PrintTable] {env : ServiceEnv} {world after : World} {pipelineID : Uuid}
    {prev : Graph} {edits : List (NodeSection × Edit)} {version : PipelineVersion}
    (latest : LatestGraph world.db pipelineID prev)
    (accepted : (createVersion env pipelineID (editGraph (redactGraphSecrets prev) edits)).run world =
      (.ok (.created version), after)) :
    ∃ stored plain, parseGraph version.row.graph = .ok stored ∧ decryptGraphSecrets stored env.cipher = .ok plain ∧
      (Follows env.cipher env.format (draftOf prev edits) plain ↔
        AllInPlace env.cipher prev (draftOf prev edits)) := by
  obtain ⟨stored, parsed, decrypted, isKept⟩ := decrypted_of_created latest accepted
  refine ⟨stored, _, parsed, decrypted, ?_⟩
  have nodes := draftOf_node prev edits
  obtain ⟨processors, exporters⟩ := genuine_draftOf prev edits
  have submitted : editGraph (redactGraphSecrets prev) edits =
      { redactGraphSecrets prev with
        processors := (draftOf prev edits).processors.map EditedNode.node
        exporters := (draftOf prev edits).exporters.map EditedNode.node } := by
    rw [editGraph, ← nodes]
    rfl
  rw [submitted] at isKept ⊢
  obtain ⟨keptProcessors, keptExporters⟩ := List.forall_mem_append.mp isKept
  exact and_congr (holdsOwn_section_iff processors keptProcessors) (holdsOwn_section_iff exporters keptExporters)

end

/-! ## Two exporters that change places -/

attribute [local instance] asciiPrintTable

def hecExporter (endpoint : String) (token : Json) : Node :=
  ⟨"splunk_hec", none, some [("endpoint", .str endpoint), ("token", token)]⟩

def twoIndexers (first second : Json) : Graph :=
  ⟨["logs"], [], [hecExporter "https://one.example:8088" first, hecExporter "https://two.example:8088" second]⟩

def storedIndexers : Graph :=
  twoIndexers (newEncValue (hexCipher.encrypt 0 "a")) (newEncValue (hexCipher.encrypt 0 "b"))

def indexersWorld : World := oneVersion none storedIndexers

def accepting : ServiceEnv := { workingEnv with cipher := some hexCipher }

def moveDown : List (NodeSection × Edit) := [(.exporters, .move 0 .down)]

theorem storedIndexers_latest : LatestGraph indexersWorld.db ⟨10⟩ storedIndexers :=
  ⟨_, 1, _, rfl, rfl, rfl, rfl⟩

theorem moveDown_accepted : ∃ version after,
    (createVersion accepting ⟨10⟩ (editGraph (redactGraphSecrets storedIndexers) moveDown)).run indexersWorld =
      (.ok (.created version), after) :=
  ⟨_, _, rfl⟩

theorem moveDown_follows_iff : ∃ version after,
    (createVersion accepting ⟨10⟩ (editGraph (redactGraphSecrets storedIndexers) moveDown)).run indexersWorld =
        (.ok (.created version), after) ∧
      ∃ stored plain, parseGraph version.row.graph = .ok stored ∧
        decryptGraphSecrets stored accepting.cipher = .ok plain ∧
        (Follows accepting.cipher accepting.format (draftOf storedIndexers moveDown) plain ↔
          AllInPlace accepting.cipher storedIndexers (draftOf storedIndexers moveDown)) := by
  obtain ⟨version, after, accepted⟩ := moveDown_accepted
  exact ⟨version, after, accepted, kept_secrets_follow_iff storedIndexers_latest accepted⟩

/-- The version is accepted and each indexer is sent the other one's token. -/
theorem moveDown_swaps : LatestGraph indexersWorld.db ⟨10⟩ storedIndexers ∧ ∃ version after,
    (createVersion accepting ⟨10⟩ (editGraph (redactGraphSecrets storedIndexers) moveDown)).run indexersWorld =
        (.ok (.created version), after) ∧
      ∃ stored plain, parseGraph version.row.graph = .ok stored ∧
        decryptGraphSecrets stored accepting.cipher = .ok plain ∧
        ¬ Follows accepting.cipher accepting.format (draftOf storedIndexers moveDown) plain := by
  refine ⟨storedIndexers_latest, _, _, rfl, _, _, rfl, rfl, ?_⟩
  rintro ⟨_, exporters⟩
  -- the exporter that now comes first is the second one of the stored graph
  have first : List.Forall₂ (HoldsStored accepting.cipher)
      (nodeFields .exporter "" (hecExporter "https://two.example:8088" (newEncValue (hexCipher.encrypt 0 "b"))))
      (nodeFields .exporter "" (hecExporter "https://two.example:8088" (.str "a"))) :=
    (List.forall₂_cons.mp exporters).1
  obtain ⟨_, _, own⟩ := (List.forall₂_cons.mp first).1
  obtain ⟨plaintext, isStored, same⟩ := own nofun
  cases same
  exact absurd isStored (by decide)

end OtelFleet.Verified.KeptSecrets
