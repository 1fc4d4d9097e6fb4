import OtelFleet.Verified.TenantRouting

/-! # The sections of a document

The IDs of the components and pipelines in a rendered document are built from the keys of
the pipelines.  Pipelines that pass the structural validation and have distinct keys have
distinct IDs, whatever their slugs are.
-/

namespace OtelFleet.Verified.ConfigSections

open Data Tenants Pipelines Collector Verified.ComponentIds
open Verified.TenantRouting

/-! ## Validated graphs -/

variable {schemas : SchemaValidator} {kind : Kind}

theorem names_of_clean [PrintTable] {field : String} {i : Nat} {seen : List (String × Nat)} {nodes : List Node}
    (clean : nodeIssues schemas field kind i seen nodes = []) :
    ∀ node ∈ nodes, ∀ name ∈ node.name, name ≠ "" → validNodeName name = true := by
  induction nodes generalizing i seen with
  | nil => simp
  | cons node nodes ih =>
    obtain ⟨named, rest⟩ := List.append_eq_nil_iff.mp clean
    rw [List.forall_mem_cons]
    constructor
    · intro name isName nonempty
      simp only [nameIssues, Option.mem_def.mp isName] at named
      split at named
      · cases named
      · next fine => simpa [nonempty] using fine
    · cases found : Catalog.lookup kind node.type with
      | none => simp [found] at rest
      | some component =>
        simp only [found] at rest
        exact ih (List.append_eq_nil_iff.mp rest).2

structure Named (p : RenderPipeline) : Prop where
  signals : p.graph.signals.Nodup
  known : ∀ signal ∈ p.graph.signals, signal ∈ Pipelines.signals
  carries : p.graph.signals ≠ []
  nodes : ∀ kind, WellNamed kind (nodesOf kind p.graph)
  names : ∀ kind, ∀ node ∈ nodesOf kind p.graph, ∀ name ∈ node.name, name ≠ "" → validNodeName name = true

variable {p : RenderPipeline}

theorem named_of_valid [PrintTable] (clean : validateStructural schemas p.graph = []) : Named p := by
  obtain ⟨signals, processors, exporters⟩ := validateStructural_clean clean
  simp only [validateStructural, List.append_eq_nil_iff] at clean
  obtain ⟨⟨⟨⟨carries, signalsClean⟩, _⟩, processorsClean⟩, exportersClean⟩ := clean
  refine ⟨signals, (signalIssues_clean signalsClean).2.1, ?_, ?_, ?_⟩
  · intro none
    simp [none] at carries
  · intro kind
    cases kind with
    | processor => exact processors
    | exporter => exact exporters
  · intro kind
    cases kind with
    | processor => exact names_of_clean processorsClean
    | exporter => exact names_of_clean exportersClean

/-! ## IDs and keys -/

theorem isSlugChar_of_isDigit {c : Char} (digit : c.isDigit = true) : isSlugChar c = true := by
  have inRange : ('0' ≤ c && c ≤ '9') = true := digit
  rw [isSlugChar, isSlugAlnum, inRange, Bool.or_true, Bool.true_or]

variable {node : Node}

section

variable (valid : ∀ name ∈ node.name, name ≠ "" → validNodeName name = true) (idx : Nat)
include valid idx

theorem isSlugChar_of_mem_nodeSuffix : ∀ c ∈ (nodeSuffix node idx).toList, isSlugChar c = true := by
  have digits : ∀ c ∈ (toString idx).toList, isSlugChar c = true := by
    rw [Nat.toString_eq_ofList_toDigits, String.toList_ofList]
    intro c mem
    exact isSlugChar_of_isDigit (Nat.isDigit_of_mem_toDigits (by decide) (by decide) mem)
  unfold nodeSuffix
  cases isName : node.name with
  | none => exact digits
  | some name =>
    dsimp only
    split
    · next nonempty =>
      have fine := valid name isName nonempty
      simp only [validNodeName, Bool.and_eq_true, List.all_eq_true] at fine
      exact fine.1.2
    · exact digits

theorem underscore_notMem_nodeSuffix :
    '_' ∉ (nodeSuffix node idx).toList := fun mem =>
  absurd (isSlugChar_of_mem_nodeSuffix valid idx _ mem) (by decide)

end

theorem toList_componentID_key (node : Node) (idx : Nat) (p : RenderPipeline) :
    (componentID node idx p.customerSlug p.pipelineSlug).toList = node.type.toList ++ '/' :: (p.key.toList ++
      '_' :: '_' :: (nodeSuffix node idx).toList) := by
  simp [componentID, RenderPipeline.key]

variable {q : RenderPipeline}

theorem componentID_key_inj {node' : Node} {idx idx' : Nat} (type : '/' ∉ node.type.toList)
    (type' : '/' ∉ node'.type.toList) (suffix : '_' ∉ (nodeSuffix node idx).toList)
    (suffix' : '_' ∉ (nodeSuffix node' idx').toList)
    (same : componentID node idx p.customerSlug p.pipelineSlug = componentID node' idx' q.customerSlug q.pipelineSlug) :
    p.key = q.key ∧ node.type = node'.type ∧ nodeSuffix node idx = nodeSuffix node' idx' := by
  have texts := congrArg String.toList same
  rw [toList_componentID_key, toList_componentID_key] at texts
  obtain ⟨sameType, rest⟩ := append_cons_inj type type' texts
  have reversed := congrArg List.reverse rest
  simp only [List.reverse_append, List.reverse_cons, List.append_assoc] at reversed
  obtain ⟨sameSuffix, rest⟩ := append_cons_inj (by simpa using suffix) (by simpa using suffix') reversed
  refine ⟨?_, String.toList_inj.mp sameType, String.toList_inj.mp (List.reverse_inj.mp sameSuffix)⟩
  exact String.toList_inj.mp (List.reverse_inj.mp (List.cons.inj rest).2)

theorem collectorPipelineID_key_inj {signal signal' : String} (known : signal ∈ signals) (known' : signal' ∈ signals)
    (same : collectorPipelineID signal p.customerSlug p.pipelineSlug =
      collectorPipelineID signal' q.customerSlug q.pipelineSlug) : signal = signal' ∧ p.key = q.key := by
  have texts := congrArg String.toList same
  simp only [collectorPipelineID] at texts
  obtain ⟨sameSignal, sameKey⟩ := @append_cons_inj '/' _ p.key.toList _ q.key.toList (slash_notMem_signal signal known)
    (slash_notMem_signal signal' known') (by simpa [RenderPipeline.key] using texts)
  exact ⟨String.toList_inj.mp sameSignal, String.toList_inj.mp sameKey⟩

/-! ## Distinct IDs -/

theorem slash_notMem_type (named : Named p) (mem : node ∈ nodesOf kind p.graph) : '/' ∉ node.type.toList :=
  slash_notMem_type_of_named (named.nodes kind) mem

theorem componentIDs_nodup (named : Named p) (kind : Kind) : (p.componentIDs (nodesOf kind p.graph)).Nodup := by
  have distinct := (named.nodes kind).distinct
  rw [localIDs, List.Nodup, List.pairwise_map] at distinct
  rw [RenderPipeline.componentIDs, List.mapIdx_eq_zipIdx_map, List.Nodup, List.pairwise_map]
  refine distinct.imp_of_mem fun {a b} isNode isNode' differ same => differ ?_
  have mem := List.fst_mem_of_mem_zipIdx isNode
  have mem' := List.fst_mem_of_mem_zipIdx isNode'
  obtain ⟨_, type, suffix⟩ := componentID_key_inj (slash_notMem_type named mem) (slash_notMem_type named mem')
    (underscore_notMem_nodeSuffix (named.names kind _ mem) _)
    (underscore_notMem_nodeSuffix (named.names kind _ mem') _) same
  rw [componentID, componentID, type, suffix]

theorem key_of_mem_componentIDs (named : Named p) (named' : Named q) {id : String}
    (mem : id ∈ p.componentIDs (nodesOf kind p.graph)) (mem' : id ∈ q.componentIDs (nodesOf kind q.graph)) :
    p.key = q.key := by
  obtain ⟨i, inRange, rfl⟩ := List.mem_mapIdx.mp mem
  obtain ⟨j, inRange', same⟩ := List.mem_mapIdx.mp mem'
  have isNode := List.getElem_mem inRange
  have isNode' := List.getElem_mem inRange'
  exact (componentID_key_inj (slash_notMem_type named isNode) (slash_notMem_type named' isNode')
    (underscore_notMem_nodeSuffix (named.names kind _ isNode) _)
    (underscore_notMem_nodeSuffix (named'.names kind _ isNode') _) same.symm).1

section

variable {ps : List RenderPipeline} (named : ∀ p ∈ ps, Named p) (distinct : (ps.map RenderPipeline.key).Nodup)
include named distinct

theorem components_nodup (kind : Kind) :
    ((ps.flatMap fun p => p.components (nodesOf kind p.graph)).map Prod.fst).Nodup := by
  rw [List.map_flatMap, List.nodup_flatMap]
  simp only [← componentIDs_eq]
  refine ⟨fun p mem => componentIDs_nodup (named p mem) kind, ?_⟩
  refine (List.pairwise_map.mp distinct).imp_of_mem fun {p q} mem mem' differ => ?_
  exact fun id isID isID' => differ (key_of_mem_componentIDs (named p mem) (named q mem') isID isID')

omit named in
theorem customerPipelines_nodup (render : String → RenderPipeline → YamlNode) :
    ((ps.flatMap (customerPipelines render)).map Prod.fst).Nodup := by
  have signalsNodup : signals.Nodup := by decide
  rw [List.map_flatMap, List.nodup_flatMap]
  constructor
  · intro p _
    rw [customerPipelines, List.map_map]
    refine (signalsNodup.filter _).map_on fun signal isSignal signal' isSignal' same => ?_
    exact (collectorPipelineID_key_inj (List.mem_of_mem_filter isSignal) (List.mem_of_mem_filter isSignal') same).1
  · refine (List.pairwise_map.mp distinct).imp fun {p q} differ id isID isID' => differ ?_
    simp only [customerPipelines, List.map_map, List.mem_map, List.mem_filter, Function.comp_def] at isID isID'
    obtain ⟨signal, known, isID⟩ := isID
    obtain ⟨signal', known', isID'⟩ := isID'
    exact (collectorPipelineID_key_inj known.1 known'.1 (isID.trans isID'.symm)).2

end

def documentOf [PrintTable] (targetClass : TargetClass) (ps : List RenderPipeline) : YamlNode :=
  match targetClass with
  | .forwarding => forwardingConfig ps
  | .edge => edgeConfig ps

def renderOf (targetClass : TargetClass) : String → RenderPipeline → YamlNode :=
  match targetClass with
  | .forwarding => customerPipeline
  | .edge => edgePipeline

def needDebug (targetClass : TargetClass) (ps : List RenderPipeline) : Bool :=
  match targetClass with
  | .forwarding => signals.any fun signal => signalsWith ps signal = []
  | .edge => ps = []

def entryPipelines (targetClass : TargetClass) (ps : List RenderPipeline) : List (String × YamlNode) :=
  match targetClass with
  | .forwarding => signals.map fun signal => (signal ++ "/in", entryPipeline (entrySink ps signal))
  | .edge => if ps = [] then signals.map fun signal => (signal ++ "/in", entryPipeline "debug") else []

variable {entry : String × YamlNode}

section

variable [PrintTable] (targetClass : TargetClass) (ps : List RenderPipeline)

theorem get_processors_documentOf : (documentOf targetClass ps).get "processors" = processorsSection ps := by
  cases targetClass with
  | forwarding => exact get_processors ps
  | edge => rfl

theorem get_exporters_documentOf :
    (documentOf targetClass ps).get "exporters" = exportersSection (needDebug targetClass ps) ps := by
  cases targetClass with
  | forwarding => exact get_exporters ps
  | edge => rfl

theorem pipelineSection_documentOf : pipelineSection (documentOf targetClass ps) =
    entryPipelines targetClass ps ++ ps.flatMap (customerPipelines (renderOf targetClass)) := by
  cases targetClass with
  | forwarding => exact pipelineSection_eq ps
  | edge => rfl

omit [PrintTable] in
theorem mem_entryPipelines {targetClass : TargetClass} {ps : List RenderPipeline}
    (isEntry : entry ∈ entryPipelines targetClass ps) :
    ∃ signal ∈ signals, ∃ sink, entry = (signal ++ "/in", entryPipeline sink) ∧
      (sink = "debug" ∧ needDebug targetClass ps = true ∨
        targetClass = .forwarding ∧ sink = routingConnectorID signal ∧ signalsWith ps signal ≠ []) := by
  cases targetClass with
  | forwarding =>
    obtain ⟨signal, known, rfl⟩ := List.mem_map.mp isEntry
    refine ⟨signal, known, _, rfl, ?_⟩
    rw [entrySink]
    split
    · next none => exact .inl ⟨rfl, List.any_eq_true.mpr ⟨signal, known, decide_eq_true none⟩⟩
    · next routed => exact .inr ⟨rfl, rfl, routed⟩
  | edge =>
    rw [entryPipelines] at isEntry
    split at isEntry
    · next none =>
      obtain ⟨signal, known, rfl⟩ := List.mem_map.mp isEntry
      exact ⟨signal, known, _, rfl, .inl ⟨rfl, decide_eq_true none⟩⟩
    · cases isEntry

omit [PrintTable] in
theorem entryPipelines_ids :
    ∀ id ∈ (entryPipelines targetClass ps).map Prod.fst, ∃ signal ∈ signals, id = signal ++ "/in" := by
  intro id mem
  obtain ⟨entry, isEntry, rfl⟩ := List.mem_map.mp mem
  obtain ⟨signal, known, sink, rfl, _⟩ := mem_entryPipelines isEntry
  exact ⟨signal, known, rfl⟩

end

/-! ## Fragments -/

inductive EntryPlace where
  | processors
  | exporters
  | pipelines

namespace EntryPlace

def entries : EntryPlace → YamlNode → List (String × YamlNode)
  | processors, document => (document.get "processors").content
  | exporters, document => (document.get "exporters").content
  | pipelines, document => pipelineSection document

def entriesOf (targetClass : TargetClass) : EntryPlace → RenderPipeline → List (String × YamlNode)
  | processors, p => p.components p.graph.processors
  | exporters, p => p.components p.graph.exporters
  | pipelines, p => customerPipelines (renderOf targetClass) p

end EntryPlace

def fixedIDs : List String := ["memory_limiter", "batch", "debug"] ++ signals.map (· ++ "/in")

variable (place : EntryPlace) (targetClass : TargetClass)

theorem entries_fragmentFor (p : RenderPipeline) :
    place.entries (fragmentFor targetClass p) = place.entriesOf targetClass p := by
  have fragments render :
      ((fragment render p).get "processors").content = p.components p.graph.processors ∧
        ((fragment render p).get "exporters").content = p.components p.graph.exporters ∧
        pipelineSection (fragment render p) = customerPipelines render p := by
    unfold fragment
    split
    · next none =>
      rw [none]
      exact ⟨rfl, rfl, rfl⟩
    · exact ⟨rfl, rfl, rfl⟩
  cases targetClass <;> cases place <;> simp only [fragmentFor, EntryPlace.entries, EntryPlace.entriesOf, renderOf, fragments]

/-- No entry of a pipeline is called like a fixed one: its ID has a slash and an
    underscore. -/
theorem notMem_fixedIDs (isEntry : entry ∈ place.entriesOf targetClass p) : entry.1 ∉ fixedIDs := by
  have fixed : ∀ id ∈ fixedIDs, ¬ ('/' ∈ id.toList ∧ '_' ∈ id.toList) := by decide
  have component {nodes : List Node} (isEntry : entry ∈ p.components nodes) : '/' ∈ entry.1.toList ∧ '_' ∈ entry.1.toList := by
    obtain ⟨i, inRange, rfl⟩ := List.mem_mapIdx.mp isEntry
    simp [toList_componentID]
  intro isFixed
  apply fixed _ isFixed
  cases place with
  | processors | exporters => exact component isEntry
  | pipelines =>
    obtain ⟨signal, _, rfl⟩ := List.mem_map.mp isEntry
    simp [toList_collectorPipelineID]

theorem entries_documentOf [PrintTable] (ps : List RenderPipeline) :
    (place.entries (documentOf targetClass ps)).filter (fun entry => entry.1 ∉ fixedIDs) =
      ps.flatMap (place.entriesOf targetClass) := by
  have kept : (ps.flatMap (place.entriesOf targetClass)).filter (fun entry => entry.1 ∉ fixedIDs) =
      ps.flatMap (place.entriesOf targetClass) := by
    refine List.filter_eq_self.mpr fun entry isEntry => ?_
    obtain ⟨p, _, isEntry⟩ := List.mem_flatMap.mp isEntry
    exact decide_eq_true (notMem_fixedIDs place targetClass isEntry)
  have dropped {fixed : List (String × YamlNode)} (areFixed : ∀ entry ∈ fixed, entry.1 ∈ fixedIDs) :
      fixed.filter (fun entry => entry.1 ∉ fixedIDs) = [] := by
    refine List.filter_eq_nil_iff.mpr fun entry isEntry => ?_
    simpa using areFixed entry isEntry
  obtain ⟨fixed, areFixed, split⟩ : ∃ fixed : List (String × YamlNode), (∀ entry ∈ fixed, entry.1 ∈ fixedIDs) ∧
      place.entries (documentOf targetClass ps) = fixed ++ ps.flatMap (place.entriesOf targetClass) := by
    cases place with
    | processors =>
      refine ⟨sharedProcessors, by decide, ?_⟩
      rw [EntryPlace.entries, get_processors_documentOf]
      rfl
    | exporters =>
      refine ⟨if needDebug targetClass ps then [("debug", toNode (.obj []))] else [], ?_, ?_⟩
      · split <;> decide
      · rw [EntryPlace.entries, get_exporters_documentOf]
        rfl
    | pipelines =>
      refine ⟨entryPipelines targetClass ps, fun entry isEntry => ?_, pipelineSection_documentOf targetClass ps⟩
      obtain ⟨signal, known, isID⟩ := entryPipelines_ids targetClass ps entry.1 (List.mem_map_of_mem isEntry)
      rw [isID]
      exact List.mem_append_right _ (List.mem_map_of_mem known)
  rw [split, List.filter_append, dropped areFixed, kept, List.nil_append]

theorem entriesOf_nodup {ps : List RenderPipeline} (named : ∀ p ∈ ps, Named p)
    (distinct : (ps.map RenderPipeline.key).Nodup) : ((ps.flatMap (place.entriesOf targetClass)).map Prod.fst).Nodup := by
  cases place with
  | processors => exact components_nodup named distinct .processor
  | exporters => exact components_nodup named distinct .exporter
  | pipelines => exact customerPipelines_nodup distinct _

/-! ## Rendering -/

theorem renderFullFor_of_distinct [PrintTable] {ps : List RenderPipeline}
    (distinct : (ps.map RenderPipeline.key).Nodup) :
    renderFullFor targetClass ps = .ok (documentOf targetClass (sortPipelines ps)) := by
  have sorted : ((sortPipelines ps).map RenderPipeline.key).Nodup :=
    ((List.perm_insertionSort _ ps).map RenderPipeline.key).nodup_iff.mpr distinct
  have noDuplicate : duplicateKey [] (sortPipelines ps) = none := duplicateKey_eq_none_iff.mpr ⟨sorted, fun _ _ => List.not_mem_nil⟩
  cases targetClass with
  | forwarding => simp only [renderFullFor, renderForwardingConfig, noDuplicate, documentOf]
  | edge => simp only [renderFullFor, renderEdgeConfig, noDuplicate, documentOf]

/-- The entries of a document, apart from the fixed ones, are those of the fragments of
    its pipelines, and no two of them have the same ID. -/
theorem document_of_fragments [PrintTable] {schemas : SchemaValidator} (targetClass : TargetClass) {ps : List RenderPipeline}
    (valid : ∀ p ∈ ps, validateStructural schemas p.graph = []) (distinct : (ps.map RenderPipeline.key).Nodup) :
    ∃ document fragments, renderFullFor targetClass ps = .ok document ∧
      List.Forall₂ (fun p fragment => renderFragmentFor targetClass p = .ok fragment) ps fragments ∧
      ∀ place : EntryPlace, ((fragments.flatMap place.entries).map Prod.fst).Nodup ∧
        ((place.entries document).filter fun entry => entry.1 ∉ fixedIDs).Perm (fragments.flatMap place.entries) := by
  refine ⟨_, ps.map (fragmentFor targetClass), renderFullFor_of_distinct targetClass distinct, ?_, fun place => ?_⟩
  · rw [List.forall₂_map_right_iff, List.forall₂_same]
    exact fun p _ => renderFragmentFor_eq targetClass p
  · have parts : (ps.map (fragmentFor targetClass)).flatMap place.entries = ps.flatMap (place.entriesOf targetClass) := by
      simp only [List.flatMap_map, entries_fragmentFor]
    rw [parts, entries_documentOf]
    exact ⟨entriesOf_nodup place targetClass (fun p mem => named_of_valid (valid p mem)) distinct,
      (List.perm_insertionSort _ ps).flatMap_right _⟩

theorem two_tenants_of_fragments :
    ∃ document fragments, @renderFullFor asciiPrintTable .forwarding [globexLogs, acmeLogs] = .ok document ∧
      List.Forall₂ (fun p fragment => renderFragmentFor .forwarding p = .ok fragment) [globexLogs, acmeLogs] fragments ∧
      ∀ place : EntryPlace, ((fragments.flatMap place.entries).map Prod.fst).Nodup ∧
        ((place.entries document).filter fun entry => entry.1 ∉ fixedIDs).Perm (fragments.flatMap place.entries) :=
  @document_of_fragments asciiPrintTable (fun _ _ => none) .forwarding _ (by decide) (by decide)

end OtelFleet.Verified.ConfigSections
