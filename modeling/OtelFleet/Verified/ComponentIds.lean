import OtelFleet.Collector.Routing
import OtelFleet.Pipelines.Validate

/-! # Component IDs tell components apart

The sections of a rendered document hang together by generated IDs only.  In
pipelines that pass validation the IDs of all components are distinct, so that
each one is looked up as the node it was rendered from.
-/

namespace OtelFleet.Verified.ComponentIds

open Data Tenants Pipelines

/-! ## Names within a graph -/

/-- A pipeline whose slugs are valid and whose graph has no findings. -/
structure WellFormed (p : RenderPipeline) : Prop where
  customer : '_' ∉ p.customerSlug.toList
  pipeline : '_' ∉ p.pipelineSlug.toList
  signals : p.graph.signals.Nodup
  processors : WellNamed .processor p.graph.processors
  exporters : WellNamed .exporter p.graph.exporters

variable {p : RenderPipeline}

theorem wellFormed_of_valid [PrintTable] {schemas : SchemaValidator} (clean : validateStructural schemas p.graph = [])
    (customer : validSlug p.customerSlug) (pipeline : validSlug p.pipelineSlug) : WellFormed p := by
  obtain ⟨signals, processors, exporters⟩ := validateStructural_clean clean
  exact ⟨underscore_notMem_of_validSlug customer, underscore_notMem_of_validSlug pipeline, signals, processors,
    exporters⟩

def nodesOf (kind : Kind) (graph : Graph) : List Node :=
  match kind with
  | .processor => graph.processors
  | .exporter => graph.exporters

theorem WellFormed.named (wellFormed : WellFormed p) (kind : Kind) : WellNamed kind (nodesOf kind p.graph) := by
  cases kind with
  | processor => exact wellFormed.processors
  | exporter => exact wellFormed.exporters

def sectionName : Kind → String
  | .processor => "processors"
  | .exporter => "exporters"

variable {nodes : List Node}

theorem slash_notMem_type_of_named {kind : Kind} (named : WellNamed kind nodes) {node : Node}
    (mem : node ∈ nodes) : '/' ∉ node.type.toList := by
  obtain ⟨component, found⟩ := named.known node mem
  obtain ⟨known, sameType⟩ := Catalog.lookup_type found
  rw [← sameType]
  exact Catalog.slash_notMem_type component known

theorem getElem?_localIDs (nodes : List Node) (i : Nat) :
    (localIDs 0 nodes)[i]? = nodes[i]?.map fun node => componentID node i "c" "p" := by
  simp [localIDs, Function.comp_def]

theorem index_eq_of_named {kind : Kind} (named : WellNamed kind nodes) {i j : Nat} {node other : Node}
    (place : nodes[i]? = some node) (otherPlace : nodes[j]? = some other) (type : node.type = other.type)
    (suffix : nodeSuffix node i = nodeSuffix other j) : i = j := by
  have inRange : i < (localIDs 0 nodes).length := by
    have := (List.getElem?_eq_some_iff.mp place).1
    simpa [localIDs] using this
  refine (List.getElem?_inj inRange named.distinct).mp ?_
  rw [getElem?_localIDs, getElem?_localIDs, place, otherPlace]
  simp [componentID, type, suffix]

/-! ## Names across pipelines -/

variable {ps : List RenderPipeline}

theorem duplicateKey_eq_none_iff {seen : List String} :
    duplicateKey seen ps = none ↔ (ps.map RenderPipeline.key).Nodup ∧ ∀ p ∈ ps, p.key ∉ seen := by
  induction ps generalizing seen with
  | nil => simp [duplicateKey]
  | cons p ps ih =>
    rw [duplicateKey]
    split
    · next again => simp [again]
    · next fresh =>
      grind

theorem duplicateKey_congr {ps qs : List RenderPipeline} (keys : ps.map RenderPipeline.key = qs.map RenderPipeline.key)
    (seen : List String) : duplicateKey seen ps = duplicateKey seen qs := by
  induction ps generalizing qs seen with
  | nil =>
    rw [List.map_eq_nil_iff.mp keys.symm]
  | cons p ps ih =>
    cases qs with
    | nil => cases keys
    | cons q qs =>
      obtain ⟨first, rest⟩ := List.cons.inj keys
      rw [duplicateKey, duplicateKey, first, ih rest]

theorem componentIDs_eq (p : RenderPipeline) (nodes : List Node) :
    p.componentIDs nodes = (p.components nodes).map Prod.fst := by
  simp [RenderPipeline.componentIDs, RenderPipeline.components, List.mapIdx_eq_zipIdx_map]

variable {entry : String × YamlNode}

theorem slash_mem_of_component (component : entry ∈ p.components nodes) : '/' ∈ entry.1.toList := by
  obtain ⟨i, _, rfl⟩ := List.mem_mapIdx.mp component
  simp [toList_componentID]

section

variable {ps : List RenderPipeline} (wellFormed : ∀ p ∈ ps, WellFormed p) (distinct : (ps.map RenderPipeline.key).Nodup)

include distinct

theorem eq_of_slugs {q : RenderPipeline} (mem : p ∈ ps) (other : q ∈ ps)
    (slugs : p.customerSlug = q.customerSlug ∧ p.pipelineSlug = q.pipelineSlug) : p = q :=
  List.inj_on_of_nodup_map distinct mem other (by rw [RenderPipeline.key, slugs.1, slugs.2]; rfl)

include wellFormed

theorem components_inj {kind : Kind} {p q : RenderPipeline} (mem : p ∈ ps) (other : q ∈ ps)
    {entry entry' : String × YamlNode} (component : entry ∈ p.components (nodesOf kind p.graph))
    (component' : entry' ∈ q.components (nodesOf kind q.graph)) (same : entry.1 = entry'.1) :
    p = q ∧ entry = entry' := by
  obtain ⟨i, inRange, rfl⟩ := List.mem_mapIdx.mp component
  obtain ⟨j, inRange', rfl⟩ := List.mem_mapIdx.mp component'
  have named := (wellFormed p mem).named kind
  have named' := (wellFormed q other).named kind
  obtain ⟨slugs, type, suffix⟩ := componentID_inj (wellFormed p mem).customer (wellFormed q other).customer
    (wellFormed p mem).pipeline (wellFormed q other).pipeline
    (slash_notMem_type_of_named named (List.getElem_mem inRange))
    (slash_notMem_type_of_named named' (List.getElem_mem inRange')) same
  cases eq_of_slugs distinct mem other slugs
  cases index_eq_of_named named (List.getElem?_eq_getElem inRange) (List.getElem?_eq_getElem inRange') type suffix
  exact ⟨rfl, rfl⟩

theorem lookup_components {kind : Kind} {p : RenderPipeline} (mem : p ∈ ps) {entry : String × YamlNode}
    (component : entry ∈ p.components (nodesOf kind p.graph)) :
    (ps.flatMap fun q => q.components (nodesOf kind q.graph)).lookup entry.1 = some entry.2 := by
  refine lookup_of_unique (List.mem_flatMap.mpr ⟨p, mem, component⟩) fun other isOther same => ?_
  obtain ⟨q, otherMember, otherComponent⟩ := List.mem_flatMap.mp isOther
  rw [(components_inj wellFormed distinct otherMember mem otherComponent component same).2]

theorem lookup_processorsSection (mem : p ∈ ps) (component : entry ∈ p.components p.graph.processors) :
    (processorsSection ps).content.lookup entry.1 = some entry.2 := by
  have slash := slash_mem_of_component component
  have notShared name (noSlash : '/' ∉ name.toList) : entry.1 ≠ name := fun same => noSlash (same ▸ slash)
  rw [processorsSection, YamlNode.content, lookup_cons, if_neg (notShared _ (by decide)), lookup_cons,
    if_neg (notShared _ (by decide))]
  exact @lookup_components ps wellFormed distinct .processor p mem entry component

theorem lookup_exportersSection (needDebug : Bool) (mem : p ∈ ps)
    (component : entry ∈ p.components p.graph.exporters) :
    (exportersSection needDebug ps).content.lookup entry.1 = some entry.2 := by
  have found := @lookup_components ps wellFormed distinct .exporter p mem entry component
  rw [exportersSection, YamlNode.content]
  split
  · have notDebug : entry.1 ≠ "debug" := by
      intro same
      exact absurd (same ▸ slash_mem_of_component component) (by decide)
    rw [List.singleton_append, lookup_cons, if_neg notDebug]
    exact found
  · exact found

end

/-! ## Documents -/

section

variable [PrintTable] (ps : List RenderPipeline)

theorem get_processors : (forwardingConfig ps).get "processors" = processorsSection ps := by
  unfold forwardingConfig
  split <;> rfl

theorem get_exporters : (forwardingConfig ps).get "exporters" =
    exportersSection (signals.any fun signal => signalsWith ps signal = []) ps := by
  unfold forwardingConfig
  split <;> rfl

end

variable {pipelines : List RenderPipeline}

theorem renderFullFor_ok [PrintTable] {targetClass : TargetClass} {config : YamlNode} :
    renderFullFor targetClass pipelines = .ok config → config = (match targetClass with
      | .forwarding => forwardingConfig (sortPipelines pipelines)
      | .edge => edgeConfig (sortPipelines pipelines)) ∧ ((sortPipelines pipelines).map RenderPipeline.key).Nodup := by
  intro rendered
  cases targetClass with
  | forwarding | edge =>
    simp only [renderFullFor, renderForwardingConfig, renderEdgeConfig] at rendered
    split at rendered
    · cases rendered
    · next unique =>
      cases rendered
      exact ⟨rfl, (duplicateKey_eq_none_iff.mp unique).1⟩

theorem mem_sortPipelines : p ∈ sortPipelines pipelines ↔ p ∈ pipelines :=
  (List.perm_insertionSort _ pipelines).mem_iff

theorem lookup_rendered [PrintTable] {targetClass : TargetClass} {document : YamlNode}
    (wellFormed : ∀ p ∈ pipelines, WellFormed p) (rendered : renderFullFor targetClass pipelines = .ok document)
    (mem : p ∈ pipelines) (kind : Kind) (component : entry ∈ p.components (nodesOf kind p.graph)) :
    (document.get (sectionName kind)).content.lookup entry.1 = some entry.2 := by
  have sorted : ∀ q ∈ sortPipelines pipelines, WellFormed q := fun q isMember =>
    wellFormed q (mem_sortPipelines.mp isMember)
  have isMember := mem_sortPipelines.mpr mem
  obtain ⟨rfl, distinct⟩ := renderFullFor_ok rendered
  cases targetClass with
  | forwarding =>
    cases kind with
    | processor =>
      exact lookup_processorsSection sorted distinct isMember component
    | exporter =>
      rw [sectionName, get_exporters]
      exact lookup_exportersSection sorted distinct _ isMember component
  | edge =>
    cases kind with
    | processor => exact lookup_processorsSection sorted distinct isMember component
    | exporter => exact lookup_exportersSection sorted distinct _ isMember component

end OtelFleet.Verified.ComponentIds
