import Mathlib.Data.Prod.Lex
import OtelFleet.Data.Related
import OtelFleet.Data.Sorting
import OtelFleet.Verified.ComponentIds

/-! # Rendering does not depend on orders

The order of the pipelines, of the signals of a graph and of the entries of a config map
is up to the caller or to chance.  `render_reordered`: none of them shows in the rendered
document, nor in the error that is reported instead.
-/

namespace OtelFleet.Verified.RenderOrder

open Data Pipelines Verified.ComponentIds

/-! ## Config maps -/

theorem sortKeys_perm {α : Type*} {fields fields' : List (String × α)} (distinct : (fields.map Prod.fst).Nodup)
    (perm : fields.Perm fields') : sortKeys fields = sortKeys fields' := by
  have sorted list : (sortKeys list).Pairwise fun a b => a.1 ≤ b.1 :=
    List.pairwise_insertionSort (fun a b : String × α => a.1 ≤ b.1) list
  have perms : (sortKeys fields).Perm (sortKeys fields') :=
    (List.perm_insertionSort _ fields).trans (perm.trans (List.perm_insertionSort _ fields').symm)
  refine perms.eq_of_pairwise (fun a b isField isField' le ge => ?_) (sorted fields) (sorted fields')
  -- an entry is known by its key
  apply List.inj_on_of_nodup_map distinct
  · exact (List.perm_insertionSort _ fields).mem_iff.mp isField
  · exact perm.mem_iff.mpr ((List.perm_insertionSort _ fields').mem_iff.mp isField')
  · exact le_antisymm le ge

mutual
/-- The same value, the maps in it listed in any order. -/
inductive SameValue : Json → Json → Prop where
  | refl (value : Json) : SameValue value value
  | arr {items items' : List Json} (same : SameItems items items') : SameValue (.arr items) (.arr items')
  | obj {fields listed fields' : List (String × Json)} (distinct : (fields.map Prod.fst).Nodup)
      (perm : fields.Perm listed) (same : SameFields listed fields') : SameValue (.obj fields) (.obj fields')

inductive SameItems : List Json → List Json → Prop where
  | nil : SameItems [] []
  | cons {item item' : Json} {items items' : List Json} (first : SameValue item item')
      (rest : SameItems items items') : SameItems (item :: items) (item' :: items')

inductive SameFields : List (String × Json) → List (String × Json) → Prop where
  | nil : SameFields [] []
  | cons {key : String} {value value' : Json} {fields fields' : List (String × Json)} (first : SameValue value value')
      (rest : SameFields fields fields') : SameFields ((key, value) :: fields) ((key, value') :: fields')
end

mutual
theorem toNode_same {value value' : Json} (same : SameValue value value') : toNode value = toNode value' := by
  cases same with
  | refl => rfl
  | arr same => rw [toNode, toNode, toNodeItems_same same]
  | obj distinct perm same =>
    rw [toNode, toNode, ← toNodeFields_same same, toNodeFields_eq_map, toNodeFields_eq_map]
    refine congrArg YamlNode.map (sortKeys_perm ?_ (perm.map _))
    rwa [List.map_map]

theorem toNodeItems_same {items items' : List Json} (same : SameItems items items') :
    toNodeItems items = toNodeItems items' := by
  cases same with
  | nil => rfl
  | cons first rest => rw [toNodeItems, toNodeItems, toNode_same first, toNodeItems_same rest]

theorem toNodeFields_same {fields fields' : List (String × Json)} (same : SameFields fields fields') :
    toNodeFields fields = toNodeFields fields' := by
  cases same with
  | nil => rfl
  | cons first rest => rw [toNodeFields, toNodeFields, toNode_same first, toNodeFields_same rest]
end

/-! ## Pipelines of the same shape -/

/-- The pipelines differ in the order of their signals and in the configs of their nodes
    only. -/
structure SameShape (p q : RenderPipeline) : Prop where
  customerSlug : p.customerSlug = q.customerSlug
  clientID : p.clientID = q.clientID
  pipelineSlug : p.pipelineSlug = q.pipelineSlug
  signals : p.graph.signals.Perm q.graph.signals
  processors : p.componentIDs p.graph.processors = q.componentIDs q.graph.processors
  exporters : p.componentIDs p.graph.exporters = q.componentIDs q.graph.exporters

variable {render : String → RenderPipeline → YamlNode}

namespace SameShape

variable {p q : RenderPipeline} (same : SameShape p q)
include same

theorem noProcessors : p.graph.processors = [] ↔ q.graph.processors = [] := by
  have lengths := congrArg List.length same.processors
  simp only [RenderPipeline.componentIDs, List.length_mapIdx] at lengths
  rw [← List.length_eq_zero_iff, lengths, List.length_eq_zero_iff]

theorem hasSignal : p.graph.hasSignal = q.graph.hasSignal := by
  funext signal
  simp only [Graph.hasSignal, List.contains_eq_mem, same.signals.mem_iff]

theorem customerPipeline (signal : String) : Pipelines.customerPipeline signal p = Pipelines.customerPipeline signal q := by
  simp only [Pipelines.customerPipeline, same.noProcessors, same.processors, same.exporters]

theorem edgePipeline (signal : String) : Pipelines.edgePipeline signal p = Pipelines.edgePipeline signal q := by
  simp only [Pipelines.edgePipeline, edgeProcessorIDs, same.processors, same.exporters]

theorem customerPipelines (renders : ∀ signal, render signal p = render signal q) :
    Pipelines.customerPipelines render p = Pipelines.customerPipelines render q := by
  simp only [Pipelines.customerPipelines, same.hasSignal, renders, same.customerSlug, same.pipelineSlug]

end SameShape

section

variable {ps qs : List RenderPipeline} (shapes : List.Forall₂ SameShape ps qs)
include shapes

theorem nil_iff : ps = [] ↔ qs = [] := by
  cases shapes <;> simp

variable (signal : String)

theorem signalsWith_same : List.Forall₂ SameShape (signalsWith ps signal) (signalsWith qs signal) := by
  apply List.rel_flatMap shapes
  intro p q same
  have counts := (same.signals.filter fun other => decide (other = signal)).length_eq
  dsimp only
  rw [List.map_const', counts]
  exact List.forall₂_iff_get.mpr ⟨by simp, fun _ _ _ => by simpa using same⟩

theorem signalsWith_eq_nil : signalsWith ps signal = [] ↔ signalsWith qs signal = [] :=
  nil_iff (signalsWith_same shapes signal)

theorem byClient_same : byClient signal ps = byClient signal qs := by
  apply List.rel_foldl (P := Eq) (R := SameShape) _ rfl shapes
  intro table table' sameTable p q same
  dsimp only
  rw [sameTable, same.clientID, same.customerSlug, same.pipelineSlug]

theorem connectors_same [PrintTable] : connectors ps = connectors qs := by
  simp only [connectors, signalsWith_eq_nil shapes, routingConnector, byClient_same (signalsWith_same shapes _)]

theorem entrySink_same : entrySink ps signal = entrySink qs signal := by
  simp only [entrySink, signalsWith_eq_nil shapes]

theorem customerPipelines_same (renders : ∀ {p q}, SameShape p q → ∀ signal, render signal p = render signal q) :
    ps.flatMap (customerPipelines render) = qs.flatMap (customerPipelines render) :=
  flatMap_eq_of_forall₂ shapes fun _ _ same => same.customerPipelines (renders same)

end

/-! ## The same pipelines -/

structure SameNode (node node' : Node) : Prop where
  type : node.type = node'.type
  name : node.name = node'.name
  config : SameValue node.configValue node'.configValue

/-- The same pipeline, with its signals and config maps in any order. -/
structure SamePipeline (p q : RenderPipeline) : Prop where
  customerSlug : p.customerSlug = q.customerSlug
  clientID : p.clientID = q.clientID
  pipelineSlug : p.pipelineSlug = q.pipelineSlug
  signals : p.graph.signals.Perm q.graph.signals
  processors : List.Forall₂ SameNode p.graph.processors q.graph.processors
  exporters : List.Forall₂ SameNode p.graph.exporters q.graph.exporters

def Reordered (ps qs : List RenderPipeline) : Prop := ∃ listed, ps.Perm listed ∧ List.Forall₂ SamePipeline listed qs

namespace SamePipeline

variable {p q : RenderPipeline} (same : SamePipeline p q)
include same

theorem components {nodes nodes' : List Node} (sameNodes : List.Forall₂ SameNode nodes nodes') :
    p.components nodes = q.components nodes' := by
  refine mapIdx_eq_of_forall₂ sameNodes fun i node node' sameNode => ?_
  rw [componentID, componentID, nodeSuffix, nodeSuffix, sameNode.type, sameNode.name, toNode_same sameNode.config,
    same.customerSlug, same.pipelineSlug]

theorem shape : SameShape p q := by
  have names {nodes nodes' : List Node} (sameNodes : List.Forall₂ SameNode nodes nodes') :
      p.componentIDs nodes = q.componentIDs nodes' := by
    rw [componentIDs_eq, componentIDs_eq, same.components sameNodes]
  exact ⟨same.customerSlug, same.clientID, same.pipelineSlug, same.signals, names same.processors, names same.exporters⟩

end SamePipeline

section

variable {ps qs : List RenderPipeline} (same : List.Forall₂ SamePipeline ps qs)
include same

theorem components_same :
    (ps.flatMap fun p => p.components p.graph.processors) = qs.flatMap (fun p => p.components p.graph.processors) ∧
      (ps.flatMap fun p => p.components p.graph.exporters) = qs.flatMap (fun p => p.components p.graph.exporters) :=
  ⟨flatMap_eq_of_forall₂ same fun _ _ pair => pair.components pair.processors,
    flatMap_eq_of_forall₂ same fun _ _ pair => pair.components pair.exporters⟩

theorem forwardingConfig_same [PrintTable] : forwardingConfig ps = forwardingConfig qs := by
  have shapes := same.imp fun _ _ pair => pair.shape
  simp only [forwardingConfig, connectors_same shapes, entrySink_same shapes, signalsWith_eq_nil shapes, processorsSection,
    exportersSection, components_same same, customerPipelines_same shapes SameShape.customerPipeline]

theorem edgeConfig_same : edgeConfig ps = edgeConfig qs := by
  have shapes := same.imp fun _ _ pair => pair.shape
  simp only [edgeConfig, nil_iff shapes, processorsSection, exportersSection, components_same same,
    customerPipelines_same shapes SameShape.edgePipeline]

end

/-! ## Sorted pipelines -/

def slugs (p : RenderPipeline) : String ×ₗ String := toLex (p.customerSlug, p.pipelineSlug)

theorem lessPipeline_iff (p q : RenderPipeline) : lessPipeline p q = true ↔ slugs p < slugs q := by
  simp only [lessPipeline, slugs, Prod.Lex.toLex_lt_toLex, ite_not]
  split
  · next same => simp [same]
  · next differ => simp [differ]

/-- Any sort by the comparison of `sort.Slice`; pipelines with the same slugs may come
    out in either order. -/
abbrev PipelineSorter := Sorter fun p q : RenderPipeline => lessPipeline p q = true

def insertionSorter : PipelineSorter where
  sort := sortPipelines
  perm := List.perm_insertionSort _
  sorted ps := by
    have order : (fun p q : RenderPipeline => lessPipeline q p = false) = fun p q => slugs p ≤ slugs q := by
      funext p q
      rw [← not_lt, ← lessPipeline_iff, Bool.not_eq_true]
    have total : Std.Total fun p q : RenderPipeline => lessPipeline q p = false := by
      rw [order]
      infer_instance
    have trans : IsTrans RenderPipeline fun p q => lessPipeline q p = false := by
      rw [order]
      infer_instance
    refine (List.pairwise_insertionSort (fun p q => lessPipeline q p = false) ps).imp fun ordered => ?_
    rw [ordered]
    exact Bool.false_ne_true

def renderSorted [PrintTable] (targetClass : TargetClass) (sorted : List RenderPipeline) : Except String YamlNode :=
  match duplicateKey [] sorted with
  | some key => .error ("duplicate pipeline key " ++ quote key ++
      match targetClass with
      | .forwarding => " in rendered config"
      | .edge => " in rendered edge config")
  | none => .ok (match targetClass with
      | .forwarding => forwardingConfig sorted
      | .edge => edgeConfig sorted)

variable (targetClass : TargetClass)

theorem renderFullFor_eq [PrintTable] (ps : List RenderPipeline) :
    renderFullFor targetClass ps = renderSorted targetClass (sortPipelines ps) := by
  cases found : duplicateKey [] (sortPipelines ps) with
  | none | some key =>
    cases targetClass <;> simp only [renderFullFor, renderForwardingConfig, renderEdgeConfig, renderSorted, found]

variable {ps qs : List RenderPipeline}

theorem keys_of_slugs (same : ps.map slugs = qs.map slugs) :
    ps.map RenderPipeline.key = qs.map RenderPipeline.key := by
  have keys (ps : List RenderPipeline) : ps.map RenderPipeline.key =
      (ps.map slugs).map fun pair => pipelineKey (ofLex pair).1 (ofLex pair).2 := by
    rw [List.map_map]
    rfl
  rw [keys, keys, same]

/-- Two sorts of the same pipelines differ only where the duplicate check fails. -/
theorem sorted_eq (perm : ps.Perm qs) (sorted : ps.Pairwise fun p q => slugs p ≤ slugs q)
    (sorted' : qs.Pairwise fun p q => slugs p ≤ slugs q) (distinct : (ps.map RenderPipeline.key).Nodup) : ps = qs := by
  refine perm.eq_of_pairwise (fun p q mem mem' le ge => ?_) sorted sorted'
  have same := toLex.injective (le_antisymm le ge)
  exact eq_of_slugs distinct mem (perm.mem_iff.mpr mem') ⟨congrArg Prod.fst same, congrArg Prod.snd same⟩

theorem renderSorted_same [PrintTable] (reordered : Reordered ps qs) (sorter sorter' : PipelineSorter) :
    renderSorted targetClass (sorter.sort ps) = renderSorted targetClass (sorter'.sort qs) := by
  have ordered (sorter : PipelineSorter) ps :
      (sorter.sort ps).Pairwise fun p q => slugs p ≤ slugs q :=
    (sorter.sorted ps).imp fun notLess => not_lt.mp ((lessPipeline_iff _ _).not.mp notLess)
  obtain ⟨listed, perm, pairs⟩ := reordered
  -- the pipelines of the left in the order of the right
  obtain ⟨aligned, perm', aligns⟩ : Relation.Comp List.Perm (List.Forall₂ SamePipeline) listed (sorter'.sort qs) := by
    rw [← List.forall₂_comp_perm_eq_perm_comp_forall₂]
    exact ⟨qs, pairs, (sorter'.perm qs).symm⟩
  have sameSlugs : aligned.map slugs = (sorter'.sort qs).map slugs := by
    rw [← List.forall₂_eq_eq_eq, List.forall₂_map_left_iff, List.forall₂_map_right_iff]
    refine aligns.imp fun p q pair => ?_
    rw [slugs, slugs, pair.customerSlug, pair.pipelineSlug]
  have alignedOrder : aligned.Pairwise fun p q => slugs p ≤ slugs q := by
    rw [← List.pairwise_map (f := slugs) (R := (· ≤ ·)), sameSlugs, List.pairwise_map]
    exact ordered sorter' qs
  have perms : (sorter.sort ps).Perm aligned := (sorter.perm ps).trans (perm.trans perm')
  have slugsOfSort : (sorter.sort ps).map slugs = aligned.map slugs := by
    refine (perms.map slugs).eq_of_pairwise (fun _ _ _ _ => le_antisymm) ?_ ?_
    · exact List.pairwise_map.mpr (ordered sorter ps)
    · exact List.pairwise_map.mpr alignedOrder
  have keys := duplicateKey_congr (keys_of_slugs (slugsOfSort.trans sameSlugs)) []
  simp only [renderSorted, keys]
  cases duplicate : duplicateKey [] (sorter'.sort qs) with
  | some key => rfl
  | none =>
    have distinct := (duplicateKey_eq_none_iff.mp (keys.trans duplicate)).1
    rw [sorted_eq perms (ordered sorter ps) alignedOrder distinct, forwardingConfig_same aligns, edgeConfig_same aligns]

/-- The same pipelines in any order, with signals and config maps in any order, render to
    the same document or fail with the same error, whichever way ties are sorted. -/
theorem render_reordered [PrintTable] {ps qs : List RenderPipeline} (reordered : Reordered ps qs) :
    renderForwardingConfig ps = renderForwardingConfig qs ∧ renderEdgeConfig ps = renderEdgeConfig qs ∧
      ∀ (sorter : PipelineSorter) (targetClass : TargetClass),
        renderSorted targetClass (sorter.sort ps) = renderFullFor targetClass qs := by
  have rendered targetClass : renderFullFor targetClass ps = renderFullFor targetClass qs := by
    rw [renderFullFor_eq, renderFullFor_eq]
    exact renderSorted_same targetClass reordered insertionSorter insertionSorter
  refine ⟨rendered .forwarding, rendered .edge, fun sorter targetClass => ?_⟩
  rw [renderFullFor_eq]
  exact renderSorted_same targetClass reordered sorter insertionSorter

def exporting (slug : String) (signals : List String) (config : List (String × Json)) : RenderPipeline :=
  ⟨slug, slug, "main", ⟨signals, [], [⟨"otlp", none, some config⟩]⟩⟩

theorem render_reordered_pair :
    @renderForwardingConfig asciiPrintTable
        [exporting "acme" ["logs", "traces"] [("endpoint", .str "a:4317"), ("compression", .str "gzip")],
          exporting "zeta" ["logs"] []] =
      @renderForwardingConfig asciiPrintTable
        [exporting "zeta" ["logs"] [],
          exporting "acme" ["traces", "logs"] [("compression", .str "gzip"), ("endpoint", .str "a:4317")]] := by
  refine (@render_reordered asciiPrintTable _ _ ⟨_, List.Perm.swap .., .cons ?_ (.cons ?_ .nil)⟩).1
  · exact ⟨rfl, rfl, rfl, List.Perm.refl _, .nil, .cons ⟨rfl, rfl, .refl _⟩ .nil⟩
  · refine ⟨rfl, rfl, rfl, List.Perm.swap .., .nil, .cons ⟨rfl, rfl, ?_⟩ .nil⟩
    exact .obj (by decide) (List.Perm.swap ..) (.cons (.refl _) (.cons (.refl _) .nil))

end OtelFleet.Verified.RenderOrder
