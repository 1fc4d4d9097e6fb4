import OtelFleet.Collector.Expansion
import OtelFleet.Verified.ComponentIds

/-! # The strings of a graph in the collector

A node's config is rendered without escaping its strings, and the collector
expands them.  This module determines for which configs the collector has the
graph's strings, whatever its environment.
-/

namespace OtelFleet.Verified.ConfigStrings

open Data Tenants Pipelines Collector Verified.ComponentIds

/-! ## Leaves of a config -/

mutual
/-- The leaves of a config with their places, the members of an object in key order. -/
def leaves : Json → List (Place × Json)
  | .arr items => itemLeaves 0 items
  | .obj fields => (sortKeys (memberLeaves fields)).flatMap fun mem => mem.2.map (under (.key mem.1))
  | leaf => [([], leaf)]

def itemLeaves (i : Nat) : List Json → List (Place × Json)
  | [] => []
  | item :: items => (leaves item).map (under (.index i)) ++ itemLeaves (i + 1) items

def memberLeaves : List (String × Json) → List (String × List (Place × Json))
  | [] => []
  | (key, value) :: fields => (key, leaves value) :: memberLeaves fields
end

def leafScalar : Json → Scalar
  | .bool value => .bool value
  | .num value => numberScalar value
  | .str value => .str value
  | .null | .arr _ | .obj _ => .null

variable (leaf : Place × Json)

def rendered : Place × Scalar := (leaf.1, leafScalar leaf.2)

theorem map_rendered_under (step : Step) (entries : List (Place × Json)) :
    (entries.map (under step)).map rendered = (entries.map rendered).map (under step) := by
  rw [List.map_map, List.map_map]
  rfl

theorem memberLeaves_eq_map (fields : List (String × Json)) :
    memberLeaves fields = fields.map fun field => (field.1, leaves field.2) := by
  induction fields with
  | nil => rfl
  | cons field fields ih => simp [memberLeaves, ih]

theorem memberScalars_eq_flatMap (members : List (String × YamlNode)) :
    memberScalars members = members.flatMap fun mem => (scalars mem.2).map (under (.key mem.1)) := by
  induction members with
  | nil => rfl
  | cons mem members ih => simp [memberScalars, ih]

theorem scalars_toNode (value : Json) : scalars (toNode value) = (leaves value).map rendered := by
  induction value with
  | null | bool _ | num _ | str _ => rfl
  | arr items ih =>
    show itemScalars 0 (toNodeItems items) = (itemLeaves 0 items).map rendered
    generalize 0 = i
    induction items generalizing i with
    | nil => rfl
    | cons item items itemsHypothesis =>
      obtain ⟨here, later⟩ := List.forall_mem_cons.mp ih
      rw [toNodeItems, itemScalars, itemLeaves, List.map_append, map_rendered_under, here, itemsHypothesis later]
  | obj fields ih =>
    rw [toNode, scalars, memberScalars_eq_flatMap, leaves, toNodeFields_eq_map, memberLeaves_eq_map, sortKeys_map,
      sortKeys_map, List.flatMap_map, List.flatMap_map, List.map_flatMap]
    refine List.flatMap_congr fun field mem => ?_
    rw [map_rendered_under, ih field ((List.perm_insertionSort _ fields).mem_iff.mp mem)]

/-! ## Strings that arrive -/

section

variable (readKey : String → String)

/-- Where the graph has a string, the collector has the same one in the same place. -/
def SeesString (entry : Place × Scalar) : Prop :=
  ∀ text, leaf.2 = .str text → entry = (leaf.1, .str text)

/-- Nothing in the strings of a config expands, and the decoder reads the keys of
    their places as they are. -/
def Plain (config : Json) : Prop :=
  ∀ leaf ∈ leaves config, ∀ text, leaf.2 = .str text →
    (∀ step ∈ leaf.1, readStep readKey step = step) ∧ hasExpansion text.toList = false

/-- The collector has the strings of a node's config under the component's ID. -/
def Sees (provider : String → String) (document : YamlNode) (kind : Kind) (id : String) (node : Node) : Prop :=
  ∃ component, (document.get (sectionName kind)).content.lookup id = some component ∧
    List.Forall₂ SeesString (leaves node.configValue) (scalars (view readKey provider component))

variable {readKey}

theorem sees_rendered_iff :
    (∀ provider, SeesString leaf (seen readKey provider (rendered leaf))) ↔
      ∀ text, leaf.2 = .str text →
        (∀ step ∈ leaf.1, readStep readKey step = step) ∧ hasExpansion text.toList = false := by
  obtain ⟨place, value⟩ := leaf
  -- what arrives at a string is its place as read and its expansion
  have arrives text (isString : value = .str text) provider :
      seen readKey provider (rendered (place, value)) = (place, .str text) ↔
        place.map (readStep readKey) = place ∧ expand provider text = text := by
    rw [isString]
    simp [seen, rendered, leafScalar, expandScalar]
  have kept : place.map (readStep readKey) = place ↔ ∀ step ∈ place, readStep readKey step = step := by
    conv_lhs => rhs; rw [← List.map_id place]
    exact List.map_inj_left
  constructor
  · intro sees text isString
    have arrived := fun provider => (arrives text isString provider).mp (sees provider text isString)
    exact ⟨kept.mp (arrived id).1, (expand_eq_self_iff text).mp fun provider => (arrived provider).2⟩
  · intro plain provider text isString
    obtain ⟨keys, noExpansion⟩ := plain text isString
    exact (arrives text isString provider).mpr ⟨kept.mpr keys, (expand_eq_self_iff text).mpr noExpansion provider⟩

theorem forall₂_sees_iff (provider : String → String) (config : Json) :
    List.Forall₂ SeesString (leaves config) (scalars (view readKey provider (toNode config))) ↔
      ∀ leaf ∈ leaves config, SeesString leaf (seen readKey provider (rendered leaf)) := by
  rw [scalars_view, scalars_toNode, List.map_map, List.forall₂_map_right_iff, List.forall₂_same]
  rfl

end

/-- The collector has the strings of a node's config, in every environment, exactly
    when nothing in them expands and the keys that lead to them are read as they are. -/
theorem collector_sees_strings_iff [PrintTable] {schemas : SchemaValidator} {targetClass : TargetClass}
    {pipelines : List RenderPipeline} {document : YamlNode}
    (valid : ∀ p ∈ pipelines,
      validateStructural schemas p.graph = [] ∧ validSlug p.customerSlug ∧ validSlug p.pipelineSlug)
    (rendered : renderFullFor targetClass pipelines = .ok document) (readKey : String → String)
    {p : RenderPipeline} (mem : p ∈ pipelines) {kind : Kind} {i : Nat} {node : Node}
    (place : (nodesOf kind p.graph)[i]? = some node) :
    (∀ provider, Sees readKey provider document kind (componentID node i p.customerSlug p.pipelineSlug) node) ↔
      Plain readKey node.configValue := by
  have wellFormed : ∀ q ∈ pipelines, WellFormed q := fun q isMember =>
    wellFormed_of_valid (valid q isMember).1 (valid q isMember).2.1 (valid q isMember).2.2
  obtain ⟨inRange, isNode⟩ := List.getElem?_eq_some_iff.mp place
  have component : (componentID node i p.customerSlug p.pipelineSlug, toNode node.configValue) ∈
      p.components (nodesOf kind p.graph) := List.mem_mapIdx.mpr ⟨i, inRange, by rw [isNode]⟩
  have found := lookup_rendered wellFormed rendered mem kind component
  have seesIff provider :
      Sees readKey provider document kind (componentID node i p.customerSlug p.pipelineSlug) node ↔
        List.Forall₂ SeesString (leaves node.configValue)
          (scalars (view readKey provider (toNode node.configValue))) := by
    constructor
    · rintro ⟨other, isOther, sees⟩
      cases found.symm.trans isOther
      exact sees
    · exact fun sees => ⟨_, found, sees⟩
  constructor
  · intro sees leaf isLeaf
    refine (sees_rendered_iff leaf).mp fun provider => ?_
    exact (forall₂_sees_iff provider _).mp ((seesIff provider).mp (sees provider)) leaf isLeaf
  · intro plain provider
    refine (seesIff provider).mpr ((forall₂_sees_iff provider _).mpr fun leaf isLeaf => ?_)
    exact (sees_rendered_iff leaf).mpr (plain leaf isLeaf) provider

/-! A token with two dollar signs in it. -/

attribute [local instance] asciiPrintTable

def dollarToken : Node :=
  ⟨"splunk_hec", none, some [("endpoint", .str "https://hec.example:8088"), ("token", .str "pa$$word")]⟩

def dollarPipeline : RenderPipeline := ⟨"acme", "cust_acme", "main", ⟨["logs"], [], [dollarToken]⟩⟩

theorem dollarPipeline_valid : ∀ p ∈ [dollarPipeline],
    validateStructural (fun _ _ => none) p.graph = [] ∧ validSlug p.customerSlug ∧ validSlug p.pipelineSlug := by
  decide

theorem dollarToken_seen_iff : ∃ document, renderFullFor .forwarding [dollarPipeline] = .ok document ∧
    ((∀ provider, Sees id provider document .exporter (componentID dollarToken 0 "acme" "main") dollarToken) ↔
      Plain id dollarToken.configValue) := by
  have rendered : renderFullFor .forwarding [dollarPipeline] = .ok (forwardingConfig [dollarPipeline]) := rfl
  exact ⟨_, rendered, collector_sees_strings_iff dollarPipeline_valid rendered id (List.mem_singleton.mpr rfl) rfl⟩

/-- The graph is valid and the collector has the token `pa$word`. -/
theorem dollarToken_changed :
    (∀ p ∈ [dollarPipeline],
      validateStructural (fun _ _ => none) p.graph = [] ∧ validSlug p.customerSlug ∧ validSlug p.pipelineSlug) ∧
    ∃ document, renderFullFor .forwarding [dollarPipeline] = .ok document ∧
      ¬ ∀ provider, Sees id provider document .exporter (componentID dollarToken 0 "acme" "main") dollarToken := by
  refine ⟨dollarPipeline_valid, _, rfl, fun sees => ?_⟩
  obtain ⟨component, isComponent, strings⟩ := sees fun _ => ""
  cases isComponent
  have token : SeesString ([.key "token"], .str "pa$$word") ([.key "token"], .str (expand (fun _ => "") "pa$$word")) :=
    (List.forall₂_cons.mp (List.forall₂_cons.mp strings).2).1
  have same := congrArg Prod.snd (token "pa$$word" rfl)
  exact absurd same (by decide)

end OtelFleet.Verified.ConfigStrings
