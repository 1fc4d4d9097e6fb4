import OtelFleet.Data.MergePatch
import OtelFleet.Pipelines.Render

/-! # Distributing the rendered config

`K8sDistributor` applies a rendered config by merge-patching `spec.config` of an
OpenTelemetryCollector custom resource.
-/

namespace OtelFleet.Pipelines

open Data

/-- The JSON members of a `map[string]any`. -/
abbrev GoMap := { fields : List (String × Json) // (Json.obj fields).Canonical }

/-- A decoded `map[string]any`, by its JSON or by the error `json.Marshal` has
    for it (a nested map with a key that is no string, an infinite number). -/
abbrev DecodedMap := Except String GoMap

structure Rollout where
  state : String
  detail : String

def stateApplied : String := "applied"

structure K8sDistributor where
  name : String
  «namespace» : String

namespace K8sDistributor

def configPatch (cfg : GoMap) : Doc :=
  ⟨.obj [("spec", .obj [("config", .obj cfg.1)])],
    List.pairwise_singleton _ _, ⟨List.pairwise_singleton _ _, cfg.2, trivial⟩, trivial⟩

def specConfig (resource : Doc) : Option Json :=
  (resource.1.fields.lookup "spec").bind fun spec => spec.fields.lookup "config"

/-- `Distribute` on the resource's content.  `unmarshal` is `yaml.Unmarshal` into
    a `map[string]any`, and `refusal` the API server's error, if it has one. -/
def distribute (d : K8sDistributor) (unmarshal : YamlNode → Except String DecodedMap)
    (refusal : Option String) (resource : Doc) (rendered : YamlNode) :
    Except String (Rollout × Doc) :=
  match unmarshal rendered with
  | .error msg => .error ("k8s distributor: decode rendered config: " ++ msg)
  | .ok (.error msg) => .error ("k8s distributor: marshal patch: " ++ msg)
  | .ok (.ok cfg) =>
    match refusal with
    | some msg =>
      .error ("k8s distributor: patch " ++ d.namespace ++ "/" ++ d.name ++ ": " ++ msg)
    | none =>
      .ok (⟨stateApplied, "patched OpenTelemetryCollector " ++ d.namespace ++ "/" ++ d.name⟩,
        (configPatch cfg).mergePatch resource)

end K8sDistributor

def Scalar.value : Scalar → Json
  | .null => .null
  | .bool value => .bool value
  | .int value => .num (.int value)
  | .float value => .num (.float64 value)
  | .negZero => .num .negZero
  | .str value => .str value

mutual
def decodeNode : YamlNode → Json
  | .scalar value => value.value
  | .seq _ items => .arr (decodeItems items)
  | .map content => .obj (decodeFields content)

def decodeItems : List YamlNode → List Json
  | [] => []
  | item :: items => decodeNode item :: decodeItems items

def decodeFields : List (String × YamlNode) → List (String × Json)
  | [] => []
  | (key, value) :: content => insertKey key (decodeNode value) (decodeFields content)
end

theorem canonicalFields_insertKey {key : String} {value : Json} {fields : List (String × Json)}
    (valueCanonical : value.Canonical) (canonical : Json.CanonicalFields fields) :
    Json.CanonicalFields (insertKey key value fields) := by
  induction fields with
  | nil => exact ⟨valueCanonical, trivial⟩
  | cons field rest ih =>
    simp only [insertKey]
    split
    · exact ⟨valueCanonical, canonical.2⟩
    · split
      · exact ⟨valueCanonical, canonical⟩
      · exact ⟨canonical.1, ih canonical.2⟩

mutual
theorem canonical_decodeNode : ∀ node : YamlNode, (decodeNode node).Canonical
  | .scalar value => by cases value <;> trivial
  | .seq _ items => canonical_decodeItems items
  | .map content => canonical_decodeFields content

theorem canonical_decodeItems : ∀ items : List YamlNode, Json.CanonicalItems (decodeItems items)
  | [] => trivial
  | item :: items => ⟨canonical_decodeNode item, canonical_decodeItems items⟩

theorem canonical_decodeFields : ∀ content : List (String × YamlNode),
    (Json.obj (decodeFields content)).Canonical
  | [] => ⟨List.Pairwise.nil, trivial⟩
  | (key, value) :: content => by
    obtain ⟨sorted, canonical⟩ := canonical_decodeFields content
    exact ⟨sorted.insertKey key _,
      canonicalFields_insertKey (canonical_decodeNode value) canonical⟩
end

/-- Decoding into a `map[string]any`: the document has to be a mapping. -/
def decodeMap : YamlNode → Except String DecodedMap
  | .map content => .ok <| .ok ⟨decodeFields content, canonical_decodeFields content⟩
  | .scalar _ | .seq _ _ => .error "cannot unmarshal into map[string]interface {}"

end OtelFleet.Pipelines
