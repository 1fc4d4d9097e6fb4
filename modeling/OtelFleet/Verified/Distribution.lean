import OtelFleet.Pipelines.Distribute

/-! # When distribution replaces the config

`K8sDistributor` sends a merge patch, so the config a collector ends up with is
a function of every config distributed before.  The runs here are sequences of
successful `Distribute` calls on outputs of `renderForwardingConfig`.  A run
leaves exactly the distributed document after each call if and only if each
document covers the config it is merged into: it names every key that is there
and has no null member.
-/

namespace OtelFleet.Verified.Distribution

open Data Pipelines Pipelines.K8sDistributor

/-- One successful call: the active pipelines it rendered, the document decoded
    from its argument and the resource it left. -/
structure Call where
  pipelines : List RenderPipeline
  document : GoMap
  after : Doc

/-- A sequence of successful calls on a resource. -/
inductive Run [PrintTable] (d : K8sDistributor) (unmarshal : YamlNode → Except String DecodedMap) :
    Doc → List Call → Prop where
  | nil {resource : Doc} : Run d unmarshal resource []
  | cons {resource after : Doc} {pipelines : List RenderPipeline} {rendered : YamlNode}
      {document : GoMap} {rollout : Rollout} {calls : List Call}
      (render : renderForwardingConfig pipelines = .ok rendered)
      (decode : unmarshal rendered = .ok (.ok document))
      (distributed : d.distribute unmarshal none resource rendered = .ok (rollout, after))
      (rest : Run d unmarshal after calls) :
      Run d unmarshal resource (⟨pipelines, document, after⟩ :: calls)

/-- After each call the resource holds exactly the document of that call. -/
def Replaces (calls : List Call) : Prop :=
  ∀ call ∈ calls, specConfig call.after = some (.obj call.document.1)

/-- Each document covers the config before it: the resource's own at first, then
    the document of the call before. -/
def CoveringRun (config : Json) : List Call → Prop
  | [] => True
  | call :: calls =>
    Json.Covers (.obj call.document.1) config ∧ CoveringRun (.obj call.document.1) calls

theorem specConfig_canonical (resource : Doc) : ((specConfig resource).getD .null).Canonical := by
  cases found : specConfig resource with
  | none => trivial
  | some config =>
    obtain ⟨spec, specFound, configFound⟩ := Option.bind_eq_some_iff.mp found
    exact (resource.2.lookup specFound).lookup configFound

theorem lookup_mergePatch_singleton (key : String) (fields : List (String × Json)) (target : Json) :
    (Json.mergePatch (.obj [(key, .obj fields)]) target).fields.lookup key =
      some (Json.mergePatch (.obj fields) ((target.fields.lookup key).getD .null)) := by
  rw [Json.mergePatch, Json.fields_obj, Json.lookup_mergeFields (List.pairwise_singleton _ _)]
  simp [Json.mergedMember]

theorem specConfig_mergePatch (cfg : GoMap) (resource : Doc) :
    specConfig ((configPatch cfg).mergePatch resource) =
      some (Json.mergePatch (.obj cfg.1) ((specConfig resource).getD .null)) := by
  simp only [specConfig, Doc.mergePatch, configPatch, lookup_mergePatch_singleton, Option.bind_some]
  cases resource.1.fields.lookup "spec" with
  | none => simp [Json.fields]
  | some old => simp

theorem call_replaces_iff (resource : Doc) (document : GoMap) :
    specConfig ((configPatch document).mergePatch resource) = some (.obj document.1) ↔
      Json.Covers (.obj document.1) ((specConfig resource).getD .null) := by
  rw [specConfig_mergePatch, Option.some.injEq]
  exact Json.mergePatch_eq_iff document.2 (specConfig_canonical resource)

/-- A run of distributions replaces the config at every call if and only if each
    document covers the one before it. -/
theorem run_replaces_iff_covering [PrintTable] {d : K8sDistributor}
    {unmarshal : YamlNode → Except String DecodedMap} {resource : Doc} {calls : List Call}
    (run : Run d unmarshal resource calls) :
    Replaces calls ↔ CoveringRun ((specConfig resource).getD .null) calls := by
  induction run with
  | nil => simp [Replaces, CoveringRun]
  | @cons resource after pipelines rendered document rollout calls _ decode distributed _
      ih =>
    have step := call_replaces_iff resource document
    simp only [K8sDistributor.distribute, decode, Except.ok.injEq, Prod.mk.injEq] at distributed
    rw [distributed.2] at step
    simp only [Replaces, List.forall_mem_cons] at ih ⊢
    rw [step]
    refine and_congr_right fun covers => ?_
    -- the call left its document, so the rest of the run starts from it
    rw [ih, step.mpr covers, Option.getD_some]

/-- **Retry.**  To distribute a config again is to distribute it once, whatever the
    resource held before. -/
theorem distribute_again (d : K8sDistributor) (unmarshal : YamlNode → Except String DecodedMap) (resource : Doc)
    (rendered : YamlNode) :
    ((d.distribute unmarshal none resource rendered).bind fun (_, after) => d.distribute unmarshal none after rendered) =
      d.distribute unmarshal none resource rendered := by
  unfold K8sDistributor.distribute
  rcases unmarshal rendered with _ | _ | cfg
  · rfl
  · rfl
  · exact congrArg (fun after => Except.ok (_, after))
      (Subtype.ext (Json.mergePatch_mergePatch (configPatch cfg).2 resource.2))

def backup : RenderPipeline :=
  ⟨"acme-corp", "cust_aaaa1111", "backup", ⟨["logs"], [], [⟨"debug", none, some []⟩]⟩⟩

def emptyResource : Doc := ⟨.obj [], List.Pairwise.nil, trivial⟩

attribute [local instance] asciiPrintTable

def documentOf (pipelines : List RenderPipeline) : GoMap :=
  match renderForwardingConfig pipelines with
  | .ok (.map content) => ⟨decodeFields content, canonical_decodeFields content⟩
  | _ => ⟨[], List.Pairwise.nil, trivial⟩

def callsFrom (resource : Doc) : List (List RenderPipeline) → List Call
  | [] => []
  | pipelines :: rest =>
    let after := (configPatch (documentOf pipelines)).mergePatch resource
    ⟨pipelines, documentOf pipelines, after⟩ :: callsFrom after rest

theorem run_callsFrom {sets : List (List RenderPipeline)}
    (valid : ∀ set ∈ sets, set = [] ∨ set = [backup]) (resource : Doc) :
    Run ⟨"fleet", "otel"⟩ decodeMap resource (callsFrom resource sets) := by
  induction sets generalizing resource with
  | nil => exact .nil
  | cons set sets ih =>
    obtain ⟨head, tail⟩ := List.forall_mem_cons.mp valid
    rcases head with rfl | rfl
    · have render : renderForwardingConfig [] = .ok (forwardingConfig []) := rfl
      exact .cons render rfl rfl (ih tail _)
    · have render : renderForwardingConfig [backup] = .ok (forwardingConfig [backup]) := rfl
      exact .cons render rfl rfl (ih tail _)

theorem backup_then_none_run_iff :
    Run ⟨"fleet", "otel"⟩ decodeMap emptyResource (callsFrom emptyResource [[backup], []]) ∧
      (Replaces (callsFrom emptyResource [[backup], []]) ↔
        CoveringRun .null (callsFrom emptyResource [[backup], []])) :=
  ⟨run_callsFrom (by simp) _, run_replaces_iff_covering (run_callsFrom (by simp) emptyResource)⟩

/-- The backup pipeline is activated and then deleted: its exporter is still in
    the resource, which the second document does not have. -/
theorem deleted_pipeline_stays :
    Run ⟨"fleet", "otel"⟩ decodeMap emptyResource (callsFrom emptyResource [[backup], []]) ∧
      ¬ Replaces (callsFrom emptyResource [[backup], []]) := by
  refine ⟨run_callsFrom (by simp) _, fun replaces => ?_⟩
  have exporters := congrArg (Option.map fun config => (config.fields.lookup "exporters").map fun exporters =>
    (exporters.fields.map Prod.fst)) (replaces _ (List.mem_cons_of_mem _ (List.mem_singleton.mpr rfl)))
  revert exporters
  decide

end OtelFleet.Verified.Distribution
