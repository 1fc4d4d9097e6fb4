import OtelFleet.Pipelines.Catalog
import OtelFleet.Pipelines.Render

/-! # Validating pipeline graphs

First structurally, against the catalog; then authoritatively, by rendering the
full config and running `otelcol validate` on it.
-/

namespace OtelFleet.Pipelines

open Data

structure Issue where
  path : Option String
  message : String

def issueAt (path message : String) : Issue := ⟨some path, message⟩

inductive ErrorKind where
  | required (missing : List String) (message : String)
  | other (message : String)

inductive ValidationError where
  | mk (instanceLocation : List String) (kind : ErrorKind) (causes : List ValidationError)

/-- `sch.Validate` of a compiled schema, on a normalized config. -/
abbrev SchemaValidator := Schema → Json → Option ValidationError

/-- The issues of an error without causes.  A missing property is reported at the
    property itself. -/
def leafIssues (base : String) (instanceLocation : List String) (kind : ErrorKind) : List Issue :=
  let path := instanceLocation.foldl (fun path segment => path ++ "." ++ segment) base
  match kind with
  | .required (first :: rest) _ => (first :: rest).map fun missing =>
    issueAt (path ++ "." ++ missing) "required property is missing"
  | .required [] message | .other message => [issueAt path message]

mutual
def schemaIssues (base : String) : ValidationError → List Issue
  | .mk instanceLocation kind [] => leafIssues base instanceLocation kind
  | .mk _ _ (cause :: causes) => schemaIssues base cause ++ causeIssues base causes

def causeIssues (base : String) : List ValidationError → List Issue
  | [] => []
  | cause :: causes => schemaIssues base cause ++ causeIssues base causes
end

section

variable [PrintTable] (schemas : SchemaValidator)

/-- `ValidateConfig`: a nil config counts as an empty one. -/
def Component.validateConfig (component : Component) (node : Node) : Option ValidationError :=
  schemas component.schema (normalize node.configValue)

def signalIssues : Nat → List String → List String → List Issue
  | _, _, [] => []
  | i, seen, signal :: rest =>
    let path := "signals[" ++ toString i ++ "]"
    (if ¬ validSignal signal then
        [issueAt path ("unknown signal " ++ quote signal ++ " (want logs, traces or metrics)")]
      else if signal ∈ seen then [issueAt path ("duplicate signal " ++ quote signal)]
      else []) ++ signalIssues (i + 1) (signal :: seen) rest

def nameIssues (base : String) (node : Node) : List Issue :=
  match node.name with
  | some name =>
    if name ≠ "" ∧ ¬ validNodeName name then
      [issueAt (base ++ ".name") "node name must match ^[a-z0-9][a-z0-9-]\x7b0,63\x7d$"]
    else []
  | none => []

/-- The loop of `validateNodes`; `seen` has the position at which each component
    ID was last used, the latest first. -/
def nodeIssues (field : String) (kind : Kind) : Nat → List (String × Nat) → List Node → List Issue
  | _, _, [] => []
  | i, seen, node :: rest =>
    let base := field ++ "[" ++ toString i ++ "]"
    nameIssues base node ++
      match Catalog.lookup kind node.type with
      | none =>
        issueAt (base ++ ".type") ("unknown " ++ kind.text ++ " type " ++ quote node.type) ::
          nodeIssues field kind (i + 1) seen rest
      | some component =>
        let id := componentID node i "c" "p"
        (match seen.lookup id with
          | some prev => [issueAt base ("duplicate " ++ kind.text ++
              " instance (same type and name as " ++ field ++ "[" ++ toString prev ++
              "]); set a distinct name")]
          | none => []) ++
        ((component.validateConfig schemas node).elim [] (schemaIssues (base ++ ".config"))) ++
        nodeIssues field kind (i + 1) ((id, i) :: seen) rest

def validateNodes (field : String) (kind : Kind) (nodes : List Node) : List Issue :=
  nodeIssues schemas field kind 0 [] nodes

def validateStructural (graph : Graph) : List Issue :=
  (if graph.signals = [] then [issueAt "signals" "at least one signal is required"] else []) ++
    signalIssues 0 [] graph.signals ++
    (if graph.exporters = [] then [issueAt "exporters" "at least one exporter is required"] else []) ++
    validateNodes schemas "processors" .processor graph.processors ++
    validateNodes schemas "exporters" .exporter graph.exporters

/-! What a graph without findings is like. -/

variable {schemas}

theorem signalIssues_clean {i : Nat} {seen names : List String} (clean : signalIssues i seen names = []) :
    names.Nodup ∧ (∀ signal ∈ names, signal ∈ signals) ∧ ∀ signal ∈ names, signal ∉ seen := by
  induction names generalizing i seen with
  | nil => simp
  | cons signal rest ih =>
    obtain ⟨here, later⟩ := List.append_eq_nil_iff.mp clean
    obtain ⟨nodup, valid, fresh⟩ := ih later
    split at here
    · cases here
    · next isValid =>
      split at here
      · cases here
      · next notSeen =>
        have isSignal : signal ∈ signals := by simpa [validSignal] using isValid
        refine ⟨List.nodup_cons.mpr ⟨fun again => fresh signal again (List.mem_cons_self ..), nodup⟩,
          List.forall_mem_cons.mpr ⟨isSignal, valid⟩, List.forall_mem_cons.mpr ⟨notSeen, ?_⟩⟩
        exact fun other mem before => fresh other mem (List.mem_cons_of_mem _ before)

/-- The IDs by which the loop tells the nodes apart. -/
def localIDs (i : Nat) (nodes : List Node) : List String :=
  (nodes.zipIdx i).map fun entry => componentID entry.1 entry.2 "c" "p"

theorem nodeIssues_clean {field : String} {kind : Kind} {i : Nat} {seen : List (String × Nat)} {nodes : List Node}
    (clean : nodeIssues schemas field kind i seen nodes = []) :
    (∀ node ∈ nodes, ∃ component, Catalog.lookup kind node.type = some component) ∧
      (localIDs i nodes).Nodup ∧ ∀ id ∈ localIDs i nodes, seen.lookup id = none := by
  induction nodes generalizing i seen with
  | nil => simp [localIDs]
  | cons node rest ih =>
    have unnamed := (List.append_eq_nil_iff.mp clean).2
    cases found : Catalog.lookup kind node.type with
    | none => simp [found] at unnamed
    | some component =>
      simp only [found] at unnamed
      obtain ⟨front, later⟩ := List.append_eq_nil_iff.mp unnamed
      obtain ⟨known, nodup, fresh⟩ := ih later
      have unused : seen.lookup (componentID node i "c" "p") = none := by
        cases used : seen.lookup (componentID node i "c" "p") with
        | none => rfl
        | some prev => simp [used] at front
      -- a later node is compared with this one as well
      have apart : ∀ id ∈ localIDs (i + 1) rest, id ≠ componentID node i "c" "p" ∧ seen.lookup id = none := by
        intro id mem
        have missing := fresh id mem
        rw [lookup_cons] at missing
        split at missing
        · cases missing
        · next different => exact ⟨different, missing⟩
      refine ⟨List.forall_mem_cons.mpr ⟨⟨component, found⟩, known⟩, ?_, ?_⟩
      · exact List.nodup_cons.mpr ⟨fun again => (apart _ again).1 rfl, nodup⟩
      · exact List.forall_mem_cons.mpr ⟨unused, fun id mem => (apart id mem).2⟩

/-- Nodes of known types, with IDs that tell them apart. -/
structure WellNamed (kind : Kind) (nodes : List Node) : Prop where
  known : ∀ node ∈ nodes, ∃ component, Catalog.lookup kind node.type = some component
  distinct : (localIDs 0 nodes).Nodup

theorem validateStructural_clean {graph : Graph} (clean : validateStructural schemas graph = []) :
    graph.signals.Nodup ∧ WellNamed .processor graph.processors ∧ WellNamed .exporter graph.exporters := by
  simp only [validateStructural, List.append_eq_nil_iff] at clean
  obtain ⟨⟨⟨⟨_, signalsClean⟩, _⟩, processorsClean⟩, exportersClean⟩ := clean
  obtain ⟨nodup, _⟩ := signalIssues_clean signalsClean
  obtain ⟨knownProcessors, distinctProcessors, _⟩ := nodeIssues_clean processorsClean
  obtain ⟨knownExporters, distinctExporters, _⟩ := nodeIssues_clean exportersClean
  exact ⟨nodup, ⟨knownProcessors, distinctProcessors⟩, ⟨knownExporters, distinctExporters⟩⟩

end

inductive TargetClass where
  | forwarding
  | edge
deriving DecidableEq

def TargetClass.text : TargetClass → String
  | .forwarding => "forwarding"
  | .edge => "edge"

/-- The outcome of validating a graph.  The fragment is there when rendering
    succeeded, even if the validation then failed. -/
structure Result where
  valid : Bool
  issues : List Issue
  renderedYAML : Option YamlNode := none

/-- The collector binary; `otelcol` is `none` when there is no file at `binPath`,
    and otherwise runs `otelcol validate`, whose failure comes with its output. -/
structure Validator where
  schemas : SchemaValidator
  binPath : String
  otelcol : Option (YamlNode → Except String Unit)

def renderFragmentFor : TargetClass → RenderPipeline → Except String YamlNode
  | .forwarding => renderFragment
  | .edge => renderEdgeFragment

def fragmentFor (targetClass : TargetClass) : RenderPipeline → YamlNode :=
  match targetClass with
  | .forwarding => fragment customerPipeline
  | .edge => fragment edgePipeline

theorem renderFragmentFor_eq (targetClass : TargetClass) (p : RenderPipeline) :
    renderFragmentFor targetClass p = .ok (fragmentFor targetClass p) := by
  cases targetClass with
  | forwarding => exact renderFragment_eq p
  | edge => exact renderEdgeFragment_eq p

def renderFullFor [PrintTable] : TargetClass → List RenderPipeline → Except String YamlNode
  | .forwarding => renderForwardingConfig
  | .edge => renderEdgeConfig

def Validator.validate [PrintTable] (v : Validator) (targetClass : TargetClass)
    (candidate : RenderPipeline) (activeOthers : List RenderPipeline) : Result :=
  match validateStructural v.schemas candidate.graph with
  | issue :: issues => { valid := false, issues := issue :: issues }
  | [] =>
    match renderFragmentFor targetClass candidate with
    | .error message => { valid := false, issues := [⟨none, "render: " ++ message⟩] }
    | .ok fragment =>
      match renderFullFor targetClass (activeOthers ++ [candidate]) with
      | .error message =>
        { valid := false
          issues := [⟨none, "render " ++ targetClass.text ++ " config: " ++ message⟩]
          renderedYAML := some fragment }
      | .ok full =>
        match v.otelcol with
        | none =>
          { valid := true
            issues := [⟨none, "warning: otelcol validate skipped: collector binary unavailable at " ++
              v.binPath⟩]
            renderedYAML := some fragment }
        | some run =>
          match run full with
          | .error output =>
            { valid := false
              issues := [⟨none, "otelcol validate failed: " ++ output⟩]
              renderedYAML := some fragment }
          | .ok () => { valid := true, issues := [], renderedYAML := some fragment }

/-- The full config cannot be rendered, or the collector refuses it. -/
def Validator.Rejects [PrintTable] (v : Validator) (targetClass : TargetClass) (candidate : RenderPipeline)
    (activeOthers : List RenderPipeline) : Prop :=
  (∃ message, renderFullFor targetClass (activeOthers ++ [candidate]) = .error message) ∨
    ∃ full run output, renderFullFor targetClass (activeOthers ++ [candidate]) = .ok full ∧
      v.otelcol = some run ∧ run full = .error output

variable [PrintTable] {v : Validator} {targetClass : TargetClass} {candidate : RenderPipeline}
  (activeOthers : List RenderPipeline)

theorem validate_of_issues (found : validateStructural v.schemas candidate.graph ≠ []) :
    v.validate targetClass candidate activeOthers =
      { valid := false, issues := validateStructural v.schemas candidate.graph } := by
  unfold Validator.validate
  cases shape : validateStructural v.schemas candidate.graph with
  | nil => exact absurd shape found
  | cons issue issues => rfl

theorem validate_renderedYAML (clean : validateStructural v.schemas candidate.graph = []) :
    (v.validate targetClass candidate activeOthers).renderedYAML = some (fragmentFor targetClass candidate) := by
  unfold Validator.validate
  rw [clean, renderFragmentFor_eq]
  dsimp only
  split
  · rfl
  · split
    · rfl
    · split <;> rfl

theorem validate_valid_iff {activeOthers : List RenderPipeline}
    (clean : validateStructural v.schemas candidate.graph = []) :
    (v.validate targetClass candidate activeOthers).valid ↔ ¬ v.Rejects targetClass candidate activeOthers := by
  unfold Validator.validate Validator.Rejects
  rw [clean, renderFragmentFor_eq]
  cases rendered : renderFullFor targetClass (activeOthers ++ [candidate]) with
  | error message => simp
  | ok full =>
    cases binary : v.otelcol with
    | none => simp
    | some run =>
      cases verdict : run full <;> simp [verdict]

end OtelFleet.Pipelines
