import OtelFleet.Data.Quote
import OtelFleet.Pipelines.Naming
import OtelFleet.Pipelines.Yaml

/-! # Rendering the collector configs

`renderForwardingConfig` renders the forwarding tier's config from all active
pipelines: a shared OTLP receiver feeds one entry pipeline per signal, which
routes by tenant into one collector pipeline per customer pipeline and signal.
`renderEdgeConfig` renders the config of one customer's edge agents, and the two
fragment renderers the part of it that is stored with a version.
-/

namespace OtelFleet.Pipelines

open Data

structure RenderPipeline where
  customerSlug : String
  clientID : String
  pipelineSlug : String
  graph : Graph
deriving DecidableEq

namespace RenderPipeline

def key (p : RenderPipeline) : String := pipelineKey p.customerSlug p.pipelineSlug

def componentIDs (p : RenderPipeline) (nodes : List Node) : List String :=
  nodes.mapIdx fun i n => componentID n i p.customerSlug p.pipelineSlug

def components (p : RenderPipeline) (nodes : List Node) : List (String × YamlNode) :=
  nodes.mapIdx fun i n => (componentID n i p.customerSlug p.pipelineSlug, toNode n.configValue)

end RenderPipeline

def routingConnectorID (signal : String) : String := "routing/tenants_" ++ signal

/-- The comparison of `sort.Slice`: by customer slug, then by pipeline slug. -/
def lessPipeline (a b : RenderPipeline) : Bool :=
  if a.customerSlug ≠ b.customerSlug then a.customerSlug < b.customerSlug
  else a.pipelineSlug < b.pipelineSlug

def sortPipelines (pipelines : List RenderPipeline) : List RenderPipeline :=
  pipelines.insertionSort fun a b => lessPipeline b a = false

/-- The `seen` loop: the first key that an earlier pipeline has as well. -/
def duplicateKey : List String → List RenderPipeline → Option String
  | _, [] => none
  | seen, p :: rest => if p.key ∈ seen then some p.key else duplicateKey (p.key :: seen) rest

def receiversSection : YamlNode :=
  .map [("otlp", toNode (.obj [("protocols", .obj [
    ("grpc", .obj [("endpoint", .str "0.0.0.0:4317")]),
    ("http", .obj [("endpoint", .str "0.0.0.0:4318")])])]))]

def memoryLimiterConfig : Json :=
  .obj [("check_interval", .str "1s"), ("limit_percentage", .num (.int 80)),
    ("spike_limit_percentage", .num (.int 20))]

def batchConfig : Json :=
  .obj [("send_batch_size", .num (.int 8192)), ("timeout", .str "5s")]

def processorsSection (ps : List RenderPipeline) : YamlNode :=
  .map (("memory_limiter", toNode memoryLimiterConfig) :: ("batch", toNode batchConfig) ::
    ps.flatMap fun p => p.components p.graph.processors)

def exportersSection (needDebug : Bool) (ps : List RenderPipeline) : YamlNode :=
  .map ((if needDebug then [("debug", toNode (.obj []))] else []) ++
    ps.flatMap fun p => p.components p.graph.exporters)

def extensionsSection : YamlNode :=
  .map [("health_check", toNode (.obj [("endpoint", .str "0.0.0.0:13133")]))]

def telemetryConfig : Json :=
  .obj [("logs", .obj [("level", .str "info")]),
    ("metrics", .obj [("readers", .arr [.obj [("pull", .obj [("exporter", .obj [("prometheus",
      .obj [("host", .str "0.0.0.0"), ("port", .num (.int 8888))])])])]])])]

def serviceSection (pipelines : List (String × YamlNode)) : YamlNode :=
  .map [("extensions", .strings ["health_check"]), ("telemetry", toNode telemetryConfig),
    ("pipelines", .map pipelines)]

def entryPipeline (sink : String) : YamlNode :=
  .map [("receivers", .strings ["otlp"]), ("processors", .strings ["memory_limiter", "batch"]),
    ("exporters", .strings [sink])]

/-- `signalsWith[signal]`: the pipelines carrying the signal, once for each time
    their graph lists it. -/
def signalsWith (ps : List RenderPipeline) (signal : String) : List RenderPipeline :=
  ps.flatMap fun p => (p.graph.signals.filter (· = signal)).map fun _ => p

/-- One round of the `byClient` loop: append `id` to the client's list, or start
    one behind the clients seen so far. -/
def addToClient (clientID id : String) : List (String × List String) → List (String × List String)
  | [] => [(clientID, [id])]
  | (client, ids) :: rest =>
    if client = clientID then (client, ids ++ [id]) :: rest else (client, ids) :: addToClient clientID id rest

def byClient (signal : String) (routed : List RenderPipeline) : List (String × List String) :=
  routed.foldl (fun table p =>
    addToClient p.clientID (collectorPipelineID signal p.customerSlug p.pipelineSlug) table) []

section

variable [PrintTable]

def routingCondition (clientID : String) : String :=
  "resource.attributes[\"tenant.id\"] == " ++ quote clientID

def tableEntry (entry : String × List String) : YamlNode :=
  .map [("condition", .str (routingCondition entry.1)), ("pipelines", .strings entry.2)]

def routingConnector (signal : String) (routed : List RenderPipeline) : YamlNode :=
  .map [("default_pipelines", .strings []), ("error_mode", .str "ignore"),
    ("table", .seq false ((byClient signal routed).map tableEntry))]

def connectors (ps : List RenderPipeline) : List (String × YamlNode) :=
  signals.filterMap fun signal =>
    if signalsWith ps signal = [] then none
    else some (routingConnectorID signal, routingConnector signal (signalsWith ps signal))

def entrySink (ps : List RenderPipeline) (signal : String) : String :=
  if signalsWith ps signal = [] then "debug" else routingConnectorID signal

def customerPipeline (signal : String) (p : RenderPipeline) : YamlNode :=
  .map ([("receivers", .strings [routingConnectorID signal])] ++
    (if p.graph.processors = [] then []
      else [("processors", .strings (p.componentIDs p.graph.processors))]) ++
    [("exporters", .strings (p.componentIDs p.graph.exporters))])

def customerPipelines (render : String → RenderPipeline → YamlNode) (p : RenderPipeline) :
    List (String × YamlNode) :=
  (signals.filter p.graph.hasSignal).map fun signal =>
    (collectorPipelineID signal p.customerSlug p.pipelineSlug, render signal p)

/-- The document that `renderForwardingConfig` builds from sorted pipelines. -/
def forwardingConfig (ps : List RenderPipeline) : YamlNode :=
  .map ([("receivers", receiversSection), ("processors", processorsSection ps)] ++
    (if connectors ps = [] then [] else [("connectors", .map (connectors ps))]) ++
    [("exporters", exportersSection (signals.any fun signal => signalsWith ps signal = []) ps),
      ("extensions", extensionsSection),
      ("service", serviceSection
        (signals.map (fun signal => (signal ++ "/in", entryPipeline (entrySink ps signal))) ++
          ps.flatMap (customerPipelines customerPipeline)))])

def renderForwardingConfig (pipelines : List RenderPipeline) : Except String YamlNode :=
  let ps := sortPipelines pipelines
  match duplicateKey [] ps with
  | some key => .error ("duplicate pipeline key " ++ quote key ++ " in rendered config")
  | none => .ok (forwardingConfig ps)

end

def edgeProcessorIDs (p : RenderPipeline) : List String :=
  ["memory_limiter", "batch"] ++ p.componentIDs p.graph.processors

def edgePipeline (_signal : String) (p : RenderPipeline) : YamlNode :=
  .map [("receivers", .strings ["otlp"]), ("processors", .strings (edgeProcessorIDs p)),
    ("exporters", .strings (p.componentIDs p.graph.exporters))]

/-- The document that `renderEdgeConfig` builds from sorted pipelines; without
    any, every signal drains into `debug`. -/
def edgeConfig (ps : List RenderPipeline) : YamlNode :=
  .map [("receivers", receiversSection), ("processors", processorsSection ps),
    ("exporters", exportersSection (ps = []) ps), ("extensions", extensionsSection),
    ("service", serviceSection
      ((if ps = [] then signals.map fun signal => (signal ++ "/in", entryPipeline "debug") else []) ++
        ps.flatMap (customerPipelines edgePipeline)))]

def renderEdgeConfig [PrintTable] (pipelines : List RenderPipeline) : Except String YamlNode :=
  let ps := sortPipelines pipelines
  match duplicateKey [] ps with
  | some key => .error ("duplicate pipeline key " ++ quote key ++ " in rendered edge config")
  | none => .ok (edgeConfig ps)

/-! ## Fragments

The fragment of one pipeline is built by loops of its own, which repeat those of the full
config.  `fragment` is made of the parts of the full config.
-/

/-- `set` in the loops over the nodes of a fragment. -/
def setNodes (p : RenderPipeline) (nodes : List Node) : List (String × YamlNode) :=
  nodes.zipIdx.foldl (fun entries (n, i) =>
    entries ++ [(componentID n i p.customerSlug p.pipelineSlug, toNode n.configValue)]) []

def appendIDs (p : RenderPipeline) (nodes : List Node) (ids : List String) : List String :=
  nodes.zipIdx.foldl (fun ids (n, i) => ids ++ [componentID n i p.customerSlug p.pipelineSlug]) ids

def renderFragmentWith (cp : String → YamlNode) (p : RenderPipeline) : Except String YamlNode :=
  let processors := if p.graph.processors.length > 0 then [("processors", .map (setNodes p p.graph.processors))] else []
  let svcPipelines := signals.foldl (fun entries sig =>
    if !p.graph.hasSignal sig then entries
    else entries ++ [(collectorPipelineID sig p.customerSlug p.pipelineSlug, cp sig)]) []
  .ok (.map (processors ++ [("exporters", .map (setNodes p p.graph.exporters)),
    ("service", .map [("pipelines", .map svcPipelines)])]))

def renderFragment (p : RenderPipeline) : Except String YamlNode :=
  renderFragmentWith (fun sig => .map ([("receivers", .strings [routingConnectorID sig])] ++
    (if p.graph.processors.length > 0 then [("processors", .strings (appendIDs p p.graph.processors []))] else []) ++
    [("exporters", .strings (appendIDs p p.graph.exporters []))])) p

def renderEdgeFragment (p : RenderPipeline) : Except String YamlNode :=
  renderFragmentWith (fun _ => .map [("receivers", .strings ["otlp"]), ("processors", .strings (edgeProcessorIDs p)),
    ("exporters", .strings (appendIDs p p.graph.exporters []))]) p

def fragment (render : String → RenderPipeline → YamlNode) (p : RenderPipeline) : YamlNode :=
  .map ((if p.graph.processors = [] then []
      else [("processors", .map (p.components p.graph.processors))]) ++
    [("exporters", .map (p.components p.graph.exporters)),
      ("service", .map [("pipelines", .map (customerPipelines render p))])])

variable (p : RenderPipeline) (nodes : List Node)

theorem foldl_append_singleton {α β : Type} (f : α → β) (list : List α) (done : List β) :
    list.foldl (fun done one => done ++ [f one]) done = done ++ list.map f := by
  induction list generalizing done with
  | nil => simp
  | cons one list ih => simp [ih]

theorem setNodes_eq : setNodes p nodes = p.components nodes := by
  rw [setNodes, foldl_append_singleton, List.nil_append, RenderPipeline.components, List.mapIdx_eq_zipIdx_map]

theorem appendIDs_eq (ids : List String) : appendIDs p nodes ids = ids ++ p.componentIDs nodes := by
  rw [appendIDs, foldl_append_singleton, RenderPipeline.componentIDs, List.mapIdx_eq_zipIdx_map]

theorem renderFragmentWith_eq {cp : String → YamlNode} {render : String → RenderPipeline → YamlNode}
    (same : ∀ sig, cp sig = render sig p) : renderFragmentWith cp p = .ok (fragment render p) := by
  have pipelines : ∀ (sigs : List String) (done : List (String × YamlNode)), sigs.foldl (fun entries sig =>
      if !p.graph.hasSignal sig then entries
      else entries ++ [(collectorPipelineID sig p.customerSlug p.pipelineSlug, cp sig)]) done =
        done ++ (sigs.filter p.graph.hasSignal).map fun sig =>
          (collectorPipelineID sig p.customerSlug p.pipelineSlug, render sig p) := by
    intro sigs
    induction sigs with
    | nil => simp
    | cons sig sigs ih =>
      intro done
      rw [List.foldl_cons, ih]
      cases carried : p.graph.hasSignal sig <;> simp [carried, same]
  rw [renderFragmentWith, fragment, pipelines]
  cases none : p.graph.processors <;> simp [setNodes_eq, customerPipelines]

theorem renderFragment_eq : renderFragment p = .ok (fragment customerPipeline p) := by
  apply renderFragmentWith_eq
  intro sig
  cases none : p.graph.processors <;> simp [customerPipeline, appendIDs_eq, none]

theorem renderEdgeFragment_eq : renderEdgeFragment p = .ok (fragment edgePipeline p) := by
  apply renderFragmentWith_eq
  intro sig
  simp [edgePipeline, appendIDs_eq]

end OtelFleet.Pipelines
