import OtelFleet.Data.Quote
import OtelFleet.Pipelines.Yaml

/-! # How a collector routes items

An item that arrives at the OTLP receiver runs through the pipelines of its signal
that have this receiver, and each pipeline hands it to its exporters.  An exporter
that is a routing connector passes the item on to the pipelines of the first table
row whose condition holds.
-/

namespace OtelFleet.Pipelines.YamlNode

def content : YamlNode → List (String × YamlNode)
  | .map members => members
  | _ => []

def items : YamlNode → List YamlNode
  | .seq _ nodes => nodes
  | _ => []

def text? : YamlNode → Option String
  | .scalar (.str value) => some value
  | _ => none

def get (node : YamlNode) (key : String) : YamlNode :=
  (node.content.lookup key).getD (.scalar .null)

def getStrings (node : YamlNode) (key : String) : List String :=
  (node.get key).items.filterMap text?

theorem filterMap_strings (values : List String) : (strings values).items.filterMap text? = values := by
  simp [strings, items, Function.comp_def, str, text?]

end OtelFleet.Pipelines.YamlNode

namespace OtelFleet.Collector

open Data Pipelines

abbrev Instance := String × YamlNode

/-- One delivery of an item: the processors it has passed, in order, and the
    exporter that has it. -/
structure Delivery where
  processors : List Instance
  exporter : Instance

def idType (id : String) : String := String.ofList (id.toList.takeWhile (· ≠ '/'))

def conditionHead : String := "resource.attributes[\"tenant.id\"] == "

/-- The OTTL condition of a table row, for an item with this `tenant.id`. -/
def conditionHolds (tenant : String) (condition : String) : Bool :=
  conditionHead.toList.isPrefixOf condition.toList &&
    unquote (String.ofList (condition.toList.drop conditionHead.toList.length)) = some tenant

/-- The pipelines a routing connector chooses: those of the first row that
    matches, or the default ones. -/
def routes (tenant : String) (connector : YamlNode) : List String :=
  match (connector.get "table").items.find? fun row => (row.get "condition").text?.any (conditionHolds tenant) with
  | some row => row.getStrings "pipelines"
  | none => connector.getStrings "default_pipelines"

variable (config : YamlNode)

def pipelineSection : List (String × YamlNode) := ((config.get "service").get "pipelines").content

def instances (name : String) (ids : List String) : List Instance :=
  ids.filterMap fun id => ((config.get name).content.lookup id).map fun node => (id, node)

def consumes (signal source : String) (pipeline : String × YamlNode) : Bool :=
  idType pipeline.1 = signal && (pipeline.2.getStrings "receivers").contains source

/-- The deliveries of an item that enters the pipeline `id` after the processors
    `passed`.  The fuel bounds how many connectors an item can run through. -/
def runPipeline (signal tenant : String) : Nat → List Instance → String → List Delivery
  | 0, _, _ => []
  | fuel + 1, passed, id =>
    match (pipelineSection config).lookup id with
    | none => []
    | some pipeline =>
      let processed := passed ++ instances config "processors" (pipeline.getStrings "processors")
      (pipeline.getStrings "exporters").flatMap fun sink =>
        match (config.get "connectors").content.lookup sink with
        | some connector =>
          let targets := (routes tenant connector).filter fun target =>
            ((pipelineSection config).lookup target).any fun next => consumes signal sink (target, next)
          targets.flatMap (runPipeline signal tenant fuel processed)
        | none => (instances config "exporters" [sink]).map (Delivery.mk processed)

def deliveries (fuel : Nat) (signal tenant : String) : List Delivery :=
  ((pipelineSection config).filter (consumes signal "otlp")).flatMap fun entry =>
    runPipeline config signal tenant fuel [] entry.1

end OtelFleet.Collector
