import OtelFleet.Data.Decimal
import OtelFleet.Data.Json

/-! # The pipeline graph

The UI's pipeline model as it is persisted in `pipeline_versions.graph`.
-/

namespace OtelFleet.Pipelines

open Data

def signals : List String := ["logs", "traces", "metrics"]

def validSignal (s : String) : Bool := signals.contains s

/-- One processor or exporter instance.  `config` is a Go map, which may be nil. -/
structure Node where
  type : String
  name : Option String := none
  config : Option (List (String × Json))
deriving DecidableEq

structure Graph where
  signals : List String
  processors : List Node
  exporters : List Node
deriving DecidableEq

namespace Graph

def hasSignal (graph : Graph) (signal : String) : Bool := graph.signals.contains signal

end Graph

def Node.configValue (node : Node) : Json := .obj (node.config.getD [])

variable (format : ℚ → String)

/-- What a number becomes on its way through the database: `encoding/json`
    writes it out and `UseNumber` reads back the literal. -/
def storeNumber : Number → Json
  | .int value => .num (.literal (toString value))
  | .float64 value => .num (.literal (format value))
  | .negZero => .num (.literal "-0")
  | .literal text => .num (.literal text)

/-- The JSON payload of a stored graph, by the graph `ParseGraph` reads from it;
    `none` is a payload that does not decode. -/
abbrev Payload := Option Graph

def parseGraph (raw : Payload) : Except String Graph :=
  match raw with
  | some graph => .ok graph
  | none => .error "parse pipeline graph"

def storeNode (node : Node) : Node :=
  { node with config := node.config.map (Json.mapNumbersFields (storeNumber format)) }

def storeGraph (graph : Graph) : Graph :=
  { graph with
    processors := graph.processors.map (storeNode format), exporters := graph.exporters.map (storeNode format) }

/-- `json.Marshal` of the graph.  `format` is the number text of `encoding/json`. -/
def marshalGraph (graph : Graph) : Payload := some (storeGraph format graph)

end OtelFleet.Pipelines
