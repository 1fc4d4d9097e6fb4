import OtelFleet.Data.Regex
import OtelFleet.Pipelines.Graph
import OtelFleet.Tenants.Slug

/-! # Component IDs

Collector self-telemetry carries component IDs in its labels, so the IDs encode
the pipeline a component belongs to:

* collector pipeline: `<signal>/<customerSlug>__<pipelineSlug>`
* exporter or processor: `<type>/<customerSlug>__<pipelineSlug>__<node>`
-/

namespace OtelFleet.Pipelines

open Tenants

def pipelineSlug (name : String) : String := deriveSlug name

def pipelineKey (customerSlug pipelineSlug : String) : String :=
  customerSlug ++ "__" ++ pipelineSlug

def collectorPipelineID (signal customerSlug pipelineSlug : String) : String :=
  signal ++ "/" ++ pipelineKey customerSlug pipelineSlug

def nodeSuffix (node : Node) (idx : Nat) : String :=
  match node.name with
  | some name => if name ≠ "" then name else toString idx
  | none => toString idx

def componentID (node : Node) (idx : Nat) (customerSlug pipelineSlug : String) : String :=
  node.type ++ "/" ++ pipelineKey customerSlug pipelineSlug ++ "__" ++ nodeSuffix node idx

/-- Matches the `exporter` label of the exporters of one pipeline; a label is
    matched as a whole, hence the wildcard at the end. -/
def exporterLabelRegex (customerSlug pipelineSlug : String) : String :=
  "^[^/]+/" ++ Data.Regex.quoteMeta (pipelineKey customerSlug pipelineSlug) ++ "__.*"

/-- `nodeNamePattern`, `^[a-z0-9][a-z0-9-]{0,63}$`. -/
def validNodeName (name : String) : Bool :=
  name.toList.length ≤ 64 && name.toList.all isSlugChar && name.toList.head?.any isSlugAlnum

theorem append_cons_inj {separator : Char} {left right left' right' : List Char} (notMem : separator ∉ left)
    (notMem' : separator ∉ left') (same : left ++ separator :: right = left' ++ separator :: right') :
    left = left' ∧ right = right' := by
  have front left right (notMem : separator ∉ left) :
      (left ++ separator :: right).takeWhile (· ≠ separator) = left := by
    rw [List.takeWhile_append_of_pos fun _ mem => decide_eq_true (ne_of_mem_of_not_mem mem notMem)]
    simp
  have sameLeft : left = left' := by rw [← front left right notMem, same, front left' right' notMem']
  rw [sameLeft] at same
  exact ⟨sameLeft, (List.cons.inj (List.append_cancel_left same)).2⟩

theorem toList_collectorPipelineID (signal customerSlug pipelineSlug : String) :
    (collectorPipelineID signal customerSlug pipelineSlug).toList =
      signal.toList ++ '/' :: (customerSlug.toList ++ '_' :: '_' :: pipelineSlug.toList) := by
  simp [collectorPipelineID, pipelineKey]

theorem toList_componentID (node : Node) (idx : Nat) (customerSlug pipelineSlug : String) :
    (componentID node idx customerSlug pipelineSlug).toList = node.type.toList ++
      '/' :: (customerSlug.toList ++ '_' :: '_' :: (pipelineSlug.toList ++ '_' :: '_' ::
        (nodeSuffix node idx).toList)) := by
  simp [componentID, pipelineKey]

variable {customerSlug pipelineSlug customerSlug' pipelineSlug' : String}
variable (customer : '_' ∉ customerSlug.toList) (customer' : '_' ∉ customerSlug'.toList)

include customer customer'

theorem collectorPipelineID_inj {signal signal' : String} (isSignal : '/' ∉ signal.toList)
    (isSignal' : '/' ∉ signal'.toList)
    (same : collectorPipelineID signal customerSlug pipelineSlug =
      collectorPipelineID signal' customerSlug' pipelineSlug') :
    signal = signal' ∧ customerSlug = customerSlug' ∧ pipelineSlug = pipelineSlug' := by
  have texts := congrArg String.toList same
  rw [toList_collectorPipelineID, toList_collectorPipelineID] at texts
  obtain ⟨sameSignal, keys⟩ := append_cons_inj isSignal isSignal' texts
  obtain ⟨sameCustomer, rest⟩ := append_cons_inj customer customer' keys
  exact ⟨String.toList_inj.mp sameSignal, String.toList_inj.mp sameCustomer,
    String.toList_inj.mp (List.cons.inj rest).2⟩

theorem componentID_inj (pipeline : '_' ∉ pipelineSlug.toList) (pipeline' : '_' ∉ pipelineSlug'.toList)
    {node node' : Node} {idx idx' : Nat} (type : '/' ∉ node.type.toList) (type' : '/' ∉ node'.type.toList)
    (same : componentID node idx customerSlug pipelineSlug = componentID node' idx' customerSlug' pipelineSlug') :
    (customerSlug = customerSlug' ∧ pipelineSlug = pipelineSlug') ∧
      node.type = node'.type ∧ nodeSuffix node idx = nodeSuffix node' idx' := by
  have texts := congrArg String.toList same
  rw [toList_componentID, toList_componentID] at texts
  obtain ⟨sameType, keys⟩ := append_cons_inj type type' texts
  obtain ⟨sameCustomer, rest⟩ := append_cons_inj customer customer' keys
  obtain ⟨samePipeline, suffixes⟩ := append_cons_inj pipeline pipeline' (List.cons.inj rest).2
  exact ⟨⟨String.toList_inj.mp sameCustomer, String.toList_inj.mp samePipeline⟩, String.toList_inj.mp sameType,
    String.toList_inj.mp (List.cons.inj suffixes).2⟩

end OtelFleet.Pipelines
