import Mathlib.Data.List.InsertIdx
import OtelFleet.Pipelines.Graph

/-! # Edits of the pipeline builder

The builder's transforms of a section of the graph.  They never look into a
node, so they are the same for nodes that carry something along.
-/

namespace OtelFleet.Web

open Pipelines

section

variable {α : Type*} (nodes : List α)

def addNode (node : α) : List α := nodes ++ [node]

def removeNode (index : Nat) : List α := nodes.eraseIdx index

inductive Direction where
  | up
  | down
deriving DecidableEq

/-- The index a move leads to, which a move up from the first place does not have. -/
def Direction.target (direction : Direction) (index : Nat) : Option Nat :=
  match direction with
  | .up => if index = 0 then none else some (index - 1)
  | .down => some (index + 1)

/-- `moveNode`; out-of-range moves are no-ops. -/
def moveNode (index : Nat) (direction : Direction) : List α :=
  match direction.target index, nodes[index]? with
  | some target, some node => if target < nodes.length then (nodes.eraseIdx index).insertIdx target node else nodes
  | _, _ => nodes

/-- `reorderNodes`; non-permutations are no-ops. -/
def reorderNodes (order : List Nat) : List α :=
  if order.length ≠ nodes.length then nodes
  else if order.insertionSort (· ≤ ·) ≠ List.range order.length then nodes
  else order.filterMap fun i => nodes[i]?

end

inductive Edit where
  | add (node : Node)
  | remove (index : Nat)
  | move (index : Nat) (direction : Direction)
  | reorder (order : List Nat)

def Edit.apply {α : Type*} (new : Node → α) (nodes : List α) : Edit → List α
  | .add node => addNode nodes (new node)
  | .remove index => removeNode nodes index
  | .move index direction => moveNode nodes index direction
  | .reorder order => reorderNodes nodes order

inductive NodeSection where
  | processors
  | exporters
deriving DecidableEq

structure Draft (α : Type*) where
  processors : List α
  exporters : List α

namespace Draft

variable {α β : Type*}

def edit (new : Node → α) (draft : Draft α) : NodeSection × Edit → Draft α
  | (.processors, edit) => { draft with processors := edit.apply new draft.processors }
  | (.exporters, edit) => { draft with exporters := edit.apply new draft.exporters }

def editAll (new : Node → α) (draft : Draft α) (edits : List (NodeSection × Edit)) : Draft α :=
  edits.foldl (edit new) draft

def map (f : α → β) (draft : Draft α) : Draft β :=
  ⟨draft.processors.map f, draft.exporters.map f⟩

end Draft

def editGraph (graph : Graph) (edits : List (NodeSection × Edit)) : Graph :=
  let draft := (⟨graph.processors, graph.exporters⟩ : Draft Node).editAll id edits
  { graph with processors := draft.processors, exporters := draft.exporters }

section

variable {α β : Type*} (f : α → β)

theorem map_moveNode (nodes : List α) (index : Nat) (direction : Direction) :
    (moveNode nodes index direction).map f = moveNode (nodes.map f) index direction := by
  unfold moveNode
  cases direction.target index with
  | none => rfl
  | some target =>
    cases found : nodes[index]? with
    | none => simp [found]
    | some node =>
      simp only [List.getElem?_map, found, Option.map_some, List.length_map]
      split
      · rw [List.map_insertIdx, List.eraseIdx_map]
      · rfl

theorem map_reorderNodes (nodes : List α) (order : List Nat) :
    (reorderNodes nodes order).map f = reorderNodes (nodes.map f) order := by
  unfold reorderNodes
  rw [List.length_map]
  split
  · rfl
  · split
    · rfl
    · simp [List.map_filterMap]

theorem map_apply (new : Node → α) (nodes : List α) (edit : Edit) :
    (edit.apply new nodes).map f = edit.apply (f ∘ new) (nodes.map f) := by
  cases edit with
  | add node => simp [Edit.apply, addNode]
  | remove index => exact (List.eraseIdx_map f nodes index).symm
  | move index direction => exact map_moveNode f nodes index direction
  | reorder order => exact map_reorderNodes f nodes order

theorem map_editAll (new : Node → α) (draft : Draft α) (edits : List (NodeSection × Edit)) :
    (draft.editAll new edits).map f = (draft.map f).editAll (f ∘ new) edits := by
  induction edits generalizing draft with
  | nil => rfl
  | cons edit edits ih =>
    obtain ⟨place, edit⟩ := edit
    have step : (draft.edit new (place, edit)).map f = (draft.map f).edit (f ∘ new) (place, edit) := by
      cases place <;> simp [Draft.edit, Draft.map, map_apply]
    exact (ih _).trans (by rw [step]; rfl)

end

variable {α : Type*} {new : Node → α} {inv : α → Prop} (newHolds : ∀ node, inv (new node))

include newHolds

theorem forall_apply {nodes : List α} (holds : ∀ node ∈ nodes, inv node) (edit : Edit) :
    ∀ node ∈ edit.apply new nodes, inv node := by
  intro node mem
  cases edit with
  | add added =>
    rcases List.mem_append.mp mem with old | isNew
    · exact holds node old
    · rw [List.mem_singleton.mp isNew]
      exact newHolds added
  | remove index => exact holds node (List.mem_of_mem_eraseIdx mem)
  | move index direction =>
    simp only [Edit.apply, moveNode] at mem
    split at mem
    · next target moved _ place =>
      split at mem
      · rcases List.eq_or_mem_of_mem_insertIdx mem with rfl | other
        · exact holds node (List.mem_of_getElem? place)
        · exact holds node (List.mem_of_mem_eraseIdx other)
      · exact holds node mem
    · exact holds node mem
  | reorder order =>
    simp only [Edit.apply, reorderNodes] at mem
    split at mem
    · exact holds node mem
    · split at mem
      · exact holds node mem
      · obtain ⟨i, _, place⟩ := List.mem_filterMap.mp mem
        exact holds node (List.mem_of_getElem? place)

end OtelFleet.Web
