import OtelFleet.Data.Json
import OtelFleet.Data.Decimal

/-! # YAML node trees

The renderer builds `yaml.Node` trees and hands them to the encoder.  A rendered
text is represented by the tree it is the encoding of: mapping keys are untagged
scalars in insertion order, and a leaf is the scalar node that `Node.Encode`
makes of a Go value.
-/

namespace OtelFleet.Pipelines

open Data

/-- The Go value a scalar node was encoded from. -/
inductive Scalar where
  | null
  | bool (value : Bool)
  | int (value : Int)
  | float (value : ℚ)
  | negZero
  | str (value : String)
deriving DecidableEq

inductive YamlNode where
  | scalar (value : Scalar)
  | seq (flow : Bool) (items : List YamlNode)
  | map (content : List (String × YamlNode))

namespace YamlNode

def str (value : String) : YamlNode := .scalar (.str value)

/-- `toNode` on a `[]string`: a flow sequence of strings. -/
def strings (values : List String) : YamlNode := .seq true (values.map str)

end YamlNode

def sortKeys {α : Type*} (fields : List (String × α)) : List (String × α) :=
  fields.insertionSort fun a b => a.1 ≤ b.1

theorem sortKeys_map {α β : Type*} (f : α → β) (fields : List (String × α)) :
    sortKeys (fields.map fun field => (field.1, f field.2)) =
      (sortKeys fields).map fun field => (field.1, f field.2) :=
  (List.map_insertionSort _ _ (fun field : String × α => (field.1, f field.2)) fields fun _ _ _ _ => Iff.rfl).symm

/-- With the keys in the same places, sorting loses nothing. -/
theorem eq_of_sortKeys_eq {α : Type*} {left right : List (String × α)}
    (keys : left.map Prod.fst = right.map Prod.fst) (sorted : sortKeys left = sortKeys right) :
    left = right := by
  -- both lists are images of one list of keys with the two values
  have paired : ∃ both : List (String × α × α),
      left = both.map (fun entry => (entry.1, entry.2.1)) ∧ right = both.map fun entry => (entry.1, entry.2.2) := by
    clear sorted
    induction left generalizing right with
    | nil => exact ⟨[], rfl, List.map_eq_nil_iff.mp keys.symm⟩
    | cons head left ih =>
      cases right with
      | nil => cases keys
      | cons other right =>
        obtain ⟨sameKey, sameKeys⟩ := List.cons.inj keys
        obtain ⟨both, isLeft, isRight⟩ := ih sameKeys
        exact ⟨(head.1, head.2, other.2) :: both, by rw [isLeft]; rfl, by rw [isRight, sameKey]; rfl⟩
  obtain ⟨both, rfl, rfl⟩ := paired
  rw [sortKeys_map, sortKeys_map] at sorted
  refine List.map_congr_left fun entry mem => ?_
  exact List.map_inj_left.mp sorted entry ((List.perm_insertionSort _ both).mem_iff.mpr mem)

/-- The scalar a number encodes to; a `json.Number` is tried as an integer, then
    as a float, and kept as text when it is neither. -/
def numberScalar : Number → Scalar
  | .int value => .int value
  | .float64 value => .float value
  | .negZero => .negZero
  | .literal text =>
    match parseInt64 text with
    | some value => .int value
    | none =>
      match parseFloat64 text with
      | some value => if isNegZero text value then .negZero else .float value
      | none => .str text

mutual
def toNode : Json → YamlNode
  | .null => .scalar .null
  | .bool value => .scalar (.bool value)
  | .num value => .scalar (numberScalar value)
  | .str value => .scalar (.str value)
  | .arr items => .seq false (toNodeItems items)
  | .obj fields => .map (sortKeys (toNodeFields fields))

def toNodeItems : List Json → List YamlNode
  | [] => []
  | item :: items => toNode item :: toNodeItems items

def toNodeFields : List (String × Json) → List (String × YamlNode)
  | [] => []
  | (key, value) :: fields => (key, toNode value) :: toNodeFields fields
end

theorem toNodeFields_eq_map (fields : List (String × Json)) :
    toNodeFields fields = fields.map fun field => (field.1, toNode field.2) := by
  induction fields with
  | nil => rfl
  | cons field fields ih => simp [toNodeFields, ih]

end OtelFleet.Pipelines
