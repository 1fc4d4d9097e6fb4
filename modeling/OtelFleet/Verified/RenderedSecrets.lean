import OtelFleet.Verified.SecretTraversal

/-! # What a rendered graph shows of its secret fields

Two graphs that are the same apart from their secret fields, which are the same
or strings: once both are rendered to the same text, they are equal.
-/

namespace OtelFleet.Verified.RenderedSecrets

open Data Pipelines
open Verified.SecretTraversal

abbrev blank : String → Json → Json := fun _ _ => .null

variable {rel : Json → Json → Prop} {shown : Prop}

def Determined (rel : Json → Json → Prop) (shown : Prop) : Prop :=
  ∀ left right, rel left right → (shown → toNode left = toNode right) → left = right

abbrev FieldsRel (rel : Json → Json → Prop) : List (String × Json) → List (String × Json) → Prop :=
  List.Forall₂ fun left right => left.1 = right.1 ∧ rel left.2 right.2

theorem forall₂_of_append {α : Type} {rel : α → α → Prop} {first second first' second' : List α}
    (related : List.Forall₂ rel (first ++ second) (first' ++ second')) (lengths : first.length = first'.length) :
    List.Forall₂ rel first first' ∧ List.Forall₂ rel second second' := by
  have front := List.forall₂_take_append _ _ _ related
  have back := List.forall₂_drop_append _ _ _ related
  rw [← lengths, List.take_left] at front
  rw [← lengths, List.drop_left] at back
  exact ⟨front, back⟩

theorem length_secretFields_eq {schema : Option Schema} {path : String} {left right : Json}
    (rest : replaceSecrets blank schema path left = replaceSecrets blank schema path right) :
    (secretFields schema path left).length = (secretFields schema path right).length := by
  have fields := congrArg (fun value => (secretFields schema path value).length) rest
  simpa [(secretFields_replaceSecrets blank).1] using fields

-- The secret fields are where both values have them; everything else is equal
-- because it stays when they are blanked out.
theorem eq_of_rest (determined : Determined rel shown) :
    (∀ schema path left, ∀ right, replaceSecrets blank schema path left = replaceSecrets blank schema path right →
      FieldsRel rel (secretFields schema path left) (secretFields schema path right) →
      (shown → toNode left = toNode right) → left = right) ∧
    (∀ schema path i left, ∀ right, replaceItems blank schema path i left = replaceItems blank schema path i right →
      FieldsRel rel (secretItems schema path i left) (secretItems schema path i right) →
      (shown → toNodeItems left = toNodeItems right) → left = right) ∧
    ∀ schema path left, ∀ right, replaceMembers blank schema path left = replaceMembers blank schema path right →
      FieldsRel rel (secretMembers schema path left) (secretMembers schema path right) →
      (shown → toNodeFields left = toNodeFields right) → left = right := by
  apply secretFields.mutual_induct
  case case2 =>
    intro left path schema secret right _ fields same
    rw [secretFields_of_secret secret, secretFields_of_secret secret] at fields
    cases fields with
    | cons head _ => exact determined left right head.2 same
  case case3 =>
    intro path schema plain members ih right rest fields same
    cases right with
    | obj members' =>
      simp only [replaceSecrets, plain, if_false, Json.obj.injEq] at rest
      simp only [secretFields, plain] at fields
      have keys : members.map Prod.fst = members'.map Prod.fst := by
        have replaced := congrArg (fun members => (toNodeFields members).map Prod.fst) rest
        simpa [keys_toNodeFields_replaceMembers] using replaced
      refine congrArg Json.obj (ih members' rest fields fun isShown => ?_)
      -- the keys are in the same places, so sorting them hides nothing
      have sorted := same isShown
      simp only [toNode, YamlNode.map.injEq] at sorted
      refine eq_of_sortKeys_eq ?_ sorted
      simpa [toNodeFields_eq_map, Function.comp_def] using keys
    | arr items' => cases items : schema.items <;> simp [replaceSecrets, plain, items] at rest
    | _ => simp [replaceSecrets, plain] at rest
  case case5 =>
    intro path schema plain items itemSchema isItems ih right rest fields same
    cases right with
    | arr items' =>
      simp only [replaceSecrets, plain, if_false, isItems, Json.arr.injEq] at rest
      simp only [secretFields, plain, isItems] at fields
      exact congrArg Json.arr (ih items' rest fields fun isShown => by simpa [toNode] using same isShown)
    | _ => simp [replaceSecrets, plain, isItems] at rest
  case case8 =>
    intro schema path i value items first others right rest fields same
    cases right with
    | nil => simp [replaceItems] at rest
    | cons value' items' =>
      simp only [replaceItems, List.cons.injEq] at rest
      simp only [toNodeItems, List.cons.injEq] at same
      obtain ⟨here, later⟩ := forall₂_of_append fields (length_secretFields_eq rest.1)
      rw [first value' rest.1 here fun isShown => (same isShown).1, others items' rest.2 later fun isShown => (same isShown).2]
  case case10 =>
    intro schema path key value members first others right rest fields same
    cases right with
    | nil => simp [replaceMembers] at rest
    | cons mem' members' =>
      obtain ⟨key', value'⟩ := mem'
      simp only [replaceMembers, List.cons.injEq, Prod.mk.injEq] at rest
      obtain ⟨⟨rfl, restValue⟩, restMembers⟩ := rest
      simp only [toNodeFields, List.cons.injEq, Prod.mk.injEq, true_and] at same
      obtain ⟨here, later⟩ := forall₂_of_append fields (length_secretFields_eq restValue)
      rw [first value' restValue here fun isShown => (same isShown).1,
        others members' restMembers later fun isShown => (same isShown).2]
  case case6 =>
    intros
    rename_i right rest _ _
    cases right with
    | arr items' => cases items : ‹Schema›.items <;> simp_all [replaceSecrets]
    | _ => simp_all [replaceSecrets]
  all_goals
    intros
    rename_i right rest _ _
    cases right <;> simp_all [replaceSecrets, replaceItems, replaceMembers]

theorem node_eq_of_rest (determined : Determined rel shown) (kind : Kind) (path : String) {left right : Node}
    (rest : replaceNode blank kind path left = replaceNode blank kind path right)
    (fields : FieldsRel rel (nodeFields kind path left) (nodeFields kind path right))
    (same : shown → toNode left.configValue = toNode right.configValue) : left = right := by
  have types : left.type = right.type := by
    have replaced := congrArg Node.type rest
    rwa [replaceNode_type, replaceNode_type] at replaced
  cases found : Catalog.lookup kind left.type with
  | none => simpa [replaceNode, found, ← types] using rest
  | some component =>
    have found' : Catalog.lookup kind right.type = some component := types ▸ found
    obtain ⟨type, name, config⟩ := left
    obtain ⟨type', name', config'⟩ := right
    cases config with
    | none =>
      cases config' with
      | none => simpa [replaceNode] using rest
      | some config' => simp [replaceNode, found'] at rest
    | some config =>
      cases config' with
      | none => simp [replaceNode, found] at rest
      | some config' =>
        dsimp only at found found' types
        simp only [replaceNode, found, found', Node.mk.injEq] at rest
        simp only [nodeFields, found, found'] at fields
        have plain := lookup_format found
        have members : Json.obj config = Json.obj config' := by
          refine (eq_of_rest determined).1 (some component.schema) path _ _ ?_ fields same
          simpa [replaceSecrets, plain] using rest.2.2
        cases members
        rw [types, rest.2.1]

variable {kind : Kind}

theorem length_nodeFields_eq {path : String} {left right : Node}
    (rest : replaceNode blank kind path left = replaceNode blank kind path right) :
    (nodeFields kind path left).length = (nodeFields kind path right).length := by
  have fields := congrArg (fun node => (nodeFields kind path node).length) rest
  simpa [nodeFields_replaceNode] using fields

theorem length_replaceNodes (f : String → Json → Json) (kind : Kind) (name : String) (i : Nat) (nodes : List Node) :
    (replaceNodes f kind name i nodes).length = nodes.length := by
  induction nodes generalizing i with
  | nil => rfl
  | cons node nodes ih => simp [replaceNodes, ih]

variable {left right : List Node}

theorem length_of_rest {name : String} {i : Nat}
    (rest : replaceNodes blank kind name i left = replaceNodes blank kind name i right) : left.length = right.length := by
  rw [← length_replaceNodes blank kind name i left, rest, length_replaceNodes]

theorem nodes_eq_of_rest (determined : Determined rel shown) (kind : Kind) (name : String) (i : Nat)
    (rest : replaceNodes blank kind name i left = replaceNodes blank kind name i right)
    (fields : FieldsRel rel (nodesFields kind name i left) (nodesFields kind name i right))
    (same : shown → (left.map fun node => toNode node.configValue) = right.map fun node => toNode node.configValue) :
    left = right := by
  induction left generalizing i right with
  | nil =>
    cases right with
    | nil => rfl
    | cons node nodes => simp [replaceNodes] at rest
  | cons node nodes ih =>
    cases right with
    | nil => simp [replaceNodes] at rest
    | cons node' nodes' =>
      simp only [replaceNodes, List.cons.injEq] at rest
      obtain ⟨restNode, restNodes⟩ := rest
      obtain ⟨first, others⟩ := forall₂_of_append fields (length_nodeFields_eq restNode)
      simp only [List.map_cons, List.cons.injEq] at same
      rw [node_eq_of_rest determined kind _ restNode first fun isShown => (same isShown).1,
        ih (i + 1) restNodes others fun isShown => (same isShown).2]

theorem length_nodesFields_eq {name : String} {i : Nat}
    (rest : replaceNodes blank kind name i left = replaceNodes blank kind name i right) :
    (nodesFields kind name i left).length = (nodesFields kind name i right).length := by
  have fields := congrArg (fun nodes => (nodesFields kind name i nodes).length) rest
  simpa [nodesFields_replaceNodes] using fields

theorem graph_eq_of_rest (determined : Determined rel shown) {left right : Graph}
    (rest : replaceGraph blank left = replaceGraph blank right)
    (fields : FieldsRel rel (graphFields left) (graphFields right))
    (processors : shown → (left.processors.map fun node => toNode node.configValue) =
      right.processors.map fun node => toNode node.configValue)
    (exporters : shown → (left.exporters.map fun node => toNode node.configValue) =
      right.exporters.map fun node => toNode node.configValue) : left = right := by
  obtain ⟨signals, leftProcessors, leftExporters⟩ := left
  simp only [replaceGraph, Pipelines.Graph.mk.injEq] at rest
  obtain ⟨rfl, restProcessors, restExporters⟩ := rest
  obtain ⟨first, second⟩ := forall₂_of_append fields (length_nodesFields_eq restProcessors)
  rw [nodes_eq_of_rest determined .processor "processors" 0 restProcessors first processors,
    nodes_eq_of_rest determined .exporter "exporters" 0 restExporters second exporters]

end OtelFleet.Verified.RenderedSecrets
