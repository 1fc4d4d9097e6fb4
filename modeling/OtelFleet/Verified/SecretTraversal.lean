import OtelFleet.Pipelines.Secrets

/-! # Visiting secret fields

`transformSecrets` recurses over a config along its schema.  Here a visit is
taken apart into the list of the fields it comes to and the config with those
fields replaced, neither of which can fail: a transform is a replacement, unless
its function fails on one of the fields.
-/

namespace OtelFleet.Verified.SecretTraversal

open Data Pipelines

/-! ## The fields and their replacement -/

mutual
/-- The secret fields of a value with their paths, in the order of the visit. -/
def secretFields (schema : Option Schema) (path : String) (value : Json) : List (String × Json) :=
  match schema with
  | none => []
  | some schema =>
    if schema.format = some "password" then [(path, value)]
    else
      match value with
      | .obj fields => secretMembers schema path fields
      | .arr items =>
        match schema.items with
        | none => []
        | some itemSchema => secretItems itemSchema path 0 items
      | _value => []

def secretMembers (schema : Schema) (path : String) : List (String × Json) → List (String × Json)
  | [] => []
  | (key, value) :: fields =>
    secretFields (schema.member key) (path ++ "." ++ key) value ++ secretMembers schema path fields

def secretItems (schema : Schema) (path : String) (i : Nat) : List Json → List (String × Json)
  | [] => []
  | value :: items =>
    secretFields (some schema) (path ++ "[" ++ toString i ++ "]") value ++
      secretItems schema path (i + 1) items
end

section

variable (f : String → Json → Json)

mutual
def replaceSecrets (schema : Option Schema) (path : String) (value : Json) : Json :=
  match schema with
  | none => value
  | some schema =>
    if schema.format = some "password" then f path value
    else
      match value with
      | .obj fields => .obj (replaceMembers schema path fields)
      | .arr items =>
        match schema.items with
        | none => .arr items
        | some itemSchema => .arr (replaceItems itemSchema path 0 items)
      | value => value

def replaceMembers (schema : Schema) (path : String) : List (String × Json) → List (String × Json)
  | [] => []
  | (key, value) :: fields =>
    (key, replaceSecrets (schema.member key) (path ++ "." ++ key) value) :: replaceMembers schema path fields

def replaceItems (schema : Schema) (path : String) (i : Nat) : List Json → List Json
  | [] => []
  | value :: items =>
    replaceSecrets (some schema) (path ++ "[" ++ toString i ++ "]") value ::
      replaceItems schema path (i + 1) items
end

end

def nodePath (name : String) (i : Nat) : String := name ++ "[" ++ toString i ++ "].config"

def nodeFields (kind : Kind) (path : String) (node : Node) : List (String × Json) :=
  match Catalog.lookup kind node.type, node.config with
  | some component, some config => secretFields (some component.schema) path (.obj config)
  | _, _ => []

def nodesFields (kind : Kind) (name : String) (i : Nat) : List Node → List (String × Json)
  | [] => []
  | node :: nodes => nodeFields kind (nodePath name i) node ++ nodesFields kind name (i + 1) nodes

def graphFields (graph : Graph) : List (String × Json) :=
  nodesFields .processor "processors" 0 graph.processors ++ nodesFields .exporter "exporters" 0 graph.exporters

section

variable (f : String → Json → Json)

def replaceNode (kind : Kind) (path : String) (node : Node) : Node :=
  match Catalog.lookup kind node.type, node.config with
  | some component, some config =>
    { node with config := some (replaceSecrets f (some component.schema) path (.obj config)).fields }
  | _, _ => node

def replaceNodes (kind : Kind) (name : String) (i : Nat) : List Node → List Node
  | [] => []
  | node :: nodes => replaceNode f kind (nodePath name i) node :: replaceNodes kind name (i + 1) nodes

def replaceGraph (graph : Graph) : Graph :=
  { graph with
    processors := replaceNodes f .processor "processors" 0 graph.processors
    exporters := replaceNodes f .exporter "exporters" 0 graph.exporters }

end

/-! ## Replacements

What a replacement does to the fields, to a second replacement and to a config
with other numbers, each by the recursion over values, members and items. -/

section

variable (f g : String → Json → Json)

@[simp] theorem secretFields_none (path : String) (value : Json) : secretFields none path value = [] := by
  unfold secretFields
  rfl

@[simp] theorem replaceSecrets_none (path : String) (value : Json) : replaceSecrets f none path value = value := by
  unfold replaceSecrets
  rfl

variable {schema : Schema}

theorem secretFields_of_secret (secret : schema.format = some "password") (path : String) (value : Json) :
    secretFields (some schema) path value = [(path, value)] := by
  unfold secretFields
  exact if_pos secret

theorem replaceSecrets_of_secret (secret : schema.format = some "password") (path : String) (value : Json) :
    replaceSecrets f (some schema) path value = f path value := by
  unfold replaceSecrets
  exact if_pos secret

theorem secretFields_replaceSecrets : (∀ schema path value, secretFields schema path (replaceSecrets f schema path value) =
      (secretFields schema path value).map fun field => (field.1, f field.1 field.2)) ∧
    (∀ schema path i items, secretItems schema path i (replaceItems f schema path i items) =
      (secretItems schema path i items).map fun field => (field.1, f field.1 field.2)) ∧
    ∀ schema path fields, secretMembers schema path (replaceMembers f schema path fields) =
      (secretMembers schema path fields).map fun field => (field.1, f field.1 field.2) := by
  apply secretFields.mutual_induct <;> intros <;>
    simp_all [secretFields_of_secret, secretFields, replaceSecrets_of_secret, replaceSecrets, secretMembers, replaceMembers, secretItems, replaceItems]

theorem replaceSecrets_replaceSecrets : (∀ schema path value, replaceSecrets g schema path (replaceSecrets f schema path value) =
      replaceSecrets (fun path value => g path (f path value)) schema path value) ∧
    (∀ schema path i items, replaceItems g schema path i (replaceItems f schema path i items) =
      replaceItems (fun path value => g path (f path value)) schema path i items) ∧
    ∀ schema path fields, replaceMembers g schema path (replaceMembers f schema path fields) =
      replaceMembers (fun path value => g path (f path value)) schema path fields := by
  apply secretFields.mutual_induct <;> simp_all [replaceSecrets_of_secret, replaceSecrets, replaceMembers, replaceItems]

variable {f g}

theorem replaceSecrets_congr :
    (∀ schema path value, (∀ field ∈ secretFields schema path value, f field.1 field.2 = g field.1 field.2) →
      replaceSecrets f schema path value = replaceSecrets g schema path value) ∧
    (∀ schema path i items, (∀ field ∈ secretItems schema path i items, f field.1 field.2 = g field.1 field.2) →
      replaceItems f schema path i items = replaceItems g schema path i items) ∧
    ∀ schema path fields, (∀ field ∈ secretMembers schema path fields, f field.1 field.2 = g field.1 field.2) →
      replaceMembers f schema path fields = replaceMembers g schema path fields := by
  apply secretFields.mutual_induct <;> intros <;>
    simp_all [secretFields_of_secret, secretFields, replaceSecrets_of_secret, replaceSecrets, secretMembers, replaceMembers, secretItems, replaceItems]

theorem secretFields_base (base : String) : (∀ schema path value, secretFields schema (base ++ path) value =
      (secretFields schema path value).map fun field => (base ++ field.1, field.2)) ∧
    (∀ schema path i items, secretItems schema (base ++ path) i items =
      (secretItems schema path i items).map fun field => (base ++ field.1, field.2)) ∧
    ∀ schema path fields, secretMembers schema (base ++ path) fields =
      (secretMembers schema path fields).map fun field => (base ++ field.1, field.2) := by
  apply secretFields.mutual_induct <;> intros <;>
    simp_all [secretFields_of_secret, secretFields, secretMembers, secretItems, String.append_assoc]

/-! ### Numbers -/

theorem isLeaf_normalizeNumber (number : Number) : (normalizeNumber number).IsLeaf := by
  unfold normalizeNumber
  split
  · split
    · rfl
    · split <;> rfl
  · rfl

section

variable {h : Number → Json} (leaves : ∀ number, (h number).IsLeaf)

include leaves

theorem below_number {value : Json} (plain : schema.format ≠ some "password") (notObj : ∀ fields, value = .obj fields → False)
    (notArr : ∀ items, value = .arr items → False) (path : String) :
    secretFields (some schema) path (Json.mapNumbers h value) = [] ∧
      ∀ f, replaceSecrets f (some schema) path (Json.mapNumbers h value) = Json.mapNumbers h value := by
  have leaf : (Json.mapNumbers h value).IsLeaf := by cases value <;> simp_all [Json.mapNumbers, Json.IsLeaf]
  generalize Json.mapNumbers h value = image at leaf
  cases image <;> simp_all [Json.IsLeaf, secretFields, replaceSecrets]

/-- A replacement that goes along with the number map at the secret fields goes
    along with it everywhere; the leaves the map makes have no fields below them. -/
theorem mapNumbers_replaceSecrets (commutes : ∀ path value, g path (Json.mapNumbers h value) = Json.mapNumbers h (f path value)) :
    (∀ schema path value, Json.mapNumbers h (replaceSecrets f schema path value) =
      replaceSecrets g schema path (Json.mapNumbers h value)) ∧
    (∀ schema path i items, Json.mapNumbersItems h (replaceItems f schema path i items) =
      replaceItems g schema path i (Json.mapNumbersItems h items)) ∧
    ∀ schema path fields, Json.mapNumbersFields h (replaceMembers f schema path fields) =
      replaceMembers g schema path (Json.mapNumbersFields h fields) := by
  apply secretFields.mutual_induct <;> intros <;>
    simp_all [below_number, replaceSecrets_of_secret, replaceSecrets, replaceMembers, replaceItems, Json.mapNumbers, Json.mapNumbersItems, Json.mapNumbersFields]

theorem secretFields_mapNumbers : (∀ schema path value, secretFields schema path (Json.mapNumbers h value) =
      (secretFields schema path value).map fun field => (field.1, Json.mapNumbers h field.2)) ∧
    (∀ schema path i items, secretItems schema path i (Json.mapNumbersItems h items) =
      (secretItems schema path i items).map fun field => (field.1, Json.mapNumbers h field.2)) ∧
    ∀ schema path fields, secretMembers schema path (Json.mapNumbersFields h fields) =
      (secretMembers schema path fields).map fun field => (field.1, Json.mapNumbers h field.2) := by
  apply secretFields.mutual_induct <;> intros <;>
    simp_all [below_number, secretFields_of_secret, secretFields, secretMembers, secretItems, Json.mapNumbers, Json.mapNumbersItems, Json.mapNumbersFields]

end

/-! ### Rendered strings -/

section

variable {kept other : String → String}

theorem keys_toNodeFields_replaceMembers (f : String → Json → Json) (schema : Schema) (path : String)
    (fields : List (String × Json)) :
    (toNodeFields (replaceMembers f schema path fields)).map Prod.fst = fields.map Prod.fst := by
  induction fields with
  | nil => rfl
  | cons field fields ih => simp [replaceMembers, toNodeFields, ih]

theorem kept_of_toNode_replaceSecrets :
    (∀ schema path value, toNode (replaceSecrets (fun path _ => .str (kept path)) schema path value) =
        toNode (replaceSecrets (fun path _ => .str (other path)) schema path value) →
      ∀ field ∈ secretFields schema path value, kept field.1 = other field.1) ∧
    (∀ schema path i items, toNodeItems (replaceItems (fun path _ => .str (kept path)) schema path i items) =
        toNodeItems (replaceItems (fun path _ => .str (other path)) schema path i items) →
      ∀ field ∈ secretItems schema path i items, kept field.1 = other field.1) ∧
    ∀ schema path fields, toNodeFields (replaceMembers (fun path _ => .str (kept path)) schema path fields) =
        toNodeFields (replaceMembers (fun path _ => .str (other path)) schema path fields) →
      ∀ field ∈ secretMembers schema path fields, kept field.1 = other field.1 := by
  apply secretFields.mutual_induct
  case case3 =>
    intro path schema plain fields ih same
    simp only [replaceSecrets, plain, if_false, toNode, YamlNode.map.injEq] at same
    simp only [secretFields, plain]
    exact ih (eq_of_sortKeys_eq (by rw [keys_toNodeFields_replaceMembers, keys_toNodeFields_replaceMembers]) same)
  case case8 =>
    intro schema path i value items first rest same
    simp only [replaceItems, toNodeItems, List.cons.injEq] at same
    exact List.forall_mem_append.mpr ⟨first same.1, rest same.2⟩
  case case10 =>
    intro schema path key value fields first rest same
    simp only [replaceMembers, toNodeFields, List.cons.injEq, Prod.mk.injEq, true_and] at same
    exact List.forall_mem_append.mpr ⟨first same.1, rest same.2⟩
  all_goals
    simp_all [secretFields_of_secret, secretFields, replaceSecrets_of_secret, replaceSecrets, secretMembers, secretItems, toNode]

end

/-! ### Nodes and graphs -/

theorem lookup_format {kind : Kind} {type : String} {component : Component}
    (found : Catalog.lookup kind type = some component) : component.schema.format ≠ some "password" := by
  have all : ∀ component ∈ Catalog.all, component.schema.format ≠ some "password" := by decide
  exact all component (Catalog.lookup_type found).1

def nodeSchema (kind : Kind) (node : Node) : Option Schema := (Catalog.lookup kind node.type).map Component.schema

variable (kind : Kind) (path : String) (node : Node)

theorem nodeFields_eq : nodeFields kind path node = secretFields (nodeSchema kind node) path node.configValue := by
  unfold nodeFields Node.configValue nodeSchema
  cases found : Catalog.lookup kind node.type with
  | none => simp
  | some component =>
    cases node.config with
    | none => simp [secretFields, lookup_format found, secretMembers]
    | some config => rfl

variable (f g)

theorem replaceNode_eq : replaceNode f kind path node = { node with config := node.config.map fun config =>
    (replaceSecrets f (nodeSchema kind node) path (.obj config)).fields } := by
  unfold replaceNode nodeSchema
  obtain ⟨type, name, config⟩ := node
  cases Catalog.lookup kind type <;> cases config <;> simp

@[simp] theorem replaceNode_type : (replaceNode f kind path node).type = node.type := by
  rw [replaceNode_eq]

@[simp] theorem replaceNode_name : (replaceNode f kind path node).name = node.name := by
  rw [replaceNode_eq]

@[simp] theorem nodeSchema_replaceNode : nodeSchema kind (replaceNode f kind path node) = nodeSchema kind node := by
  rw [nodeSchema, replaceNode_type, nodeSchema]

theorem replaceSecrets_config (fields : List (String × Json)) : ∃ replaced,
    replaceSecrets f (nodeSchema kind node) path (.obj fields) = .obj replaced ∧ (fields = [] → replaced = []) := by
  unfold nodeSchema
  cases found : Catalog.lookup kind node.type with
  | none => exact ⟨fields, replaceSecrets_none f path _, id⟩
  | some component =>
    refine ⟨replaceMembers f component.schema path fields, by simp [replaceSecrets, lookup_format found], ?_⟩
    rintro rfl
    rfl

theorem configValue_replaceNode : (replaceNode f kind path node).configValue =
    replaceSecrets f (nodeSchema kind node) path node.configValue := by
  rw [replaceNode_eq, Node.configValue, Node.configValue]
  cases node.config with
  | none =>
    obtain ⟨replaced, isReplaced, nil⟩ := replaceSecrets_config f kind path node []
    simp [isReplaced, nil]
  | some config =>
    obtain ⟨replaced, isReplaced, _⟩ := replaceSecrets_config f kind path node config
    simp [isReplaced]

theorem nodeFields_replaceNode : nodeFields kind path (replaceNode f kind path node) =
    (nodeFields kind path node).map fun field => (field.1, f field.1 field.2) := by
  rw [nodeFields_eq, nodeFields_eq, nodeSchema_replaceNode, configValue_replaceNode, (secretFields_replaceSecrets f).1]

omit f in
theorem nodeFields_base (base : String) :
    nodeFields kind base node = (nodeFields kind "" node).map fun field => (base ++ field.1, field.2) := by
  rw [nodeFields_eq, nodeFields_eq, ← (secretFields_base base).1, String.append_empty]

theorem nodeFields_replaceNode_base (base : String) : nodeFields kind "" (replaceNode f kind base node) =
    (nodeFields kind "" node).map fun field => (field.1, f (base ++ field.1) field.2) := by
  have injective : Function.Injective fun field : String × Json => (base ++ field.1, field.2) := by
    rintro ⟨path, value⟩ ⟨path', value'⟩ same
    simpa using same
  apply List.map_injective_iff.mpr injective
  rw [← nodeFields_base, nodeFields_replaceNode, nodeFields_base, List.map_map, List.map_map]
  rfl

theorem nodeFields_storeNode (format : ℚ → String) : nodeFields kind path (storeNode format node) =
    (nodeFields kind path node).map fun field => (field.1, Json.mapNumbers (storeNumber format) field.2) := by
  have leaves number : (storeNumber format number).IsLeaf := by cases number <;> rfl
  have stored : (storeNode format node).configValue = Json.mapNumbers (storeNumber format) node.configValue := by
    unfold storeNode Node.configValue
    cases node.config <;> rfl
  rw [nodeFields_eq, nodeFields_eq, stored, ← (secretFields_mapNumbers leaves).1]
  rfl

theorem replaceNode_replaceNode : replaceNode g kind path (replaceNode f kind path node) =
    replaceNode (fun path value => g path (f path value)) kind path node := by
  have composed config := (replaceSecrets_replaceSecrets f g).1 (nodeSchema kind node) path (.obj config)
  rw [replaceNode_eq g, nodeSchema_replaceNode, replaceNode_eq, replaceNode_eq]
  simp only [Option.map_map, ← composed]
  congr 2
  funext config
  obtain ⟨replaced, isReplaced, _⟩ := replaceSecrets_config f kind path node config
  simp [isReplaced]

variable {f g}

theorem replaceNode_congr (same : ∀ field ∈ nodeFields kind path node, f field.1 field.2 = g field.1 field.2) :
    replaceNode f kind path node = replaceNode g kind path node := by
  rw [replaceNode_eq, replaceNode_eq]
  rw [nodeFields_eq, Node.configValue] at same
  cases isConfig : node.config with
  | none => rfl
  | some config =>
    rw [isConfig, Option.getD_some] at same
    rw [Option.map_some, Option.map_some, replaceSecrets_congr.1 _ _ _ same]

section

variable {format : ℚ → String} (commutes : ∀ path value,
  g path (Json.mapNumbers (storeNumber format) value) = Json.mapNumbers (storeNumber format) (f path value))

include commutes

theorem storeNode_replaceNode : storeNode format (replaceNode f kind path node) = replaceNode g kind path (storeNode format node) := by
  have leaves number : (storeNumber format number).IsLeaf := by cases number <;> rfl
  rw [replaceNode_eq, replaceNode_eq]
  cases isConfig : node.config with
  | none => simp [storeNode, isConfig]
  | some config =>
    have along := (mapNumbers_replaceSecrets leaves commutes).1 (nodeSchema kind node) path (.obj config)
    obtain ⟨replaced, isReplaced, _⟩ := replaceSecrets_config f kind path node config
    rw [isReplaced, Json.mapNumbers] at along
    simp only [storeNode, isConfig, Option.map_some, isReplaced, Json.fields_obj]
    rw [← Json.fields_obj (Json.mapNumbersFields _ replaced), along]
    rfl

theorem storeNodes_replaceNodes (name : String) (i : Nat) (nodes : List Node) :
    (replaceNodes f kind name i nodes).map (storeNode format) = replaceNodes g kind name i (nodes.map (storeNode format)) := by
  induction nodes generalizing i with
  | nil => rfl
  | cons node nodes ih => simp only [replaceNodes, List.map_cons, storeNode_replaceNode kind _ node commutes, ih]

theorem storeGraph_replaceGraph (graph : Graph) :
    storeGraph format (replaceGraph f graph) = replaceGraph g (storeGraph format graph) := by
  simp only [storeGraph, replaceGraph, storeNodes_replaceNodes _ commutes]

end

section

variable (name : String) (i : Nat) (nodes : List Node)

theorem replaceNodes_congr (same : ∀ field ∈ nodesFields kind name i nodes, f field.1 field.2 = g field.1 field.2) :
    replaceNodes f kind name i nodes = replaceNodes g kind name i nodes := by
  induction nodes generalizing i with
  | nil => rfl
  | cons node nodes ih =>
    obtain ⟨head, tail⟩ := List.forall_mem_append.mp same
    simp only [replaceNodes, replaceNode_congr kind _ node head, ih (i + 1) tail]

variable (f g) (format : ℚ → String)

theorem nodesFields_replaceNodes : nodesFields kind name i (replaceNodes f kind name i nodes) =
    (nodesFields kind name i nodes).map fun field => (field.1, f field.1 field.2) := by
  induction nodes generalizing i with
  | nil => rfl
  | cons node nodes ih => simp only [nodesFields, replaceNodes, nodeFields_replaceNode, ih, List.map_append]

theorem replaceNodes_replaceNodes : replaceNodes g kind name i (replaceNodes f kind name i nodes) =
    replaceNodes (fun path value => g path (f path value)) kind name i nodes := by
  induction nodes generalizing i with
  | nil => rfl
  | cons node nodes ih => simp only [replaceNodes, replaceNode_replaceNode, ih]

theorem nodesFields_storeNodes : nodesFields kind name i (nodes.map (storeNode format)) =
    (nodesFields kind name i nodes).map fun field => (field.1, Json.mapNumbers (storeNumber format) field.2) := by
  induction nodes generalizing i with
  | nil => rfl
  | cons node nodes ih => simp only [nodesFields, List.map_cons, nodeFields_storeNode, ih, List.map_append]

variable (graph : Graph)

theorem graphFields_replaceGraph :
    graphFields (replaceGraph f graph) = (graphFields graph).map fun field => (field.1, f field.1 field.2) := by
  simp only [graphFields, replaceGraph, nodesFields_replaceNodes, List.map_append]

theorem graphFields_storeGraph : graphFields (storeGraph format graph) =
    (graphFields graph).map fun field => (field.1, Json.mapNumbers (storeNumber format) field.2) := by
  simp only [graphFields, storeGraph, nodesFields_storeNodes, List.map_append]

theorem replaceGraph_replaceGraph :
    replaceGraph g (replaceGraph f graph) = replaceGraph (fun path value => g path (f path value)) graph := by
  simp only [replaceGraph, replaceNodes_replaceNodes]

end

theorem replaceGraph_congr {graph : Graph}
    (same : ∀ field ∈ graphFields graph, f field.1 field.2 = g field.1 field.2) :
    replaceGraph f graph = replaceGraph g graph := by
  obtain ⟨processors, exporters⟩ := List.forall_mem_append.mp same
  simp only [replaceGraph, replaceNodes_congr _ _ _ _ processors, replaceNodes_congr _ _ _ _ exporters]

end

/-! ## A transform is a replacement -/

variable {ι : Type} (fn : String → Json → Except String (Json × List ι))

def fieldError (field : String × Json) : Option String :=
  match fn field.1 field.2 with
  | .error msg => some msg
  | .ok _ => none

def fieldValue (path : String) (value : Json) : Json :=
  match fn path value with
  | .error _ => value
  | .ok (value, _) => value

def fieldLog (field : String × Json) : List ι :=
  match fn field.1 field.2 with
  | .error _ => []
  | .ok (_, log) => log

def visit {α : Type} (fields : List (String × Json)) (res : α) : Except String (α × List ι) :=
  match fields.findSome? (fieldError fn) with
  | some msg => .error msg
  | none => .ok (res, fields.flatMap (fieldLog fn))

theorem visit_nil {α : Type} (res : α) : visit fn [] res = .ok (res, []) := rfl

theorem visit_singleton (path : String) (value : Json) :
    visit fn [(path, value)] (fieldValue fn path value) = fn path value := by
  cases outcome : fn path value with
  | error msg => simp [visit, fieldError, outcome]
  | ok res => simp [visit, fieldError, fieldLog, fieldValue, outcome]

theorem visit_bind {α β : Type} (fields : List (String × Json)) (first : α) (g : α → β) :
    (do
      let (value, log) ← visit fn fields first
      return (g value, log)) = visit fn fields (g first) := by
  unfold visit
  cases fields.findSome? (fieldError fn) <;> rfl

theorem visit_append {α β γ : Type} (left right : List (String × Json)) (first : α) (second : β)
    (g : α → β → γ) :
    (do
      let (value, log) ← visit fn left first
      let (values, logs) ← visit fn right second
      return (g value values, log ++ logs)) = visit fn (left ++ right) (g first second) := by
  unfold visit
  rw [List.findSome?_append]
  cases left.findSome? (fieldError fn) with
  | some msg => rfl
  | none =>
    cases right.findSome? (fieldError fn) with
    | some msg => rfl
    | none =>
      rw [List.flatMap_append]
      rfl

/-- The recursion of `transformSecrets`; each call is a visit to the fields below it. -/
theorem transformSecrets_eq : (∀ schema path value, transformSecrets fn schema path value =
      visit fn (secretFields schema path value) (replaceSecrets (fieldValue fn) schema path value)) ∧
    (∀ schema path i items, transformItems fn schema path i items =
      visit fn (secretItems schema path i items) (replaceItems (fieldValue fn) schema path i items)) ∧
    ∀ schema path fields, transformFields fn schema path fields =
      visit fn (secretMembers schema path fields) (replaceMembers (fieldValue fn) schema path fields) := by
  apply secretFields.mutual_induct
  case case2 =>
    intro value path schema secret
    rw [secretFields_of_secret secret, replaceSecrets_of_secret _ secret, visit_singleton]
    unfold transformSecrets
    exact if_pos secret
  case case3 =>
    intro path schema plain fields below
    simp only [transformSecrets, secretFields, replaceSecrets, plain, below]
    exact visit_bind fn _ _ Json.obj
  case case5 =>
    intro path schema plain items itemSchema isItems below
    simp only [transformSecrets, secretFields, replaceSecrets, plain, isItems, below]
    exact visit_bind fn _ _ Json.arr
  case case8 =>
    intro schema path i value items first rest
    rw [transformItems, first, rest]
    exact visit_append fn _ _ _ _ List.cons
  case case10 =>
    intro schema path key value fields first rest
    rw [transformFields, first, rest]
    exact visit_append fn _ _ _ _ fun value fields => (key, value) :: fields
  all_goals
    simp_all [transformSecrets, transformItems, transformFields, secretFields, replaceSecrets, secretItems, replaceItems, secretMembers,
      replaceMembers, visit_nil]

theorem transformNode_eq (kind : Kind) (path : String) (node : Node) :
    transformNode fn kind path node =
      visit fn (nodeFields kind path node) (replaceNode (fieldValue fn) kind path node) := by
  unfold transformNode nodeFields replaceNode
  cases Catalog.lookup kind node.type with
  | none => exact (visit_nil fn _).symm
  | some component =>
    cases node.config with
    | none => exact (visit_nil fn _).symm
    | some config =>
      dsimp only
      rw [(transformSecrets_eq fn).1]
      exact visit_bind fn _ _ fun config : Json => { node with config := some config.fields }

theorem transformNodes_eq (kind : Kind) (name : String) (i : Nat) (nodes : List Node) :
    transformNodes fn kind name i nodes =
      visit fn (nodesFields kind name i nodes) (replaceNodes (fieldValue fn) kind name i nodes) := by
  induction nodes generalizing i with
  | nil => exact (visit_nil fn _).symm
  | cons node nodes ih =>
    rw [transformNodes, transformNode_eq, ih]
    exact visit_append fn _ _ _ _ List.cons

theorem transformGraphSecrets_eq (graph : Graph) :
    transformGraphSecrets fn graph = visit fn (graphFields graph) (replaceGraph (fieldValue fn) graph) := by
  rw [transformGraphSecrets, transformNodes_eq, transformNodes_eq]
  exact visit_append fn _ _ _ _ fun processors exporters => { graph with processors, exporters }

end OtelFleet.Verified.SecretTraversal
