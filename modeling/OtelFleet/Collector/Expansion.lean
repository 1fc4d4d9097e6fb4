import OtelFleet.Pipelines.Yaml

/-! # What the collector makes of a config's strings

The collector decodes the document and then expands every string scalar: `$$` is
an escaped `$`, and `${name}` is replaced by what the config provider returns for
the name (an environment variable, the content of a file or URL).
-/

namespace OtelFleet.Collector

open Pipelines

section

variable (provider : List Char → List Char)

/-- The expansion of a text behind its first `skip` characters, which have been
    dealt with. -/
def expandFrom : Nat → List Char → List Char
  | _, [] => []
  | skip + 1, _ :: rest => expandFrom skip rest
  | 0, c :: rest =>
    if c = '$' ∧ rest.head? = some '$' then '$' :: expandFrom 1 rest
    else if c = '$' ∧ rest.head? = some '{' ∧ '}' ∈ rest then
      let name := rest.tail.takeWhile (· ≠ '}')
      provider name ++ expandFrom (name.length + 2) rest
    else c :: expandFrom 0 rest

def hasExpansion : List Char → Bool
  | [] => false
  | c :: rest =>
    (c = '$' && (rest.head? = some '$' || (rest.head? = some '{' && '}' ∈ rest))) || hasExpansion rest

theorem expandFrom_plain {text : List Char} (plain : hasExpansion text = false) : expandFrom provider 0 text = text := by
  induction text with
  | nil => rfl
  | cons c rest ih =>
    simp only [hasExpansion, Bool.or_eq_false_iff, Bool.and_eq_false_iff, decide_eq_false_iff_not] at plain
    obtain ⟨here, later⟩ := plain
    rw [expandFrom, if_neg (by tauto), if_neg (by tauto), ih later]

theorem length_expandFrom_le (skip : Nat) (text : List Char) :
    (expandFrom (fun _ => []) skip text).length ≤ text.length - skip := by
  induction text generalizing skip with
  | nil => simp [expandFrom]
  | cons c rest ih =>
    cases skip with
    | succ skip =>
      rw [List.length_cons, Nat.add_sub_add_right]
      exact ih skip
    | zero =>
      rw [expandFrom]
      split
      · have := ih 1
        simp only [List.length_cons]
        omega
      · split
        · have := ih ((rest.tail.takeWhile (· ≠ '}')).length + 2)
          simp only [List.nil_append, List.length_cons]
          omega
        · have := ih 0
          simp only [List.length_cons]
          omega

theorem length_expandFrom_lt {text : List Char} (expands : hasExpansion text = true) :
    (expandFrom (fun _ => []) 0 text).length < text.length := by
  induction text with
  | nil => cases expands
  | cons c rest ih =>
    rw [expandFrom]
    split
    · next escaped =>
      have shorter := length_expandFrom_le 1 rest
      -- the second `$` is there
      have nonempty : rest ≠ [] := by
        intro empty
        rw [empty] at escaped
        cases escaped.2
      have := List.length_pos_of_ne_nil nonempty
      simp only [List.length_cons]
      omega
    · next notEscaped =>
      split
      · have shorter := length_expandFrom_le ((rest.tail.takeWhile (· ≠ '}')).length + 2) rest
        simp only [List.nil_append, List.length_cons]
        omega
      · next notName =>
        have later : hasExpansion rest = true := by
          simp only [hasExpansion, Bool.or_eq_true, Bool.and_eq_true, decide_eq_true_eq] at expands
          tauto
        have := ih later
        simp only [List.length_cons]
        omega

end

def expand (provider : String → String) (text : String) : String :=
  String.ofList (expandFrom (fun name => (provider (String.ofList name)).toList) 0 text.toList)

/-- A text stays as it is under every provider exactly when nothing in it expands. -/
theorem expand_eq_self_iff (text : String) :
    (∀ provider, expand provider text = text) ↔ hasExpansion text.toList = false := by
  constructor
  · intro same
    by_contra expands
    have shorter := length_expandFrom_lt (Bool.not_eq_false _ ▸ expands)
    have unchanged := congrArg String.toList (same fun _ => "")
    rw [expand, String.toList_ofList] at unchanged
    exact absurd (congrArg List.length unchanged) (ne_of_lt shorter)
  · intro plain provider
    rw [expand, expandFrom_plain _ plain, String.ofList_toList]

inductive Step where
  | key (name : String)
  | index (i : Nat)

abbrev Place := List Step

def under {α : Type*} (step : Step) (entry : Place × α) : Place × α := (step :: entry.1, entry.2)

mutual
def scalars : YamlNode → List (Place × Scalar)
  | .scalar value => [([], value)]
  | .seq _ items => itemScalars 0 items
  | .map content => memberScalars content

def itemScalars (i : Nat) : List YamlNode → List (Place × Scalar)
  | [] => []
  | item :: items => (scalars item).map (under (.index i)) ++ itemScalars (i + 1) items

def memberScalars : List (String × YamlNode) → List (Place × Scalar)
  | [] => []
  | (key, value) :: members => (scalars value).map (under (.key key)) ++ memberScalars members
end

variable (readKey : String → String) (provider : String → String)

def expandScalar : Scalar → Scalar
  | .str text => .str (expand provider text)
  | value => value

mutual
/-- The document as the collector has it.  The renderer writes mapping keys without
    a tag; `readKey` is what the decoder makes of such a key. -/
def view : YamlNode → YamlNode
  | .scalar value => .scalar (expandScalar provider value)
  | .seq flow items => .seq flow (viewItems items)
  | .map content => .map (viewMembers content)

def viewItems : List YamlNode → List YamlNode
  | [] => []
  | item :: items => view item :: viewItems items

def viewMembers : List (String × YamlNode) → List (String × YamlNode)
  | [] => []
  | (key, value) :: members => (readKey key, view value) :: viewMembers members
end

def readStep : Step → Step
  | .key name => .key (readKey name)
  | .index i => .index i

def seen (entry : Place × Scalar) : Place × Scalar := (entry.1.map (readStep readKey), expandScalar provider entry.2)

theorem map_seen_under (step : Step) (entries : List (Place × Scalar)) :
    (entries.map (under step)).map (seen readKey provider) =
      (entries.map (seen readKey provider)).map (under (readStep readKey step)) := by
  rw [List.map_map, List.map_map]
  rfl

mutual
theorem scalars_view : (node : YamlNode) →
    scalars (view readKey provider node) = (scalars node).map (seen readKey provider)
  | .scalar _ => rfl
  | .seq _ items => itemScalars_viewItems 0 items
  | .map content => memberScalars_viewMembers content

theorem itemScalars_viewItems (i : Nat) : (items : List YamlNode) →
    itemScalars i (viewItems readKey provider items) = (itemScalars i items).map (seen readKey provider)
  | [] => rfl
  | item :: items => by
    rw [viewItems, itemScalars, itemScalars, List.map_append, map_seen_under, scalars_view item,
      itemScalars_viewItems (i + 1) items]
    rfl

theorem memberScalars_viewMembers : (members : List (String × YamlNode)) →
    memberScalars (viewMembers readKey provider members) = (memberScalars members).map (seen readKey provider)
  | [] => rfl
  | (key, value) :: members => by
    rw [viewMembers, memberScalars, memberScalars, List.map_append, map_seen_under, scalars_view value,
      memberScalars_viewMembers members]
    rfl
end

end OtelFleet.Collector
