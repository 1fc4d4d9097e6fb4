import Mathlib.Data.List.Sort
import Mathlib.Data.String.Basic
import Mathlib.Data.Rat.Defs

/-! # JSON values

JSON documents with the numbers a Go program meets in them.  Objects are
association lists; a Go map has no order and no repeated key, so the documents
that stand for Go maps are the *canonical* ones, in which the keys of every
object are strictly increasing.
-/

namespace OtelFleet.Data

/-- A number inside a decoded document: a Go integer, a finite `float64` by its
    exact value, the `float64` -0, which has the value of 0, or a `json.Number`,
    which is the literal's text. -/
inductive Number where
  | int (value : Int)
  | float64 (value : ℚ)
  | negZero
  | literal (text : String)
deriving DecidableEq

inductive Json where
  | null
  | bool (value : Bool)
  | num (value : Number)
  | str (value : String)
  | arr (items : List Json)
  | obj (fields : List (String × Json))

namespace Json

mutual
def decEq : (a b : Json) → Decidable (a = b)
  | .null, .null => isTrue rfl
  | .bool a, .bool b => decidable_of_iff (a = b) (by simp)
  | .num a, .num b => decidable_of_iff (a = b) (by simp)
  | .str a, .str b => decidable_of_iff (a = b) (by simp)
  | .arr a, .arr b => have := decEqItems a b; decidable_of_iff (a = b) (by simp)
  | .obj a, .obj b => have := decEqFields a b; decidable_of_iff (a = b) (by simp)
  | .null, .bool _ | .null, .num _ | .null, .str _ | .null, .arr _ | .null, .obj _
  | .bool _, .null | .bool _, .num _ | .bool _, .str _ | .bool _, .arr _ | .bool _, .obj _
  | .num _, .null | .num _, .bool _ | .num _, .str _ | .num _, .arr _ | .num _, .obj _
  | .str _, .null | .str _, .bool _ | .str _, .num _ | .str _, .arr _ | .str _, .obj _
  | .arr _, .null | .arr _, .bool _ | .arr _, .num _ | .arr _, .str _ | .arr _, .obj _
  | .obj _, .null | .obj _, .bool _ | .obj _, .num _ | .obj _, .str _ | .obj _, .arr _ =>
    isFalse (by simp)

def decEqItems : (a b : List Json) → Decidable (a = b)
  | [], [] => isTrue rfl
  | x :: xs, y :: ys =>
    have := decEq x y
    have := decEqItems xs ys
    decidable_of_iff (x = y ∧ xs = ys) (by simp)
  | [], _ :: _ | _ :: _, [] => isFalse (by simp)

def decEqFields : (a b : List (String × Json)) → Decidable (a = b)
  | [], [] => isTrue rfl
  | (k, x) :: xs, (l, y) :: ys =>
    have := decEq x y
    have := decEqFields xs ys
    decidable_of_iff (k = l ∧ x = y ∧ xs = ys) (by simp [and_assoc])
  | [], _ :: _ | _ :: _, [] => isFalse (by simp)
end

instance : DecidableEq Json := decEq

def IsLeaf : Json → Bool
  | .arr _ | .obj _ => false
  | _ => true

mutual
def mapNumbers (f : Number → Json) : Json → Json
  | .num value => f value
  | .arr items => .arr (mapNumbersItems f items)
  | .obj fields => .obj (mapNumbersFields f fields)
  | value => value

def mapNumbersItems (f : Number → Json) : List Json → List Json
  | [] => []
  | item :: items => mapNumbers f item :: mapNumbersItems f items

def mapNumbersFields (f : Number → Json) : List (String × Json) → List (String × Json)
  | [] => []
  | (key, value) :: fields => (key, mapNumbers f value) :: mapNumbersFields f fields
end

end Json

variable {key : String}

section

variable {α : Type*}

/-- The keys of an association list in strictly increasing order. -/
def SortedKeys (fields : List (String × α)) : Prop :=
  fields.Pairwise fun a b => a.1 < b.1

def insertKey (key : String) (value : α) : List (String × α) → List (String × α)
  | [] => [(key, value)]
  | (k, v) :: rest =>
    if key = k then (key, value) :: rest
    else if key < k then (key, value) :: (k, v) :: rest
    else (k, v) :: insertKey key value rest

def eraseKey (key : String) (fields : List (String × α)) : List (String × α) :=
  fields.filter fun field => field.1 ≠ key

theorem lookup_cons (key k : String) (v : α) (rest : List (String × α)) :
    ((k, v) :: rest).lookup key = if key = k then some v else rest.lookup key := by
  by_cases same : key = k
  · simp [same]
  · have different : (key == k) = false := by simpa using same
    simp [List.lookup_cons, different, same]

theorem lookup_insertKey (key k : String) (value : α) (fields : List (String × α)) :
    (insertKey k value fields).lookup key =
      if key = k then some value else fields.lookup key := by
  induction fields with
  | nil => simp [insertKey, lookup_cons]
  | cons field rest ih =>
    obtain ⟨k', v'⟩ := field
    simp only [insertKey]
    split
    · subst k'
      by_cases same : key = k <;> simp [lookup_cons, same]
    · split
      · simp [lookup_cons]
      · rename_i different _
        simp only [lookup_cons, ih]
        by_cases head : key = k'
        · subst key
          simp [Ne.symm different]
        · simp [head]

theorem lookup_eraseKey (key k : String) (fields : List (String × α)) :
    (eraseKey k fields).lookup key = if key = k then none else fields.lookup key := by
  induction fields with
  | nil => simp [eraseKey]
  | cons field rest ih =>
    obtain ⟨k', v'⟩ := field
    simp only [eraseKey, List.filter_cons] at ih ⊢
    by_cases erased : k' = k
    · subst k'
      rw [if_neg (by simp), ih, lookup_cons]
      split <;> rfl
    · rw [if_pos (by simpa using erased), lookup_cons, lookup_cons, ih]
      by_cases same : key = k'
      · subst key
        simp [erased]
      · simp [same]

variable {fields : List (String × α)} {value : α}

theorem mem_keys_of_lookup (found : fields.lookup key = some value) : (key, value) ∈ fields := by
  obtain ⟨before, after, rfl, _⟩ := List.lookup_eq_some_iff.mp found
  simp

theorem lookup_eq_none_iff : fields.lookup key = none ↔ ∀ field ∈ fields, field.1 ≠ key := by
  rw [List.lookup_eq_none_iff]
  simp only [bne_iff_ne, ne_comm]

theorem lookup_of_unique (mem : (key, value) ∈ fields)
    (unique : ∀ field ∈ fields, field.1 = key → field.2 = value) : fields.lookup key = some value := by
  cases found : fields.lookup key with
  | none => exact absurd rfl (lookup_eq_none_iff.mp found _ mem)
  | some other => exact congrArg some (unique _ (mem_keys_of_lookup found) rfl)

theorem SortedKeys.lookup_of_mem (sorted : SortedKeys fields) (mem : (key, value) ∈ fields) :
    fields.lookup key = some value := by
  induction fields with
  | nil => cases mem
  | cons field rest ih =>
    obtain ⟨k, v⟩ := field
    obtain ⟨above, tailSorted⟩ := List.pairwise_cons.mp sorted
    rw [lookup_cons]
    rcases List.mem_cons.mp mem with equal | tail
    · simp_all
    · have below : k < key := above _ tail
      rw [if_neg (ne_of_gt below)]
      exact ih tailSorted tail

theorem mem_insertKey {field : String × α}
    (mem : field ∈ insertKey key value fields) : field.1 = key ∨ field ∈ fields := by
  induction fields with
  | nil => simp_all [insertKey]
  | cons head rest ih =>
    simp only [insertKey] at mem
    split at mem
    · rcases List.mem_cons.mp mem with rfl | tail
      · exact .inl rfl
      · exact .inr (List.mem_cons_of_mem _ tail)
    · split at mem
      · rcases List.mem_cons.mp mem with rfl | old
        · exact .inl rfl
        · exact .inr old
      · rcases List.mem_cons.mp mem with rfl | tail
        · exact .inr List.mem_cons_self
        · exact (ih tail).imp_right (List.mem_cons_of_mem _)

theorem SortedKeys.insertKey {fields : List (String × α)} (sorted : SortedKeys fields)
    (key : String) (value : α) : SortedKeys (insertKey key value fields) := by
  induction fields with
  | nil => exact List.pairwise_singleton _ _
  | cons field rest ih =>
    obtain ⟨k, v⟩ := field
    obtain ⟨above, tailSorted⟩ := List.pairwise_cons.mp sorted
    simp only [Data.insertKey]
    split
    · subst k
      exact List.pairwise_cons.mpr ⟨above, tailSorted⟩
    · split
      · rename_i below
        refine List.pairwise_cons.mpr ⟨?_, sorted⟩
        intro field mem
        rcases List.mem_cons.mp mem with rfl | tail
        · exact below
        · exact lt_trans below (above _ tail)
      · rename_i different notBelow
        refine List.pairwise_cons.mpr ⟨?_, ih tailSorted⟩
        intro field mem
        rcases mem_insertKey mem with same | old
        · rw [same]
          exact lt_of_le_of_ne (not_lt.mp notBelow) (Ne.symm different)
        · exact above _ old

theorem SortedKeys.eraseKey {fields : List (String × α)} (sorted : SortedKeys fields)
    (key : String) : SortedKeys (eraseKey key fields) :=
  List.Pairwise.filter _ sorted

theorem fields_ext {left right : List (String × α)} (leftSorted : SortedKeys left)
    (rightSorted : SortedKeys right) (same : ∀ key, left.lookup key = right.lookup key) :
    left = right := by
  have mem_iff : ∀ field, field ∈ left ↔ field ∈ right := by
    rintro ⟨key, value⟩
    constructor
    · intro mem
      exact mem_keys_of_lookup ((same key).symm.trans (leftSorted.lookup_of_mem mem))
    · intro mem
      exact mem_keys_of_lookup ((same key).trans (rightSorted.lookup_of_mem mem))
  have nodup : ∀ {fields : List (String × α)}, SortedKeys fields → fields.Nodup := fun sorted =>
    List.Pairwise.imp (fun below equal => absurd (congrArg Prod.fst equal) (ne_of_lt below)) sorted
  have perm : left.Perm right :=
    (List.perm_ext_iff_of_nodup (nodup leftSorted) (nodup rightSorted)).mpr mem_iff
  exact perm.eq_of_pairwise (fun a b _ _ ab ba => absurd (lt_trans ab ba) (lt_irrefl _))
    leftSorted rightSorted

end

namespace Json

/-- Induction over a document, with one hypothesis for each member of a container. -/
@[induction_eliminator]
theorem induction {motive : Json → Prop} (null : motive .null)
    (bool : ∀ value, motive (.bool value)) (num : ∀ value, motive (.num value))
    (str : ∀ value, motive (.str value))
    (arr : ∀ items, (∀ item ∈ items, motive item) → motive (.arr items))
    (obj : ∀ fields, (∀ field ∈ fields, motive field.2) → motive (.obj fields)) :
    ∀ value, motive value
  | .null => null
  | .bool value => bool value
  | .num value => num value
  | .str value => str value
  | .arr items => arr items fun item _ => induction null bool num str arr obj item
  | .obj fields => obj fields fun field _ => induction null bool num str arr obj field.2
termination_by value => sizeOf value
decreasing_by
  · rename_i mem
    have := List.sizeOf_lt_of_mem mem
    simp
    omega
  · rename_i mem
    have := List.sizeOf_lt_of_mem mem
    obtain ⟨key, value⟩ := field
    simp at this ⊢
    omega

mutual
/-- Every object of the document lists its keys in strictly increasing order. -/
def Canonical : Json → Prop
  | .arr items => CanonicalItems items
  | .obj fields => SortedKeys fields ∧ CanonicalFields fields
  | _ => True

def CanonicalItems : List Json → Prop
  | [] => True
  | item :: items => item.Canonical ∧ CanonicalItems items

def CanonicalFields : List (String × Json) → Prop
  | [] => True
  | (_, value) :: fields => value.Canonical ∧ CanonicalFields fields
end

def fields : Json → List (String × Json)
  | .obj fields => fields
  | _ => []

@[simp] theorem fields_obj (members : List (String × Json)) : (Json.obj members).fields = members := rfl

theorem canonicalFields_iff {members : List (String × Json)} :
    CanonicalFields members ↔ ∀ field ∈ members, field.2.Canonical := by
  induction members with
  | nil => simp [CanonicalFields]
  | cons field rest ih =>
    simp [CanonicalFields, ih]

theorem Canonical.sortedKeys {value : Json} (canonical : value.Canonical) :
    SortedKeys value.fields := by
  cases value with
  | obj members => exact canonical.1
  | null | bool _ | num _ | str _ | arr _ => exact List.Pairwise.nil

theorem Canonical.lookup {value mem : Json} (canonical : value.Canonical)
    (found : value.fields.lookup key = some mem) : mem.Canonical := by
  cases value with
  | obj members => exact canonicalFields_iff.mp canonical.2 _ (mem_keys_of_lookup found)
  | null | bool _ | num _ | str _ | arr _ => simp [fields] at found

end Json

/-- A document that stands for Go maps: canonical by construction. -/
abbrev Doc := { value : Json // value.Canonical }

end OtelFleet.Data
