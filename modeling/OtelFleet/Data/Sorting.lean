import Mathlib.Data.List.Sort

/-! # Sorting

Sorting by a comparison that may leave ties, and by columns as `ORDER BY` does.  Leaving
out entries commutes with both.
-/

namespace OtelFleet.Data

/-- `sort.Slice`: the entries in some order that the comparison allows. -/
structure Sorter {α : Type*} (less : α → α → Prop) where
  sort : List α → List α
  perm : ∀ list, (sort list).Perm list
  sorted : ∀ list, (sort list).Pairwise fun a b => ¬ less b a

def Sorter.byKey {α κ : Type*} [LinearOrder κ] {less : α → α → Prop} (key : α → κ) (isKey : ∀ a b, less a b ↔ key a < key b) :
    Sorter less where
  sort := List.insertionSort fun a b => key a ≤ key b
  perm := List.perm_insertionSort _
  sorted list := by
    have total : Std.Total fun a b : α => key a ≤ key b := ⟨fun a b => le_total (key a) (key b)⟩
    have trans : IsTrans α fun a b => key a ≤ key b := ⟨fun a b c => le_trans⟩
    refine (List.pairwise_insertionSort (fun a b => key a ≤ key b) list).imp ?_
    intro a b ordered before
    exact not_lt.mpr ordered ((isKey b a).mp before)

/-- Two orders of the same entries, both of which the comparison allows. -/
structure SameUpToTies {α : Type*} (less : α → α → Prop) (list list' : List α) : Prop where
  perm : list.Perm list'
  sorted : list.Pairwise fun a b => ¬ less b a
  sorted' : list'.Pairwise fun a b => ¬ less b a

theorem Sorter.sameUpToTies {α : Type*} {less : α → α → Prop} (sorter sorter' : Sorter less) (list : List α) :
    SameUpToTies less (sorter.sort list) (sorter'.sort list) where
  perm := (sorter.perm list).trans (sorter'.perm list).symm
  sorted := sorter.sorted list
  sorted' := sorter'.sorted list

theorem Sorter.sameUpToTies_filter {α : Type*} {less : α → α → Prop} (sorter sorter' : Sorter less) (p : α → Bool) (list : List α) :
    SameUpToTies less ((sorter.sort list).filter p) (sorter'.sort (list.filter p)) where
  perm := ((sorter.perm list).filter p).trans (sorter'.perm _).symm
  sorted := (sorter.sorted list).filter p
  sorted' := sorter'.sorted _

section

variable {α κ : Type*}

/-- `ORDER BY`: by a column, and by `next` where it ties. -/
def byThen [LT κ] (column : α → κ) (next : α → α → Prop) (a b : α) : Prop :=
  column a < column b ∨ (column a = column b ∧ next a b)

instance [LT κ] [DecidableLT κ] [DecidableEq κ] (column : α → κ) (next : α → α → Prop) [DecidableRel next] :
    DecidableRel (byThen column next) :=
  fun a b => inferInstanceAs (Decidable (column a < column b ∨ (column a = column b ∧ next a b)))

variable [LinearOrder κ]

instance column_trans (column : α → κ) : IsTrans α fun a b => column a ≤ column b := ⟨fun _ _ _ => le_trans⟩

instance column_total (column : α → κ) : Std.Total fun a b : α => column a ≤ column b := ⟨fun a b => le_total (column a) (column b)⟩

instance (column : α → κ) (next : α → α → Prop) [IsTrans α next] : IsTrans α (byThen column next) where
  trans a b c first second := by
    cases first with
    | inl less =>
      cases second with
      | inl less' => exact .inl (less.trans less')
      | inr same => exact .inl (same.1 ▸ less)
    | inr same =>
      cases second with
      | inl less => exact .inl (same.1 ▸ less)
      | inr same' => exact .inr ⟨same.1.trans same'.1, IsTrans.trans _ _ _ same.2 same'.2⟩

instance (column : α → κ) (next : α → α → Prop) [Std.Total next] : Std.Total (byThen column next) where
  total a b := by
    rcases lt_trichotomy (column a) (column b) with less | same | greater
    · exact .inl (.inl less)
    · cases Std.Total.total (r := next) a b with
      | inl ordered => exact .inl (.inr ⟨same, ordered⟩)
      | inr ordered => exact .inr (.inr ⟨same.symm, ordered⟩)
    · exact .inr (.inl greater)

end

variable {α : Type*} (r : α → α → Prop) [DecidableRel r]

theorem filter_orderedInsert [IsTrans α r] (p : α → Bool) (one : α) {list : List α} (sorted : list.Pairwise r) :
    (list.orderedInsert r one).filter p =
      if p one then (list.filter p).orderedInsert r one else list.filter p := by
  induction list with
  | nil => cases holds : p one <;> simp [holds]
  | cons first list ih =>
    rw [List.pairwise_cons] at sorted
    by_cases before : r one first
    · -- everything that follows is past the new entry as well
      rw [List.orderedInsert_cons_of_le _ _ before, List.filter_cons]
      cases holds : p one with
      | false => simp
      | true =>
        cases filtered : (first :: list).filter p with
        | nil => simp
        | cons next rest =>
          have isNext : next ∈ first :: list := List.mem_of_mem_filter (filtered ▸ List.mem_cons_self)
          have beforeNext : r one next := by
            cases List.mem_cons.mp isNext with
            | inl same => exact same ▸ before
            | inr later => exact IsTrans.trans _ _ _ before (sorted.1 next later)
          simp [beforeNext]
    · rw [List.orderedInsert_of_not_le _ _ before, List.filter_cons, ih sorted.2, List.filter_cons]
      cases p one <;> cases p first <;> simp [before]

/-- Leaving out entries before sorting or after it is the same. -/
theorem filter_insertionSort [IsTrans α r] [Std.Total r] (p : α → Bool) (list : List α) :
    (list.insertionSort r).filter p = (list.filter p).insertionSort r := by
  induction list with
  | nil => rfl
  | cons one list ih =>
    rw [List.insertionSort_cons, filter_orderedInsert r p one (List.pairwise_insertionSort r list), ih,
      List.filter_cons]
    cases holds : p one <;> simp

end OtelFleet.Data
