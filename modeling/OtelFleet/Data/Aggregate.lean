import Mathlib.Algebra.BigOperators.Group.List.Basic
import Mathlib.Algebra.Group.Hom.Defs
import Mathlib.Data.List.Nodup
import Mathlib.Data.List.Perm.Basic

/-! # Sums by key

Entries of a key and a value are summed by key, as by a `GROUP BY` or by adding to the
entries of a map.  All such sums are measured by `sumWhere`, the sum of the values whose
keys meet a condition: grouping does not change it.
-/

namespace OtelFleet.Data

section

variable {κ M : Type*} [AddCommMonoid M]

def sumWhere (p : κ → Prop) [DecidablePred p] (entries : List (κ × M)) : M :=
  ((entries.filter fun entry => p entry.1).map Prod.snd).sum

variable {entries : List (κ × M)}

section

variable {p : κ → Prop} [DecidablePred p]

@[simp] theorem sumWhere_nil : sumWhere p ([] : List (κ × M)) = 0 := rfl

theorem sumWhere_cons (entry : κ × M) (entries : List (κ × M)) :
    sumWhere p (entry :: entries) = (if p entry.1 then entry.2 else 0) + sumWhere p entries := by
  by_cases holds : p entry.1 <;> simp [sumWhere, holds]

theorem sumWhere_append (entries entries' : List (κ × M)) :
    sumWhere p (entries ++ entries') = sumWhere p entries + sumWhere p entries' := by
  simp [sumWhere]

theorem sumWhere_flatMap {σ : Type*} (sources : List σ) (entries : σ → List (κ × M)) :
    sumWhere p (sources.flatMap entries) = (sources.map fun source => sumWhere p (entries source)).sum := by
  induction sources with
  | nil => rfl
  | cons source sources ih =>
    rw [List.flatMap_cons, sumWhere_append, ih, List.map_cons, List.sum_cons]

theorem sumWhere_flatMap_filter {σ : Type*} {q : σ → Prop} [DecidablePred q] {sources : List σ} {entries : σ → List (κ × M)}
    (zero : ∀ source, ¬ q source → sumWhere p (entries source) = 0) :
    sumWhere p (sources.flatMap entries) = sumWhere p ((sources.filter fun source => q source).flatMap entries) := by
  induction sources with
  | nil => rfl
  | cons source sources ih =>
    rw [List.flatMap_cons, sumWhere_append, ih, List.filter_cons]
    by_cases holds : q source
    · rw [if_pos (decide_eq_true holds), List.flatMap_cons, sumWhere_append]
    · rw [if_neg (by simpa using holds), zero source holds, zero_add]

theorem sumWhere_perm {entries' : List (κ × M)} (same : entries.Perm entries') :
    sumWhere p entries = sumWhere p entries' :=
  ((same.filter _).map _).sum_eq

theorem sumWhere_congr {q : κ → Prop} [DecidablePred q] (same : ∀ entry ∈ entries, p entry.1 ↔ q entry.1) :
    sumWhere p entries = sumWhere q entries := by
  rw [sumWhere, sumWhere, List.filter_congr fun entry mem => decide_eq_decide.mpr (same entry mem)]

theorem sumWhere_eq_zero (none : ∀ entry ∈ entries, ¬ p entry.1) : sumWhere p entries = 0 := by
  rw [sumWhere, List.filter_eq_nil_iff.mpr fun entry mem => by simpa using none entry mem]
  rfl

theorem sumWhere_filter (q : κ → Prop) [DecidablePred q] (entries : List (κ × M)) :
    sumWhere p (entries.filter fun entry => q entry.1) = sumWhere (fun key => p key ∧ q key) entries := by
  simp [sumWhere]

theorem sumWhere_map_value {N : Type*} [AddCommMonoid N] (f : M →+ N) (entries : List (κ × M)) :
    sumWhere p (entries.map fun entry => (entry.1, f entry.2)) = f (sumWhere p entries) := by
  simp [sumWhere, List.filter_map, Function.comp_def, map_list_sum]

theorem sumWhere_map_key {ι : Type*} (f : ι → κ) (entries : List (ι × M)) :
    sumWhere p (entries.map fun entry => (f entry.1, entry.2)) = sumWhere (fun key => p (f key)) entries := by
  simp [sumWhere, List.filter_map, Function.comp_def]

end

section

theorem sum_map_filterMap {ι γ : Type*} (f : ι → Option γ) (value : γ → M) (list : List ι) :
    ((list.filterMap f).map value).sum = (list.map fun one => (f one).elim 0 value).sum := by
  induction list with
  | nil => rfl
  | cons one list ih =>
    rw [List.filterMap_cons, List.map_cons, List.sum_cons, ← ih]
    cases f one <;> simp

variable {γ : Type*} [DecidableEq γ] {p : κ → Prop} [DecidablePred p] {q : γ → Prop} [DecidablePred q]

theorem sum_map_single {groups : List γ} (distinct : groups.Nodup) (value : γ → M) {group : γ} (mem : group ∈ groups) :
    (groups.map fun other => if other = group then value other else 0).sum = value group := by
  have only : groups.filter (fun other => other = group) = [group] := by
    rw [← List.replicate_one, ← List.count_eq_one_of_mem distinct mem, List.filter_eq]
  rw [List.sum_map_ite, only]
  simp

theorem sum_groups {group : κ → γ} {groups : List γ} (distinct : groups.Nodup)
    (covered : ∀ entry ∈ entries, group entry.1 ∈ groups) :
    (groups.map fun one => if q one then sumWhere (fun key => p key ∧ group key = one) entries else 0).sum =
      sumWhere (fun key => p key ∧ q (group key)) entries := by
  induction entries with
  | nil => simp
  | cons entry entries ih =>
    obtain ⟨mem, covered⟩ := List.forall_mem_cons.mp covered
    have first : (groups.map fun one => if one = group entry.1 then (if p entry.1 ∧ q one then entry.2 else 0) else 0).sum =
        if p entry.1 ∧ q (group entry.1) then entry.2 else 0 := sum_map_single distinct _ mem
    rw [sumWhere_cons, ← ih covered, ← first, ← List.sum_map_add]
    congr 1
    apply List.map_congr_left
    intro one _
    rw [sumWhere_cons]
    by_cases same : group entry.1 = one
    · subst same
      by_cases holds : q (group entry.1) <;> simp [holds]
    · by_cases holds : q one <;> simp [same, Ne.symm same]

end

variable [DecidableEq κ]

def addTo (key : κ) (value : M) : List (κ × M) → List (κ × M)
  | [] => [(key, value)]
  | entry :: sums => if entry.1 = key then (key, entry.2 + value) :: sums else entry :: addTo key value sums

def tally (entries : List (κ × M)) : List (κ × M) := entries.foldl (fun sums entry => addTo entry.1 entry.2 sums) []

variable {p : κ → Prop}

theorem sumWhere_addTo [DecidablePred p] (key : κ) (value : M) (sums : List (κ × M)) :
    sumWhere p (addTo key value sums) = sumWhere p sums + if p key then value else 0 := by
  induction sums with
  | nil => rw [addTo, sumWhere_cons, add_comm]
  | cons entry sums ih =>
    by_cases same : entry.1 = key
    · subst same
      rw [addTo, if_pos rfl, sumWhere_cons, sumWhere_cons]
      split
      · exact add_right_comm _ _ _
      · simp
    · rw [addTo, if_neg same, sumWhere_cons, sumWhere_cons, ih, add_assoc]

theorem sumWhere_foldl [DecidablePred p] (entries sums : List (κ × M)) :
    sumWhere p (entries.foldl (fun sums entry => addTo entry.1 entry.2 sums) sums) =
      sumWhere p sums + sumWhere p entries := by
  induction entries generalizing sums with
  | nil => exact (add_zero _).symm
  | cons entry entries ih =>
    rw [List.foldl_cons, ih, sumWhere_addTo, sumWhere_cons, add_assoc]

@[simp] theorem sumWhere_tally [DecidablePred p] (entries : List (κ × M)) :
    sumWhere p (tally entries) = sumWhere p entries := by
  rw [tally, sumWhere_foldl, sumWhere_nil, zero_add]

theorem addTo_filter (q : κ → Bool) (key : κ) (value : M) (sums : List (κ × M)) :
    (addTo key value sums).filter (fun entry => q entry.1) =
      if q key then addTo key value (sums.filter fun entry => q entry.1) else sums.filter fun entry => q entry.1 := by
  induction sums with
  | nil => cases holds : q key <;> simp [addTo, holds]
  | cons entry sums ih =>
    by_cases same : entry.1 = key
    · subst same
      cases holds : q entry.1 <;> simp [addTo, holds]
    · cases holds : q key <;> cases own : q entry.1 <;> simp [addTo, same, own, holds, ih]

theorem foldl_filter (q : κ → Bool) (entries sums : List (κ × M)) :
    (entries.foldl (fun sums entry => addTo entry.1 entry.2 sums) sums).filter (fun entry => q entry.1) =
      (entries.filter fun entry => q entry.1).foldl (fun sums entry => addTo entry.1 entry.2 sums)
        (sums.filter fun entry => q entry.1) := by
  induction entries generalizing sums with
  | nil => rfl
  | cons entry entries ih =>
    rw [List.foldl_cons, ih, addTo_filter]
    cases holds : q entry.1 <;> simp [holds]

theorem tally_filter (q : κ → Bool) (entries : List (κ × M)) :
    tally (entries.filter fun entry => q entry.1) = (tally entries).filter fun entry => q entry.1 :=
  (foldl_filter q entries []).symm

end

instance int64AddCommMonoid : AddCommMonoid Int64 where
  add_assoc := Int64.add_assoc
  zero_add := Int64.zero_add
  add_zero := Int64.add_zero
  add_comm := Int64.add_comm
  nsmul := nsmulRec

/-- The conversion `int64(n)` of a `uint64`, which wraps around like the sums do. -/
def toInt64 : Nat →+ Int64 where
  toFun := Int64.ofNat
  map_zero' := rfl
  map_add' := Int64.ofNat_add

theorem toInt_toInt64 {n : Nat} (fits : n < 2 ^ 63) : (toInt64 n).toInt = n := Int64.toInt_ofNat_of_lt fits

end OtelFleet.Data
