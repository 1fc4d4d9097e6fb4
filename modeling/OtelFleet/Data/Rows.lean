import Mathlib.Data.List.Find
import Mathlib.Data.List.Nodup

/-! # Tables as lists of rows

A table is a list of rows with distinct keys.  `UPDATE … WHERE key = k` is a map
over the rows; the lemmas here say that it keeps the keys, and what it comes to
when every row is updated in turn.
-/

namespace OtelFleet.Data

variable {α β κ : Type*} {key : α → κ} {rows : List α}

theorem forall_mem_append_row {p : α → Prop} {row : α} (old : ∀ other ∈ rows, p other) (new : p row) :
    ∀ other ∈ rows ++ [row], p other := List.forall_mem_append.mpr ⟨old, List.forall_mem_singleton.mpr new⟩

theorem mem_set_self {i : Nat} {row new : α} (found : rows[i]? = some row) : new ∈ rows.set i new :=
  List.mem_of_getElem? (List.getElem?_set_self (List.getElem?_eq_some_iff.mp found).1)

theorem mem_set_of_mem {i : Nat} {row other : α} (found : rows[i]? = some row) (new : α) (mem : other ∈ rows) :
    other = row ∨ other ∈ rows.set i new := by
  obtain ⟨j, isOther⟩ := List.mem_iff_getElem?.mp mem
  by_cases same : j = i
  · subst same
    exact Or.inl (Option.some.inj (isOther.symm.trans found))
  · exact Or.inr (List.mem_of_getElem? ((List.getElem?_set_ne (Ne.symm same)).trans isOther))

theorem nodup_append_row {row : α} (nodup : (rows.map key).Nodup) (fresh : ∀ other ∈ rows, key other ≠ key row) :
    ((rows ++ [row]).map key).Nodup := by
  rw [List.map_append, List.map_singleton, List.nodup_append_comm, List.singleton_append, List.nodup_cons]
  refine ⟨fun mem => ?_, nodup⟩
  obtain ⟨other, isRow, same⟩ := List.mem_map.mp mem
  exact fresh other isRow same

theorem nodup_map_rows {f : α → α} (keepsKey : ∀ row, key (f row) = key row) (nodup : (rows.map key).Nodup) :
    ((rows.map f).map key).Nodup := by
  rw [List.map_map, show key ∘ f = key from funext keepsKey]
  exact nodup

theorem nodup_filter_rows (p : α → Bool) (nodup : (rows.map key).Nodup) : ((rows.filter p).map key).Nodup :=
  nodup.sublist (List.filter_sublist.map key)

theorem find?_filter_of_imp {keep p : α → Bool} (kept : ∀ row ∈ rows, p row = true → keep row = true) :
    (rows.filter keep).find? p = rows.find? p := by
  rw [List.find?_filter]
  apply List.find?_congr
  intro row mem
  cases holds : p row with
  | true => simp [kept row mem holds]
  | false => simp

theorem filter_filter_of_imp {keep p : α → Bool} (kept : ∀ row ∈ rows, p row = true → keep row = true) :
    (rows.filter keep).filter p = rows.filter p := by
  rw [List.filter_filter]
  apply List.filter_congr
  intro row mem
  cases holds : p row with
  | true => simp [kept row mem holds]
  | false => simp

variable [DecidableEq κ]

theorem find?_of_mem {row : α} (nodup : (rows.map key).Nodup) (mem : row ∈ rows) :
    rows.find? (fun other => key other = key row) = some row := by
  cases found : rows.find? fun other => key other = key row with
  | none => simpa using List.find?_eq_none.mp found row mem
  | some other =>
    have same : key other = key row := by simpa using List.find?_some found
    rw [List.inj_on_of_nodup_map nodup (List.mem_of_find?_eq_some found) mem same]

theorem find?_map_rows {f : α → α} (keepsKey : ∀ row, key (f row) = key row) (k : κ) :
    (rows.map f).find? (fun row => key row = k) = (rows.find? fun row => key row = k).map f := by
  rw [List.find?_map]
  congr 2
  funext row
  simp only [Function.comp_apply, keepsKey]

theorem map_update_absent {k : κ} (f : α → α) (absent : ∀ row ∈ rows, key row ≠ k) :
    (rows.map fun row => if key row = k then f row else row) = rows := by
  have unchanged : ∀ row ∈ rows, (if key row = k then f row else row) = id row :=
    fun row mem => if_neg (absent row mem)
  rw [List.map_congr_left unchanged, List.map_id]

variable {write : β → α → α} (keepsKey : ∀ value row, key (write value row) = key row)
include keepsKey

/-- A loop that writes to each row what `new` says of it, one statement a row,
    comes to one pass over the table. -/
theorem foldl_update (new : α → Option β) (nodup : (rows.map key).Nodup) :
    rows.foldl (fun table row => (new row).elim table fun value =>
        table.map fun other => if key other = key row then write value other else other) rows =
      rows.map fun row => (new row).elim row fun value => write value row := by
  let written row : α := (new row).elim row fun value => write value row
  have keyWritten row : key (written row) = key row := by
    simp only [written]
    cases new row with
    | none => rfl
    | some value => exact keepsKey value row
  -- the rows already visited are rewritten, the others are as they were
  suffices visited : ∀ todo done : List α, ((done ++ todo).map key).Nodup →
      todo.foldl (fun table row => (new row).elim table fun value =>
          table.map fun other => if key other = key row then write value other else other)
        (done.map written ++ todo) = (done ++ todo).map written from visited rows [] nodup
  intro todo
  induction todo with
  | nil => simp
  | cons row rest ih =>
    intro done distinct
    have next := ih (done ++ [row]) (by simpa using distinct)
    rw [List.append_assoc, List.singleton_append] at next
    rw [← next, List.map_append]
    rw [List.map_append, List.map_cons, List.nodup_middle, List.nodup_cons, List.mem_append] at distinct
    have before : ∀ other ∈ done.map written, key other ≠ key row := by
      intro other mem same
      obtain ⟨old, isOld, rfl⟩ := List.mem_map.mp mem
      exact distinct.1 (Or.inl (by rw [← same, keyWritten]; exact List.mem_map_of_mem isOld))
    have after : ∀ other ∈ rest, key other ≠ key row := by
      intro other mem same
      exact distinct.1 (Or.inr (by rw [← same]; exact List.mem_map_of_mem mem))
    cases isNew : new row with
    | none => simp [written, isNew]
    | some value =>
      simp [written, isNew, map_update_absent _ before, map_update_absent _ after]

end OtelFleet.Data
