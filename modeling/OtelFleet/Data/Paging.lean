import Mathlib.Data.List.Basic

/-! # Pages

Rows that are handed out page by page.  Each page comes with the cursor of the next one.
-/

namespace OtelFleet.Data

variable {α κ : Type}

/-- The rows that a client gets who follows the cursors to the end; the `n`-th request
    is `fetch n`. -/
inductive Follows (fetch : Nat → Option κ → List α × Option κ) : Nat → Option κ → List α → Prop where
  | last {n : Nat} {cursor : Option κ} {rows : List α} (page : fetch n cursor = (rows, none)) : Follows fetch n cursor rows
  | more {n : Nat} {cursor : Option κ} {rows rest : List α} {next : κ} (page : fetch n cursor = (rows, some next))
      (follows : Follows fetch (n + 1) (some next) rest) : Follows fetch n cursor (rows ++ rest)

theorem take_cases (list : List α) {limit : Nat} (positive : 0 < limit) :
    list.length < limit ∧ list.take limit = list ∨
      ∃ front last rest, list = front ++ last :: rest ∧ list.take limit = front ++ [last] ∧ (front ++ [last]).length = limit := by
  rcases Nat.lt_or_ge list.length limit with short | full
  · exact Or.inl ⟨short, List.take_of_length_le (Nat.le_of_lt short)⟩
  · obtain ⟨before, rfl⟩ := Nat.exists_eq_add_one.mpr positive
    refine Or.inr ⟨list.take before, list[before], list.drop (before + 1), ?_, List.take_succ_eq_append_getElem full, by simp; omega⟩
    rw [← List.drop_eq_getElem_cons full, List.take_append_drop]

end OtelFleet.Data
