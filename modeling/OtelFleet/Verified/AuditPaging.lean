import OtelFleet.Api.AuditLog

/-! # Paging through the audit log

The cursor is the last id of a full page, and ids are unique.  So rows that become
visible between two requests do not disturb the walk.
-/

namespace OtelFleet.Verified.AuditPaging

open Api Data

variable {filter : AuditFilter} {requested : Option Int} {cursor : Option Int}

abbrev Due (filter : AuditFilter) (log : AuditLog) (cursor : Option Int) (row : AuditRow) : Prop :=
  row ∈ log.rows ∧ filter.selects row = true ∧ ∀ before ∈ cursor, row.id < before

abbrev Decreasing (rows : List AuditRow) : Prop := rows.Pairwise fun a b => b.id < a.id

theorem auditLimit_pos (requested : Option Int) : 0 < auditLimit requested := by
  unfold auditLimit
  dsimp only
  split
  · decide
  · split
    · decide
    · omega

theorem page_cases (log : AuditLog) :
    (∃ rows, listAuditLog filter requested log cursor = (rows, none) ∧ Decreasing rows ∧
      ∀ row, row ∈ rows ↔ Due filter log cursor row) ∨
    ∃ rows last rest, listAuditLog filter requested log cursor = (rows ++ [last], some last.id) ∧
      Decreasing (rows ++ last :: rest) ∧ ∀ row, row ∈ rows ++ last :: rest ↔ Due filter log cursor row := by
  unfold listAuditLog AuditLog.list
  generalize isSorted : (log.rows.filter fun row => filter.selects row && cursor.all (row.id < ·)).insertionSort
    (fun a b => b.id ≤ a.id) = sorted
  have perm := isSorted ▸ List.perm_insertionSort (fun a b : AuditRow => b.id ≤ a.id) _
  have due : ∀ row, row ∈ sorted ↔ Due filter log cursor row := by
    intro row
    rw [perm.mem_iff]
    cases cursor <;> simp [Due]
  have decreasing : Decreasing sorted := by
    have distinct : sorted.Pairwise fun a b => a.id ≠ b.id :=
      List.pairwise_map.mp ((perm.map AuditRow.id).nodup_iff.mpr (log.ids.sublist (List.filter_sublist.map _)))
    have ordered := isSorted ▸ List.pairwise_insertionSort (fun a b : AuditRow => b.id ≤ a.id) _
    exact (ordered.and distinct).imp fun ⟨le, ne⟩ => lt_of_le_of_ne le ne.symm
  rcases take_cases sorted (auditLimit_pos requested) with ⟨short, taken⟩ | ⟨rows, last, rest, rfl, taken, full⟩
  · exact Or.inl ⟨sorted, by simp only [taken, if_neg (Nat.ne_of_lt short)], decreasing, due⟩
  · exact Or.inr ⟨rows, last, rest, by simp [taken, full], decreasing, due⟩

variable {logs : Nat → AuditLog}

/-- From a request on, the rows come in order, none that is due is left out, and all match. -/
def Walks (filter : AuditFilter) (requested : Option Int) (logs : Nat → AuditLog) (n : Nat) (cursor : Option Int) : Prop :=
  ∃ rows, Follows (fun n => listAuditLog filter requested (logs n)) n cursor rows ∧ Decreasing rows ∧
    (∀ row, Due filter (logs n) cursor row → row ∈ rows) ∧
      ∀ row ∈ rows, filter.selects row = true ∧ ∀ before ∈ cursor, row.id < before

variable (grows : ∀ n, (logs n).rows ⊆ (logs (n + 1)).rows)
include grows

theorem walks_of_next {n : Nat}
    (walks : ∀ next, 0 < next → (∀ before ∈ cursor, next < before) → Walks filter requested logs (n + 1) (some next)) :
    Walks filter requested logs n cursor := by
  rcases page_cases (logs n) with ⟨rows, page, sorted, due⟩ | ⟨rows, last, rest, page, sorted, due⟩
  · exact ⟨rows, .last page, sorted, fun row => (due row).mpr, fun row mem => ((due row).mp mem).2⟩
  · obtain ⟨isRow, isMatch, isBefore⟩ := (due last).mp (by simp)
    obtain ⟨later, follows, sortedLater, complete, sound⟩ := walks last.id ((logs n).positive last isRow) isBefore
    have past : ∀ row ∈ later, row.id < last.id := fun row mem => (sound row mem).2 _ rfl
    obtain ⟨_, _, ordered⟩ := List.pairwise_append.mp sorted
    refine ⟨_, .more page follows, List.pairwise_append.mpr ⟨sorted.sublist (by simp), sortedLater, ?_⟩, ?_, ?_⟩
    · intro row mem other isLater
      rcases List.mem_append.mp mem with first | isLast
      · exact (past other isLater).trans (ordered row first last List.mem_cons_self)
      · rw [List.mem_singleton.mp isLast]
        exact past other isLater
    · intro row isDue
      have mem := (due row).mpr isDue
      rw [← List.singleton_append, ← List.append_assoc, List.mem_append] at mem
      refine List.mem_append.mpr (mem.imp_right fun isRest => ?_)
      have less := (List.pairwise_cons.mp (List.pairwise_append.mp sorted).2.1).1 row isRest
      exact complete row ⟨grows n isDue.1, isDue.2.1, by rintro _ ⟨⟩; exact less⟩
    · intro row mem
      rcases List.mem_append.mp mem with first | isLater
      · exact ((due row).mp (by simp at first ⊢; tauto)).2
      · exact ⟨(sound row isLater).1, fun before isCursor => (past row isLater).trans (isBefore before isCursor)⟩

/-- Following the cursors ends.  It gives every entry that matches and was visible at the
    first request, and only entries that match, in strictly decreasing order of ids. -/
theorem audit_paging_complete (filter : AuditFilter) (requested : Option Int) :
    ∃ rows, Follows (fun n => listAuditLog filter requested (logs n)) 0 none rows ∧
      rows.Pairwise (fun a b => b.id < a.id) ∧ (∀ row ∈ (logs 0).rows, filter.selects row = true → row ∈ rows) ∧
        ∀ row ∈ rows, filter.selects row = true := by
  -- the cursors are positive and decrease
  have walks : ∀ bound n before, before.toNat ≤ bound → Walks filter requested logs n (some before) := by
    intro bound
    induction bound with
    | zero => exact fun n before small => walks_of_next grows fun next positive less => by have := less _ rfl; omega
    | succ bound ih =>
      intro n before small
      apply walks_of_next grows
      intro next positive less
      have := less _ rfl
      exact ih (n + 1) next (by omega)
  obtain ⟨rows, follows, sorted, complete, sound⟩ := walks_of_next grows fun next _ _ => walks next.toNat 1 next le_rfl
  exact ⟨rows, follows, sorted, fun row isRow isMatch => complete row ⟨isRow, isMatch, by simp⟩, fun row => (sound row · |>.1)⟩

omit grows

def entryOf (id : Int) : AuditRow :=
  ⟨id, 0, { actorUserID := none, action := "customer.create", entityType := "customer", entityID := "1", payload := .null }⟩

def lateEntry : Nat → AuditLog
  | 0 => ⟨[entryOf 3, entryOf 1], by decide, by decide⟩
  | _ + 1 => ⟨[entryOf 3, entryOf 1, entryOf 2], by decide, by decide⟩

theorem lateEntry_complete :
    (∀ n, (lateEntry n).rows ⊆ (lateEntry (n + 1)).rows) ∧
      ∃ rows, Follows (fun n => listAuditLog {} (some 1) (lateEntry n)) 0 none rows ∧
        rows.Pairwise (fun a b => b.id < a.id) ∧ (∀ row ∈ (lateEntry 0).rows, AuditFilter.selects {} row = true → row ∈ rows) ∧
          ∀ row ∈ rows, AuditFilter.selects {} row = true := by
  have grows : ∀ n, (lateEntry n).rows ⊆ (lateEntry (n + 1)).rows := by
    intro n
    cases n with
    | zero => simp [lateEntry]
    | succ n => exact List.Subset.refl _
  exact ⟨grows, audit_paging_complete grows {} (some 1)⟩

end OtelFleet.Verified.AuditPaging
