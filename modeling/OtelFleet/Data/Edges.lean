import Mathlib.Data.List.Nodup
import Mathlib.Logic.Function.Basic

/-! # Edge-triggered observation

A level is remembered for every key.  An observation sets the level of its key, and it
is an edge when that level differs from the one remembered.  Over a list of
observations with distinct keys both are read off the list: the levels afterwards are
the observed ones, and the edges are the observations that differ from the level
before.
-/

namespace OtelFleet.Data

variable {κ ο : Type*} [DecidableEq κ] (key : ο → κ) (level : ο → Bool)

def levelsAfter (levels : κ → Bool) (observed : List ο) : κ → Bool :=
  observed.foldl (fun levels seen => Function.update levels (key seen) (level seen)) levels

def edges (levels : κ → Bool) : List ο → List ο
  | [] => []
  | seen :: observed =>
    (if level seen = levels (key seen) then [] else [seen]) ++
      edges (Function.update levels (key seen) (level seen)) observed

variable {key level} {levels : κ → Bool} {observed : List ο}

theorem levelsAfter_of_not_mem {k : κ} (absent : k ∉ observed.map key) :
    levelsAfter key level levels observed k = levels k := by
  induction observed generalizing levels with
  | nil => rfl
  | cons seen observed ih =>
    simp only [List.map_cons, List.mem_cons, not_or] at absent
    calc levelsAfter key level levels (seen :: observed) k
        = levelsAfter key level (Function.update levels (key seen) (level seen)) observed k := rfl
      _ = Function.update levels (key seen) (level seen) k := ih absent.2
      _ = levels k := Function.update_of_ne absent.1 _ _

theorem levelsAfter_of_mem (distinct : (observed.map key).Nodup) {seen : ο} (mem : seen ∈ observed) :
    levelsAfter key level levels observed (key seen) = level seen := by
  induction observed generalizing levels with
  | nil => cases mem
  | cons first observed ih =>
    rw [List.map_cons, List.nodup_cons] at distinct
    cases mem with
    | head =>
      calc levelsAfter key level levels (seen :: observed) (key seen)
          = levelsAfter key level (Function.update levels (key seen) (level seen)) observed (key seen) := rfl
        _ = Function.update levels (key seen) (level seen) (key seen) := levelsAfter_of_not_mem distinct.1
        _ = level seen := Function.update_self _ _ _
    | tail _ mem => exact ih distinct.2 mem

theorem edges_eq_filter (distinct : (observed.map key).Nodup) :
    edges key level levels observed = observed.filter fun seen => level seen ≠ levels (key seen) := by
  induction observed generalizing levels with
  | nil => rfl
  | cons first observed ih =>
    rw [List.map_cons, List.nodup_cons] at distinct
    have sameLevels : ∀ seen ∈ observed,
        decide (level seen ≠ Function.update levels (key first) (level first) (key seen)) =
          decide (level seen ≠ levels (key seen)) := by
      intro seen mem
      have other : key seen ≠ key first := fun same => distinct.1 (same ▸ List.mem_map_of_mem mem)
      rw [Function.update_of_ne other]
    rw [edges, ih distinct.2, List.filter_congr sameLevels]
    by_cases same : level first = levels (key first) <;> simp [same]

theorem isChain_edges (k : κ) {rest : List Bool} (chain : (levelsAfter key level levels observed k :: rest).IsChain (· ≠ ·)) :
    (levels k :: (((edges key level levels observed).filter fun seen => key seen = k).map level ++ rest)).IsChain (· ≠ ·) := by
  induction observed generalizing levels with
  | nil => exact chain
  | cons seen observed ih =>
    have later := @ih (Function.update levels (key seen) (level seen)) chain
    by_cases isKey : key seen = k
    · subst isKey
      rw [Function.update_self] at later
      by_cases same : level seen = levels (key seen)
      · rw [edges, if_pos same, ← same]
        exact later
      · rw [edges, if_neg same]
        simpa using ⟨Ne.symm same, later⟩
    · rw [Function.update_of_ne (Ne.symm isKey)] at later
      by_cases same : level seen = levels (key seen) <;> simpa [edges, same, isKey] using later

variable {high : ℕ → Prop} {n m m' : ℕ}

def Throughout (high : ℕ → Prop) (m n : ℕ) : Prop := ∀ k, m ≤ k → k ≤ n → high k

def Rises (high : ℕ → Prop) (m : ℕ) : Prop := high m ∧ ∀ k, k + 1 = m → ¬ high k

theorem exists_rises (now : high n) : ∃ m ≤ n, Throughout high m n ∧ Rises high m := by
  induction n with
  | zero =>
    refine ⟨0, Nat.le_refl 0, fun k _ below => ?_, now, fun k isZero => by omega⟩
    rwa [Nat.le_zero.mp below]
  | succ n ih =>
    by_cases before : high n
    · -- the stretch goes on
      obtain ⟨m, below, stretch, rises⟩ := ih before
      refine ⟨m, Nat.le_succ_of_le below, fun k above upTo => ?_, rises⟩
      cases Nat.le_or_eq_of_le_succ upTo with
      | inl upTo => exact stretch k above upTo
      | inr last => rwa [last]
    · refine ⟨n + 1, Nat.le_refl _, fun k above upTo => ?_, now, fun k next => ?_⟩
      · rwa [Nat.le_antisymm upTo above]
      · rwa [Nat.succ.inj next]

theorem Throughout.le_of_rises (stretch : Throughout high m n) (rises : Rises high m') (below : m' ≤ n) : m' ≤ m := by
  by_contra later
  obtain ⟨k, rfl⟩ : ∃ k, m' = k + 1 := ⟨m' - 1, by omega⟩
  exact rises.2 k rfl (stretch k (by omega) (by omega))

end OtelFleet.Data
