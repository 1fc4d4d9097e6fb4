import Mathlib.Data.Option.Basic

/-! # Row locks of PostgreSQL -/

namespace OtelFleet.Store

/-- The row locks of foreign keys, of updates that leave the key, and of `FOR UPDATE`
    and deletions. -/
inductive LockMode where
  | keyShare
  | noKeyUpdate
  | forUpdate
deriving DecidableEq

def LockMode.conflicts : LockMode → LockMode → Bool
  | .keyShare, .forUpdate | .forUpdate, .keyShare => true
  | .keyShare, _ | _, .keyShare => false
  | _, _ => true

/-- Both are locks, on the same row and in modes that exclude each other. -/
def LocksConflict {ρ : Type} (own other : Option (ρ × LockMode)) : Prop :=
  ∃ lock ∈ own, ∃ held ∈ other, lock.1 = held.1 ∧ lock.2.conflicts held.2 = true

instance {ρ : Type} [DecidableEq ρ] (own other : Option (ρ × LockMode)) : Decidable (LocksConflict own other) :=
  inferInstanceAs (Decidable (∃ lock ∈ own, ∃ held ∈ other, lock.1 = held.1 ∧ lock.2.conflicts held.2 = true))

theorem LocksConflict.symm {ρ : Type} {own other : Option (ρ × LockMode)} (conflict : LocksConflict own other) :
    LocksConflict other own := by
  obtain ⟨⟨row, mode⟩, isLock, ⟨row', mode'⟩, isHeld, same, modes⟩ := conflict
  refine ⟨_, isHeld, _, isLock, same.symm, ?_⟩
  revert modes
  cases mode <;> cases mode' <;> exact fun modes => modes

end OtelFleet.Store
