import Mathlib.Data.Finset.Card
import Mathlib.Data.List.AList

/-! # A bounded map that forgets what was used least recently

The entries stand in the order of their last use, the most recent first.  Reading
and writing move an entry to the front; when there are too many, the last ones go.
-/

namespace OtelFleet.Data

variable {α β : Type} [DecidableEq α]

structure Lru (α β : Type) where
  capacity : Nat
  items : AList fun _ : α => β
  bounded : items.entries.length ≤ capacity

namespace Lru

def empty (capacity : Nat) : Lru α β := ⟨capacity, ∅, Nat.zero_le _⟩

def lookup (cache : Lru α β) (key : α) : Option β := cache.items.lookup key

variable {items : AList fun _ : α => β}

theorem length_insert_of_mem {key : α} (mem : key ∈ items) (value : β) :
    (items.insert key value).entries.length = items.entries.length := by
  obtain ⟨found, before, after, _, isEntries, erased⟩ := List.exists_of_kerase mem
  rw [AList.entries_insert, erased, isEntries]
  simp only [List.length_cons, List.length_append]
  omega

theorem mem_of_lookup {cache : Lru α β} {key : α} {value : β} (isFound : cache.lookup key = some value) :
    key ∈ cache.items :=
  AList.lookup_isSome.mp (by rw [show cache.items.lookup key = some value from isFound]; rfl)

def refresh (cache : Lru α β) {key : α} (mem : key ∈ cache.items) (value : β) : Lru α β where
  capacity := cache.capacity
  items := cache.items.insert key value
  bounded := by
    rw [length_insert_of_mem mem]
    exact cache.bounded

def get (cache : Lru α β) (key : α) : Option β × Lru α β :=
  match isFound : cache.lookup key with
  | some value => (some value, cache.refresh (mem_of_lookup isFound) value)
  | none => (none, cache)

def evict (capacity : Nat) (items : AList fun _ : α => β) : Lru α β where
  capacity := capacity
  items := ⟨items.entries.take capacity, items.nodupKeys.sublist (List.take_sublist _ _)⟩
  bounded := List.length_take_le _ _

def put (cache : Lru α β) (key : α) (value : β) : Lru α β :=
  if mem : key ∈ cache.items then cache.refresh mem value
  else evict cache.capacity (cache.items.insert key value)

variable {cache : Lru α β} {key other : α} {value found : β}

@[simp] theorem get_fst (cache : Lru α β) (key : α) : (cache.get key).1 = cache.lookup key := by
  unfold get
  split
  · rename_i value isFound
    exact isFound.symm
  · rename_i absent
    exact absent.symm

theorem lookup_refresh (mem : key ∈ cache.items) :
    (cache.refresh mem value).lookup other = if other = key then some value else cache.lookup other := by
  unfold refresh lookup
  by_cases same : other = key
  · rw [if_pos same, same, AList.lookup_insert]
  · rw [if_neg same, AList.lookup_insert_ne same]

@[simp] theorem lookup_get (cache : Lru α β) (key other : α) : (cache.get key).2.lookup other = cache.lookup other := by
  unfold get
  split
  · rename_i value isFound
    rw [lookup_refresh]
    by_cases same : other = key
    · rw [if_pos same, same, isFound]
    · rw [if_neg same]
  · rfl

theorem lookup_of_evict {capacity : Nat} (isFound : (evict capacity items).lookup other = some found) :
    items.lookup other = some found := by
  have mem := AList.mem_lookup_iff.mp isFound
  exact AList.mem_lookup_iff.mpr (List.mem_of_mem_take mem)

theorem lookup_of_put (isFound : (cache.put key value).lookup other = some found) :
    other = key ∧ found = value ∨ other ≠ key ∧ cache.lookup other = some found := by
  have written : (cache.items.insert key value).lookup other = some found := by
    unfold put at isFound
    split at isFound
    · exact isFound
    · exact lookup_of_evict isFound
  by_cases same : other = key
  · subst same
    rw [AList.lookup_insert] at written
    exact Or.inl ⟨rfl, (Option.some.inj written).symm⟩
  · rw [AList.lookup_insert_ne same] at written
    exact Or.inr ⟨same, written⟩

theorem entries_put (cache : Lru α β) (key : α) (value : β) :
    (cache.put key value).items.entries = (cache.items.insert key value).entries.take cache.capacity := by
  unfold put
  split
  · rename_i mem
    exact (List.take_of_length_le (cache.refresh mem value).bounded).symm
  · rfl

@[simp] theorem capacity_put (cache : Lru α β) (key : α) (value : β) : (cache.put key value).capacity = cache.capacity := by
  unfold put
  split <;> rfl

theorem get_snd (cache : Lru α β) (key : α) : (cache.get key).2 = (cache.lookup key).elim cache (cache.put key) := by
  unfold get
  split
  · rename_i value isFound
    simp [isFound, put, mem_of_lookup isFound]
  · rename_i absent
    rw [absent, Option.elim_none]

theorem take_kerase (n : Nat) (key : α) (entries : List (Sigma fun _ : α => β)) :
    ((entries.take (n + 1)).kerase key).take n = (entries.kerase key).take n := by
  induction entries generalizing n with
  | nil => rfl
  | cons entry rest ih =>
    rw [List.take_succ_cons]
    by_cases same : key = entry.1
    · rw [List.kerase_cons_eq same, List.kerase_cons_eq same, List.take_take, Nat.min_self]
    · rw [List.kerase_cons_ne same, List.kerase_cons_ne same]
      cases n with
      | zero => rfl
      | succ n => rw [List.take_succ_cons, List.take_succ_cons, ih]

theorem dlookup_take (n : Nat) (key : α) (entries : List (Sigma fun _ : α => β)) :
    (entries.take n).dlookup key = if (entries.keys.takeWhile (· ≠ key)).length < n then entries.dlookup key else none := by
  induction entries generalizing n with
  | nil => simp
  | cons entry rest ih =>
    obtain ⟨first, value⟩ := entry
    cases n with
    | zero => simp
    | succ n =>
      rw [List.take_succ_cons, List.keys_cons]
      by_cases same : first = key
      · subst same
        simp
      · rw [List.dlookup_cons_ne _ _ (Ne.symm same), List.dlookup_cons_ne _ _ (Ne.symm same), ih,
          List.takeWhile_cons_of_pos (by simpa using same), List.length_cons]
        simp only [Nat.add_lt_add_iff_right]

/-- The cache holds the first entries of a map without a bound, whose keys stand in the
    order of their last use. -/
def Recent (used : List α) (last : α → Option β) (cache : Lru α β) : Prop :=
  ∃ all : AList fun _ : α => β, cache.items.entries = all.entries.take cache.capacity ∧ (∀ key, all.lookup key = last key) ∧
    ∀ key, (all.keys.takeWhile (· ≠ key)).toFinset = (used.takeWhile (· ≠ key)).toFinset

variable {used : List α} {last : α → Option β}

theorem recent_empty (capacity : Nat) : Recent [] (fun _ => none) (empty capacity : Lru α β) :=
  ⟨∅, by simp [empty], fun _ => rfl, fun _ => rfl⟩

theorem Recent.put (recent : Recent used last cache) (key : α) (value : β) :
    Recent (key :: used) (Function.update last key (some value)) (cache.put key value) := by
  obtain ⟨all, isTaken, isLast, sinceUsed⟩ := recent
  refine ⟨all.insert key value, ?_, ?_, ?_⟩
  · rw [entries_put, capacity_put, AList.entries_insert, AList.entries_insert, isTaken]
    cases cache.capacity with
    | zero => rfl
    | succ n => rw [List.take_succ_cons, List.take_succ_cons, take_kerase]
  · intro other
    by_cases same : other = key
    · rw [same, AList.lookup_insert, Function.update_self]
    · rw [AList.lookup_insert_ne same, Function.update_of_ne same, isLast]
  · intro other
    rw [AList.keys_insert, all.keys_nodup.erase_eq_filter]
    by_cases same : key = other
    · simp [same]
    · have passes : ∀ k, (!(k != key) || decide (k ≠ other)) = decide (k ≠ other) := by grind
      rw [List.takeWhile_cons_of_pos (by simpa using same), List.takeWhile_cons_of_pos (by simpa using same),
        List.takeWhile_filter, List.toFinset_cons, List.toFinset_cons, ← sinceUsed]
      simp only [passes]
      ext k
      by_cases isKey : k = key <;> simp [isKey]

theorem Recent.lookup (recent : Recent used last cache) (key : α) :
    cache.lookup key = if (used.takeWhile (· ≠ key)).toFinset.card < cache.capacity then last key else none := by
  obtain ⟨all, isTaken, isLast, sinceUsed⟩ := recent
  have distinct : (all.keys.takeWhile (· ≠ key)).Nodup := all.keys_nodup.sublist (List.takeWhile_sublist _)
  rw [← sinceUsed, List.toFinset_card_of_nodup distinct, ← isLast, Lru.lookup, AList.lookup, isTaken, dlookup_take]
  rfl

theorem Recent.get (recent : Recent used last cache) (isFound : cache.lookup key = some value) :
    Recent (key :: used) last (cache.get key).2 := by
  have isLast := isFound
  rw [recent.lookup, Option.ite_none_right_eq_some] at isLast
  rw [get_snd, isFound, ← Function.update_eq_self key last, isLast.2]
  exact recent.put key value

end Lru

end OtelFleet.Data
