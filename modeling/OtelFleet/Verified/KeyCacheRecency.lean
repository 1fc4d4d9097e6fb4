import OtelFleet.Collector.KeyCache

/-! # The key cache forgets what was used least recently

The linked list and the map behave as the bounded map of the model of the extension.
What is still there is decided by the keys used since.
-/

namespace OtelFleet.Collector.Cache

open Data TenantAuth

variable {ll : List Nat} {items : AList fun _ : String => Nat} {value : Nat → LruItem} {c : KeyCache}
  {lru : Lru String CacheEntry} {hash : String}

def pointer (value : Nat → LruItem) (el : Nat) : Sigma fun _ : String => Nat := ⟨(value el).key, el⟩

def content (value : Nat → LruItem) (el : Nat) : Sigma fun _ : String => CacheEntry := ⟨(value el).key, (value el).entry⟩

theorem evict_reverse {maxEntries : Nat} (index : items.entries.Perm (ll.map (pointer value))) :
    (evict maxEntries value ll.reverse items).1 = (ll.take maxEntries).reverse ∧
      (evict maxEntries value ll.reverse items).2.entries.Perm ((ll.take maxEntries).map (pointer value)) := by
  induction ll using List.reverseRecOn generalizing items with
  | nil => simpa [evict] using index
  | append_singleton front oldest ih =>
    have length : items.keys.length = front.length + 1 := by
      simpa [AList.keys, List.keys] using index.length_eq
    rw [List.reverse_append, List.reverse_singleton, List.singleton_append, evict]
    split
    · have next : (items.erase (value oldest).key).entries.Perm (front.map (pointer value)) :=
        ((index.trans (List.perm_append_comm.map _)).kerase items.nodupKeys).trans (.of_eq (List.kerase_cons_eq rfl))
      rw [List.take_append_of_le_length (by omega)]
      exact ih next
    · rw [List.take_of_length_le (by simp; omega)]
      exact ⟨by simp, index⟩

/-- The cache holds what the bounded map holds, in the same order, and the map leads to
    the elements. -/
structure Refines (c : KeyCache) (lru : Lru String CacheEntry) : Prop where
  index : c.items.entries.Perm (c.ll.map (pointer c.value))
  allocated : ∀ el ∈ c.ll, el < c.allocated
  capacity : lru.capacity = c.maxEntries
  entries : lru.items.entries = c.ll.map (content c.value)

namespace Refines

variable (refines : Refines c lru)
include refines

theorem keys_eq : lru.items.keys = c.ll.map fun el => (c.value el).key := by
  simp [AList.keys, List.keys, refines.entries, content]

theorem keys : c.items.keys.Perm lru.items.keys := by
  rw [refines.keys_eq]
  simpa [AList.keys, List.keys, pointer, Function.comp_def] using refines.index.map Sigma.fst

theorem lookup_eq_none (absent : c.items.lookup hash = none) : lru.lookup hash = none := by
  rw [Lru.lookup, AList.lookup_eq_none, AList.mem_keys, ← refines.keys.mem_iff]
  exact AList.lookup_eq_none.mp absent

theorem lookup_eq_some {el : Nat} (found : c.items.lookup hash = some el) :
    el ∈ c.ll ∧ (c.value el).key = hash ∧ lru.lookup hash = some (c.value el).entry := by
  obtain ⟨_, mem, isPointer⟩ := List.mem_map.mp (refines.index.mem_iff.mp (AList.mem_lookup_iff.mp found))
  cases isPointer
  refine ⟨mem, rfl, AList.mem_lookup_iff.mpr ?_⟩
  rw [refines.entries]
  exact List.mem_map_of_mem mem

theorem use {el : Nat} (found : c.items.lookup hash = some el) (e : CacheEntry) :
    Refines { c with value := Function.update c.value el ⟨(c.value el).key, e⟩, ll := moveToFront el c.ll } (lru.put hash e) := by
  obtain ⟨mem, rfl, isEntry⟩ := refines.lookup_eq_some found
  have perm := List.perm_cons_erase mem
  have distinct := refines.keys_eq ▸ lru.items.keys_nodup
  have sameKey : pointer (Function.update c.value el ⟨(c.value el).key, e⟩) = pointer c.value := by
    funext other
    by_cases same : other = el <;> simp [pointer, same]
  refine ⟨?_, fun other isOther => refines.allocated other (perm.mem_iff.mpr isOther), ?_, ?_⟩
  · rw [sameKey]
    exact refines.index.trans (perm.map _)
  · rw [Lru.capacity_put, refines.capacity]
  · have others : ∀ other ∈ c.ll.erase el, content (Function.update c.value el ⟨(c.value el).key, e⟩) other = content c.value other := by
      intro other isOther
      rw [content, Function.update_of_ne ((List.Nodup.of_map _ distinct).mem_erase_iff.mp isOther).1]
      rfl
    obtain ⟨front, back, _, isList, erased⟩ := List.exists_erase_eq mem
    rw [isList, List.map_append, List.map_cons, List.nodup_middle, List.nodup_cons, List.mem_append, not_or] at distinct
    have notFront : (c.value el).key ∉ (front.map (content c.value)).keys := by
      simpa [List.keys, content] using distinct.1.1
    have kept : (c.ll.map (content c.value)).kerase (c.value el).key = (c.ll.erase el).map (content c.value) := by
      rw [erased, isList, List.map_append, List.map_append, List.kerase_append_right notFront]
      exact congrArg _ (List.kerase_cons_eq rfl)
    rw [Lru.put, dif_pos (Lru.mem_of_lookup isEntry), moveToFront, List.map_cons, List.map_congr_left others, ← kept, ← refines.entries]
    simp only [content, Function.update_self]
    rfl

theorem get (hash : String) : (c.get hash).1 = lru.lookup hash ∧ Refines (c.get hash).2 (lru.get hash).2 := by
  unfold KeyCache.get
  cases found : c.items.lookup hash with
  | none =>
    rw [Lru.get_snd, refines.lookup_eq_none found]
    exact ⟨rfl, refines⟩
  | some el =>
    obtain ⟨_, _, isEntry⟩ := refines.lookup_eq_some found
    have next := refines.use found (c.value el).entry
    rw [Function.update_eq_self] at next
    rw [Lru.get_snd, isEntry]
    exact ⟨rfl, next⟩

theorem put (hash : String) (e : CacheEntry) : Refines (c.put hash e) (lru.put hash e) := by
  unfold KeyCache.put
  cases found : c.items.lookup hash with
  | some el => exact refines.use found e
  | none =>
    dsimp only
    -- the items of the other elements are not touched
    have isNew : Function.update c.value c.allocated ⟨hash, e⟩ c.allocated = ⟨hash, e⟩ := Function.update_self ..
    have others : ∀ el ∈ c.ll, Function.update c.value c.allocated ⟨hash, e⟩ el = c.value el := fun el mem =>
      Function.update_of_ne (Nat.ne_of_lt (refines.allocated el mem)) _ _
    generalize Function.update c.value c.allocated ⟨hash, e⟩ = value at isNew others
    have pointers : c.ll.map (pointer value) = c.ll.map (pointer c.value) :=
      List.map_congr_left fun el mem => by rw [pointer, others el mem, pointer]
    have contents : c.ll.map (content value) = c.ll.map (content c.value) :=
      List.map_congr_left fun el mem => by rw [content, others el mem, content]
    have index : (c.items.insert hash c.allocated).entries.Perm ((c.allocated :: c.ll).map (pointer value)) := by
      rw [AList.entries_insert_of_notMem (AList.lookup_eq_none.mp found), List.map_cons, pointers, pointer, isNew]
      exact refines.index.cons _
    obtain ⟨dropped, indexed⟩ := @evict_reverse _ _ _ c.maxEntries index
    rw [dropped, List.reverse_reverse]
    refine ⟨indexed, fun el mem => ?_, ?_, ?_⟩
    · cases List.mem_cons.mp (List.mem_of_mem_take mem) with
      | inl isLast => simp [isLast]
      | inr isOld => exact Nat.lt_succ_of_lt (refines.allocated el isOld)
    · rw [Lru.capacity_put, refines.capacity]
    · dsimp only
      rw [Lru.entries_put, refines.capacity, AList.entries_insert_of_notMem, refines.entries, List.map_take, List.map_cons,
        contents, content, isNew]
      exact AList.lookup_eq_none.mp (refines.lookup_eq_none found)

end Refines

inductive Call where
  | get (hash : String)
  | put (hash : String) (e : CacheEntry)

/-- The cache and the keys that were used, the last one first.  A key that is got is used
    if it is there. -/
def perform (state : KeyCache × List String) : Call → KeyCache × List String
  | .get hash => ((state.1.get hash).2, if (state.1.get hash).1.isSome then hash :: state.2 else state.2)
  | .put hash e => (state.1.put hash e, hash :: state.2)

def lastPut (last : String → Option CacheEntry) : Call → String → Option CacheEntry
  | .get _ => last
  | .put hash e => Function.update last hash (some e)

def serve (lru : Lru String CacheEntry) : Call → Lru String CacheEntry
  | .get hash => (lru.get hash).2
  | .put hash e => lru.put hash e

structure Explained (maxEntries : Nat) (last : String → Option CacheEntry) (lru : Lru String CacheEntry)
    (state : KeyCache × List String) : Prop where
  capacity : lru.capacity = maxEntries
  refines : Refines state.1 lru
  recent : lru.Recent state.2 last

section

variable {maxEntries : Nat} {last : String → Option CacheEntry} {state : KeyCache × List String}

theorem Explained.perform (explained : Explained maxEntries last lru state) (call : Call) :
    Explained maxEntries (lastPut last call) (serve lru call) (perform state call) := by
  obtain ⟨isCapacity, refines, recent⟩ := explained
  cases call with
  | put hash e => exact ⟨(lru.capacity_put hash e).trans isCapacity, refines.put hash e, recent.put hash e⟩
  | get hash =>
    obtain ⟨answer, next⟩ := refines.get hash
    have step := lru.get_snd hash
    simp only [Cache.perform, answer, serve]
    cases isFound : lru.lookup hash <;> rw [isFound] at step
    · exact ⟨step ▸ isCapacity, next, step ▸ recent⟩
    · rename_i entry
      exact ⟨step ▸ (lru.capacity_put hash entry).trans isCapacity, next, recent.get isFound⟩

theorem Explained.foldl (explained : Explained maxEntries last lru state) (calls : List Call) :
    Explained maxEntries (calls.foldl lastPut last) (calls.foldl serve lru) (calls.foldl Cache.perform state) := by
  induction calls generalizing last lru state with
  | nil => exact explained
  | cons call rest ih => exact ih (explained.perform call)

end

theorem explained_new (maxEntries : Nat) :
    Explained maxEntries (fun _ => none) (.empty maxEntries) (newKeyCache maxEntries, []) :=
  ⟨rfl, ⟨.nil, by simp [newKeyCache], rfl, rfl⟩, Lru.recent_empty maxEntries⟩

def after (maxEntries : Nat) (calls : List Call) : KeyCache × List String := calls.foldl perform (newKeyCache maxEntries, [])

/-- The map and the list hold the same keys, at most `maxEntries`.  A key has the entry
    that was put last if fewer than `maxEntries` other keys were used since its last use,
    and else it is absent. -/
theorem keyCache_lru (maxEntries : Nat) (calls : List Call) :
    let (c, used) := after maxEntries calls
    c.items.keys.Perm (c.ll.map fun el => (c.value el).key) ∧ (c.ll.map fun el => (c.value el).key).Nodup ∧ c.ll.length ≤ maxEntries ∧
      ∀ hash, (c.get hash).1 =
        if (used.takeWhile (· ≠ hash)).toFinset.card < maxEntries then calls.foldl lastPut (fun _ => none) hash else none := by
  obtain ⟨isCapacity, refines, recent⟩ := (explained_new maxEntries).foldl calls
  generalize calls.foldl serve (.empty maxEntries) = lru at *
  subst isCapacity
  refine ⟨refines.keys_eq ▸ refines.keys, refines.keys_eq ▸ lru.items.keys_nodup, ?_, fun hash => ?_⟩
  · have bounded := lru.bounded
    rwa [refines.entries, List.length_map] at bounded
  · exact (refines.get hash).1.trans (recent.lookup hash)

/-- **Refinement.**  Whatever the calls, the list and the map hold what the bounded map
    holds that the extension is verified with, and answer every key as it does. -/
theorem keyCache_refines (maxEntries : Nat) (calls : List Call) :
    let c := (after maxEntries calls).1
    let lru := calls.foldl serve (.empty maxEntries)
    Refines c lru ∧ ∀ hash, (c.get hash).1 = lru.lookup hash :=
  have refines := ((explained_new maxEntries).foldl calls).refines
  ⟨refines, fun hash => (refines.get hash).1⟩

end OtelFleet.Collector.Cache
