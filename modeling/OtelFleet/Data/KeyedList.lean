import Mathlib.Data.List.Basic
import Mathlib.Data.List.Perm.Basic

/-! # Lists of entries with repeated keys

An attribute list on the wire is no map: a key may occur any number of times.
`EntryList` collects what a list of this kind promises about removing a key,
which is only that at most one entry goes, and `putFirst` is the update that
overwrites the first entry or appends one.
-/

namespace OtelFleet.Data

variable {κ ν : Type*}

def select (keep : κ → Bool) (entries : List (κ × ν)) : List (κ × ν) :=
  entries.filter fun entry => keep entry.1

theorem select_cons (keep : κ → Bool) (entry : κ × ν) (entries : List (κ × ν)) :
    select keep (entry :: entries) =
      if keep entry.1 then entry :: select keep entries else select keep entries := by
  simp [select, List.filter_cons]

variable [DecidableEq κ]

def entriesOf (key : κ) (entries : List (κ × ν)) : List (κ × ν) :=
  select (fun k => k = key) entries

def putFirst (key : κ) (value : ν) : List (κ × ν) → List (κ × ν)
  | [] => [(key, value)]
  | (k, v) :: rest => if k = key then (k, value) :: rest else (k, v) :: putFirst key value rest

/-- A removal that deletes one entry of the key if there is any, and may reorder
    the others. -/
structure EntryList (κ ν : Type*) where
  remove : κ → List (κ × ν) → List (κ × ν)
  remove_absent : ∀ (key : κ) (entries : List (κ × ν)),
    (∀ entry ∈ entries, entry.1 ≠ key) → remove key entries = entries
  remove_present : ∀ (key : κ) (entries : List (κ × ν)), (∃ entry ∈ entries, entry.1 = key) →
    ∃ entry, entry.1 = key ∧ entries.Perm (entry :: remove key entries)

variable {key : κ}

theorem mem_entriesOf {entry : κ × ν} {entries : List (κ × ν)} :
    entry ∈ entriesOf key entries ↔ entry ∈ entries ∧ entry.1 = key := by
  simp [entriesOf, select]

variable {keep : κ → Bool}

theorem select_putFirst (dropped : keep key = false) (value : ν) (entries : List (κ × ν)) :
    select keep (putFirst key value entries) = select keep entries := by
  induction entries with
  | nil => simp [putFirst, select, dropped]
  | cons entry rest ih =>
    obtain ⟨k, v⟩ := entry
    by_cases same : k = key
    · subst k
      simp [putFirst, select_cons, dropped]
    · simp [putFirst, same, select_cons, ih]

theorem entriesOf_putFirst (key : κ) (value : ν) (entries : List (κ × ν)) :
    entriesOf key (putFirst key value entries) = (key, value) :: (entriesOf key entries).tail := by
  induction entries with
  | nil => simp [putFirst, entriesOf, select]
  | cons entry rest ih =>
    obtain ⟨k, v⟩ := entry
    by_cases same : k = key
    · subst k
      simp [putFirst, entriesOf, select_cons]
    · simpa [putFirst, same, entriesOf, select_cons] using ih

variable {keys : List κ}

namespace EntryList

variable (lib : EntryList κ ν)

theorem select_remove (dropped : keep key = false) (entries : List (κ × ν)) :
    (select keep (lib.remove key entries)).Perm (select keep entries) := by
  by_cases present : ∃ entry ∈ entries, entry.1 = key
  · obtain ⟨entry, rfl, perm⟩ := lib.remove_present key entries present
    have selected := perm.filter fun entry => keep entry.1
    rw [List.filter_cons_of_neg (by simp [dropped])] at selected
    exact selected.symm
  · push Not at present
    rw [lib.remove_absent key entries present]

theorem entriesOf_remove_of_ne {other : κ} (distinct : other ≠ key) (entries : List (κ × ν)) :
    (entriesOf key (lib.remove other entries)).Perm (entriesOf key entries) :=
  lib.select_remove (by simp [distinct]) entries

theorem entriesOf_remove (key : κ) (entries : List (κ × ν)) :
    (entriesOf key (lib.remove key entries)).Subperm (entriesOf key entries) ∧
      (entriesOf key (lib.remove key entries)).length = (entriesOf key entries).length - 1 := by
  by_cases present : ∃ entry ∈ entries, entry.1 = key
  · obtain ⟨entry, sameKey, perm⟩ := lib.remove_present key entries present
    have selected := perm.filter fun entry => entry.1 = key
    rw [List.filter_cons_of_pos (by simp [sameKey])] at selected
    exact ⟨(List.sublist_cons_self _ _).subperm.trans selected.symm.subperm, (Nat.sub_eq_of_eq_add selected.length_eq).symm⟩
  · push Not at present
    have none : entriesOf key entries = [] := by
      simpa [entriesOf, select] using present
    rw [lib.remove_absent key entries present, none]
    exact ⟨.refl _, rfl⟩

theorem mem_remove_of_ne {entry : κ × ν} (distinct : entry.1 ≠ key) {entries : List (κ × ν)}
    (mem : entry ∈ entries) : entry ∈ lib.remove key entries := by
  have selected := lib.entriesOf_remove_of_ne (Ne.symm distinct) entries
  exact (mem_entriesOf.mp (selected.mem_iff.mpr (mem_entriesOf.mpr ⟨mem, rfl⟩))).1

def removeEach (keys : List κ) (entries : List (κ × ν)) : List (κ × ν) :=
  keys.foldl (fun entries key => lib.remove key entries) entries

theorem select_removeEach (dropped : ∀ key ∈ keys, keep key = false) (entries : List (κ × ν)) :
    (select keep (lib.removeEach keys entries)).Perm (select keep entries) := by
  induction keys generalizing entries with
  | nil => exact List.Perm.refl _
  | cons key keys ih =>
    obtain ⟨head, tail⟩ := List.forall_mem_cons.mp dropped
    exact (ih tail _).trans (lib.select_remove head entries)

theorem entriesOf_removeEach_of_notMem (notMem : key ∉ keys) (entries : List (κ × ν)) :
    (entriesOf key (lib.removeEach keys entries)).Perm (entriesOf key entries) := by
  refine lib.select_removeEach (fun other mem => ?_) entries
  have distinct : other ≠ key := fun same => notMem (same ▸ mem)
  simpa using distinct

theorem entriesOf_removeEach (mem : key ∈ keys) (nodup : keys.Nodup) (entries : List (κ × ν)) :
    (entriesOf key (lib.removeEach keys entries)).Subperm (entriesOf key entries) ∧
      (entriesOf key (lib.removeEach keys entries)).length = (entriesOf key entries).length - 1 := by
  induction keys generalizing entries with
  | nil => exact absurd mem List.not_mem_nil
  | cons head keys ih =>
    obtain ⟨notMem, tailNodup⟩ := List.nodup_cons.mp nodup
    rcases List.mem_cons.mp mem with rfl | later
    · -- this removal is the one that counts; the later keys are others
      have rest := lib.entriesOf_removeEach_of_notMem notMem (lib.remove key entries)
      obtain ⟨part, length⟩ := lib.entriesOf_remove key entries
      exact ⟨rest.subperm.trans part, rest.length_eq.trans length⟩
    · have distinct : head ≠ key := fun same => notMem (same ▸ later)
      have first := lib.entriesOf_remove_of_ne distinct entries
      obtain ⟨part, length⟩ := ih later tailNodup (lib.remove head entries)
      exact ⟨part.trans first.subperm, first.length_eq ▸ length⟩

end EntryList

/-! ## Two removals

`EntryList.first` deletes the first entry of the key and keeps the order.
`EntryList.deferring spared` spares one given entry as long as another of the
same key can go instead, and moves it to the end, where no `putFirst` reaches
it while there are others in front. -/

def removeFirst (key : κ) (entries : List (κ × ν)) : List (κ × ν) :=
  entries.eraseP fun entry => entry.1 = key

theorem removeFirst_absent (key : κ) (entries : List (κ × ν))
    (absent : ∀ entry ∈ entries, entry.1 ≠ key) : removeFirst key entries = entries :=
  List.eraseP_of_forall_not (by simpa using absent)

theorem removeFirst_present (key : κ) (entries : List (κ × ν))
    (present : ∃ entry ∈ entries, entry.1 = key) :
    ∃ entry, entry.1 = key ∧ entries.Perm (entry :: removeFirst key entries) := by
  obtain ⟨witness, mem, sameKey⟩ := present
  obtain ⟨entry, front, back, _, found, split, erased⟩ :=
    List.exists_of_eraseP (p := fun entry => entry.1 = key) mem (by simpa using sameKey)
  refine ⟨entry, by simpa using found, ?_⟩
  rw [removeFirst, erased, split]
  exact List.perm_middle

def EntryList.first : EntryList κ ν where
  remove := removeFirst
  remove_absent := removeFirst_absent
  remove_present := removeFirst_present

variable [DecidableEq ν] (spared : κ × ν)

/-- Delete an entry other than `spared`, which moves to the end. -/
def removeDeferring (key : κ) (entries : List (κ × ν)) : List (κ × ν) :=
  if spared ∈ entries ∧ ∃ entry ∈ entries.erase spared, entry.1 = key then
    removeFirst key (entries.erase spared) ++ [spared]
  else removeFirst key entries

theorem removeDeferring_present (key : κ) (entries : List (κ × ν))
    (present : ∃ entry ∈ entries, entry.1 = key) :
    ∃ entry, entry.1 = key ∧ entries.Perm (entry :: removeDeferring spared key entries) := by
  unfold removeDeferring
  split
  next deferred =>
    obtain ⟨entry, sameKey, perm⟩ := removeFirst_present key _ deferred.2
    refine ⟨entry, sameKey, ?_⟩
    calc
      List.Perm entries (spared :: entries.erase spared) := List.perm_cons_erase deferred.1
      List.Perm _ (spared :: entry :: removeFirst key (entries.erase spared)) := perm.cons spared
      List.Perm _ (entry :: spared :: removeFirst key (entries.erase spared)) := List.Perm.swap _ _ _
      List.Perm _ (entry :: (removeFirst key (entries.erase spared) ++ [spared])) :=
        (List.perm_append_singleton _ _).symm.cons entry
  next => exact removeFirst_present key entries present

def EntryList.deferring : EntryList κ ν where
  remove := removeDeferring spared
  remove_absent key entries absent := by
    rw [removeDeferring, if_neg, removeFirst_absent key entries absent]
    rintro ⟨_, entry, mem, sameKey⟩
    exact absent entry (List.mem_of_mem_erase mem) sameKey
  remove_present := removeDeferring_present spared

def Deferred (entries : List (κ × ν)) : Prop := ∃ front, entries = front ++ [spared]

variable {spared}

theorem deferred_remove {entries : List (κ × ν)} (mem : spared ∈ entries)
    (repeated : 2 ≤ (entriesOf spared.1 entries).length) :
    Deferred spared ((EntryList.deferring spared).remove spared.1 entries) := by
  have another : ∃ entry ∈ entries.erase spared, entry.1 = spared.1 := by
    have selected := (List.perm_cons_erase mem).filter fun entry => entry.1 = spared.1
    rw [List.filter_cons_of_pos (by simp)] at selected
    have positive : 0 < (entriesOf spared.1 (entries.erase spared)).length := by
      have lengths := selected.length_eq
      simp only [entriesOf, select] at repeated ⊢
      simp only [List.length_cons] at lengths
      omega
    obtain ⟨entry, found⟩ := List.exists_mem_of_length_pos positive
    exact ⟨entry, mem_entriesOf.mp found⟩
  exact ⟨_, if_pos ⟨mem, another⟩⟩

theorem Deferred.remove (distinct : spared.1 ≠ key) {entries : List (κ × ν)} (deferred : Deferred spared entries) :
    Deferred spared ((EntryList.deferring spared).remove key entries) := by
  obtain ⟨front, rfl⟩ := deferred
  by_cases another : ∃ entry ∈ (front ++ [spared]).erase spared, entry.1 = key
  · exact ⟨_, if_pos ⟨by simp, another⟩⟩
  · -- no entry of the key is left, so nothing moves
    refine ⟨front, (EntryList.deferring spared).remove_absent key _ fun entry mem sameKey => another ?_⟩
    have different : entry ≠ spared := fun same => distinct (same ▸ sameKey)
    exact ⟨entry, (List.mem_erase_of_ne different).mpr mem, sameKey⟩

theorem Deferred.removeEach (notMem : spared.1 ∉ keys) {entries : List (κ × ν)} (deferred : Deferred spared entries) :
    Deferred spared ((EntryList.deferring spared).removeEach keys entries) := by
  induction keys generalizing entries with
  | nil => exact deferred
  | cons key keys ih =>
    obtain ⟨distinct, later⟩ := List.ne_and_not_mem_of_not_mem_cons notMem
    exact ih later (deferred.remove distinct)

theorem deferred_removeEach (inKeys : spared.1 ∈ keys) (nodup : keys.Nodup) {entries : List (κ × ν)}
    (mem : spared ∈ entries) (repeated : 2 ≤ (entriesOf spared.1 entries).length) :
    Deferred spared ((EntryList.deferring spared).removeEach keys entries) := by
  induction keys generalizing entries with
  | nil => exact absurd inKeys List.not_mem_nil
  | cons key keys ih =>
    obtain ⟨notMem, tailNodup⟩ := List.nodup_cons.mp nodup
    by_cases same : spared.1 = key
    · subst key
      exact (deferred_remove mem repeated).removeEach notMem
    · have later := (List.mem_cons.mp inKeys).resolve_left same
      refine ih later tailNodup
        ((EntryList.deferring spared).mem_remove_of_ne same mem) ?_
      rwa [((EntryList.deferring spared).entriesOf_remove_of_ne (Ne.symm same) entries).length_eq]

omit [DecidableEq ν] in
theorem Deferred.mem_tail {entries : List (κ × ν)} (deferred : Deferred spared entries)
    (repeated : 2 ≤ (entriesOf spared.1 entries).length) :
    spared ∈ (entriesOf spared.1 entries).tail := by
  obtain ⟨front, rfl⟩ := deferred
  have split : entriesOf spared.1 (front ++ [spared]) = entriesOf spared.1 front ++ [spared] := by
    simp [entriesOf, select]
  rw [split] at repeated ⊢
  cases shape : entriesOf spared.1 front with
  | nil => simp [shape] at repeated
  | cons entry rest => simp

end OtelFleet.Data
