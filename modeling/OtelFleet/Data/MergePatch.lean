import OtelFleet.Data.Json

/-! # JSON merge patch

The merge of RFC 7386: objects are merged key by key, `null` deletes a key and
every other value replaces.  By `mergePatch_eq_iff`, merging leaves exactly the
patch if and only if the patch `Covers` the target.
-/

namespace OtelFleet.Data

namespace Json

mutual
/-- `mergePatch patch target` is what `target` becomes. -/
def mergePatch : Json → Json → Json
  | .obj patch, target => .obj (mergeFields patch target.fields)
  | patch, _ => patch

def mergeFields : List (String × Json) → List (String × Json) → List (String × Json)
  | [], target => target
  | (key, .null) :: patch, target => mergeFields patch (eraseKey key target)
  | (key, value) :: patch, target =>
    mergeFields patch (insertKey key (mergePatch value ((target.lookup key).getD .null)) target)
end

mutual
/-- The patch has no `null` member, and wherever it merges an object into an
    object it names every key that is there. -/
def Covers : Json → Json → Prop
  | .obj patch, target =>
    (∀ field ∈ target.fields, patch.lookup field.1 ≠ none) ∧ CoversFields patch target.fields
  | _, _ => True

def CoversFields : List (String × Json) → List (String × Json) → Prop
  | [], _ => True
  | (key, value) :: patch, target =>
    value ≠ .null ∧ Covers value ((target.lookup key).getD .null) ∧ CoversFields patch target
end

variable {patch target : List (String × Json)}

theorem coversFields_iff : CoversFields patch target ↔ ∀ field ∈ patch,
      field.2 ≠ .null ∧ Covers field.2 ((target.lookup field.1).getD .null) := by
  induction patch with
  | nil => simp [CoversFields]
  | cons field rest ih =>
    simp [CoversFields, ih, and_assoc]

def mergedMember (patched : Option Json) (old : Option Json) : Option Json :=
  match patched with
  | none => old
  | some .null => none
  | some value => some (mergePatch value (old.getD .null))

theorem mergeFields_cons_of_ne_null {key : String} {value : Json} (present : value ≠ .null)
    (patch target : List (String × Json)) :
    mergeFields ((key, value) :: patch) target =
      mergeFields patch (insertKey key (mergePatch value ((target.lookup key).getD .null)) target) := by
  cases value with
  | null => exact absurd rfl present
  | bool _ | num _ | str _ | arr _ | obj _ => rfl

theorem mergedMember_of_ne_null {value : Json} (present : value ≠ .null) (old : Option Json) :
    mergedMember (some value) old = some (mergePatch value (old.getD .null)) := by
  cases value with
  | null => exact absurd rfl present
  | bool _ | num _ | str _ | arr _ | obj _ => rfl

theorem sortedKeys_mergeFields (patch : List (String × Json))
    (sorted : SortedKeys target) : SortedKeys (mergeFields patch target) := by
  induction patch generalizing target with
  | nil => exact sorted
  | cons field rest ih =>
    obtain ⟨key, value⟩ := field
    by_cases deleted : value = .null
    · subst value
      exact ih (sorted.eraseKey key)
    · rw [mergeFields_cons_of_ne_null deleted]
      exact ih (sorted.insertKey key _)

theorem lookup_mergeFields (sorted : SortedKeys patch) (target : List (String × Json)) (key : String) :
    (mergeFields patch target).lookup key = mergedMember (patch.lookup key) (target.lookup key) := by
  induction patch generalizing target with
  | nil => rfl
  | cons field rest ih =>
    obtain ⟨k, value⟩ := field
    obtain ⟨above, tailSorted⟩ := List.pairwise_cons.mp sorted
    -- the key just handled does not come back in the rest of the patch
    have handled : rest.lookup k = none :=
      lookup_eq_none_iff.mpr fun field mem => ne_of_gt (above field mem)
    rw [lookup_cons]
    by_cases deleted : value = .null
    · subst value
      rw [mergeFields, ih tailSorted, lookup_eraseKey]
      by_cases same : key = k
      · subst key
        simp [handled, mergedMember]
      · simp [same]
    · rw [mergeFields_cons_of_ne_null deleted, ih tailSorted, lookup_insertKey]
      by_cases same : key = k
      · subst key
        simp [handled, mergedMember]
      · simp [same]

/-- The members a patch leaves behind are exactly its own, provided each of its
    values meets the same property of the member it is merged into. -/
theorem mergeFields_eq_iff (patchSorted : SortedKeys patch) (targetSorted : SortedKeys target) :
    mergeFields patch target = patch ↔
      (∀ field ∈ target, patch.lookup field.1 ≠ none) ∧ ∀ field ∈ patch,
        field.2 ≠ .null ∧ mergePatch field.2 ((target.lookup field.1).getD .null) = field.2 := by
  constructor
  · intro merged
    have agree : ∀ key, mergedMember (patch.lookup key) (target.lookup key) = patch.lookup key := by
      intro key
      rw [← lookup_mergeFields patchSorted, merged]
    refine ⟨?_, ?_⟩
    · intro field mem missing
      have := agree field.1
      rw [missing, targetSorted.lookup_of_mem mem] at this
      simp [mergedMember] at this
    · intro field mem
      have := agree field.1
      rw [patchSorted.lookup_of_mem mem] at this
      by_cases deleted : field.2 = .null
      · simp [deleted, mergedMember] at this
      · rw [mergedMember_of_ne_null deleted, Option.some.injEq] at this
        exact ⟨deleted, this⟩
  · rintro ⟨named, kept⟩
    refine fields_ext (sortedKeys_mergeFields patch targetSorted) patchSorted fun key => ?_
    rw [lookup_mergeFields patchSorted]
    cases found : patch.lookup key with
    | none =>
      refine lookup_eq_none_iff.mpr fun field mem same => ?_
      exact named field mem (by rw [same]; exact found)
    | some value =>
      obtain ⟨present, unchanged⟩ := kept _ (mem_keys_of_lookup found)
      rw [mergedMember_of_ne_null present, unchanged]

section

variable {patch target : Json} (patchCanonical : patch.Canonical) (targetCanonical : target.Canonical)
include patchCanonical targetCanonical

/-- Merging leaves exactly the patch if and only if the patch covers the target. -/
theorem mergePatch_eq_iff : mergePatch patch target = patch ↔ Covers patch target := by
  induction patch generalizing target with
  | obj patch ih =>
    rw [mergePatch, Covers, Json.obj.injEq,
      mergeFields_eq_iff patchCanonical.1 targetCanonical.sortedKeys, coversFields_iff]
    refine and_congr_right fun _ => forall₂_congr fun field mem => and_congr_right fun _ => ?_
    refine ih field mem (canonicalFields_iff.mp patchCanonical.2 field mem) ?_
    cases found : target.fields.lookup field.1 with
    | none => trivial
    | some old => exact targetCanonical.lookup found
  | null | bool _ | num _ | str _ | arr _ _ => simp [mergePatch, Covers]

theorem canonical_mergePatch : (mergePatch patch target).Canonical := by
  induction patch generalizing target with
  | obj patch ih =>
    have sorted := sortedKeys_mergeFields patch targetCanonical.sortedKeys
    refine ⟨sorted, canonicalFields_iff.mpr fun field mem => ?_⟩
    have found := sorted.lookup_of_mem mem
    rw [lookup_mergeFields patchCanonical.1] at found
    cases patched : patch.lookup field.1 with
    | none =>
      rw [patched] at found
      exact targetCanonical.lookup found
    | some value =>
      rw [patched] at found
      by_cases deleted : value = .null
      · simp [deleted, mergedMember] at found
      · rw [mergedMember_of_ne_null deleted, Option.some.injEq] at found
        rw [← found]
        have patchMember := mem_keys_of_lookup patched
        refine ih _ patchMember (canonicalFields_iff.mp patchCanonical.2 _ patchMember) ?_
        cases old : target.fields.lookup field.1 with
        | none => trivial
        | some value => exact targetCanonical.lookup old
  | null | bool _ | num _ | str _ | arr _ _ => exact patchCanonical

theorem mergePatch_mergePatch : mergePatch patch (mergePatch patch target) = mergePatch patch target := by
  induction patch generalizing target with
  | obj patch ih =>
    have sorted := sortedKeys_mergeFields patch targetCanonical.sortedKeys
    refine congrArg Json.obj (fields_ext (sortedKeys_mergeFields patch sorted) sorted fun key => ?_)
    rw [mergePatch, fields_obj, lookup_mergeFields patchCanonical.1, lookup_mergeFields patchCanonical.1]
    cases patched : patch.lookup key with
    | none => rfl
    | some value =>
      have mem := mem_keys_of_lookup patched
      have canonical := canonicalFields_iff.mp patchCanonical.2 _ mem
      cases value with
      | null | bool _ | num _ | str _ | arr _ => rfl
      | obj fields =>
        cases found : target.fields.lookup key with
        | none => exact congrArg some (ih _ mem canonical trivial)
        | some old => exact congrArg some (ih _ mem canonical (targetCanonical.lookup found))
  | null | bool _ | num _ | str _ | arr _ _ => rfl

end

end Json

def Doc.mergePatch (patch target : Doc) : Doc :=
  ⟨Json.mergePatch patch.1 target.1, Json.canonical_mergePatch patch.2 target.2⟩

end OtelFleet.Data
