import Mathlib.Data.List.Forall2
import Mathlib.Data.List.Sort

/-! # Lists related entry by entry

Searching, looking up and sorting two lists whose entries are related in order. -/

namespace OtelFleet.Data

variable {α β γ : Type*} {rel : α → β → Prop} {left : List α} {right : List β}

section

variable (related : List.Forall₂ rel left right)
include related

theorem findSome?_eq_of_forall₂ {f : α → Option γ} {g : β → Option γ} (same : ∀ a b, rel a b → f a = g b) :
    left.findSome? f = right.findSome? g := by
  induction related with
  | nil => rfl
  | cons head _ ih =>
    simp only [List.findSome?_cons, same _ _ head, ih]

theorem find?_of_forall₂ {p : α → Bool} {q : β → Bool} (same : ∀ a b, rel a b → p a = q b) :
    Option.Rel rel (left.find? p) (right.find? q) := by
  induction related with
  | nil => exact .none
  | @cons a b _ _ head _ ih =>
    simp only [List.find?_cons, ← same a b head]
    cases p a with
    | true => exact .some head
    | false => exact ih

theorem exists_left_of_forall₂ {b : β} (mem : b ∈ right) : ∃ a ∈ left, rel a b := by
  induction related with
  | nil => simp at mem
  | @cons a b' _ _ head _ ih =>
    rcases List.mem_cons.mp mem with rfl | later
    · exact ⟨a, List.mem_cons_self, head⟩
    · obtain ⟨partner, isLeft, isRelated⟩ := ih later
      exact ⟨partner, List.mem_cons_of_mem _ isLeft, isRelated⟩

end

theorem lookup_of_forall₂ {κ : Type*} [BEq κ] {value : α → β → Prop} {left : List (κ × α)} {right : List (κ × β)}
    (related : List.Forall₂ (fun a b => a.1 = b.1 ∧ value a.2 b.2) left right) (key : κ) :
    Option.Rel value (left.lookup key) (right.lookup key) := by
  induction related with
  | nil => exact .none
  | @cons a b _ _ head _ ih =>
    rw [List.lookup_cons, List.lookup_cons, ← head.1]
    cases key == a.1 with
    | true => exact .some head.2
    | false => exact ih

section

variable (related : List.Forall₂ rel left right)
include related

theorem map_eq_map_iff_of_forall₂ {δ : Type*} {f : α → γ} {g : β → γ} {f' : α → δ} {g' : β → δ}
    (same : ∀ a b, rel a b → (f a = g b ↔ f' a = g' b)) : left.map f = right.map g ↔ left.map f' = right.map g' := by
  induction related with
  | nil => simp
  | cons head _ ih =>
    simp only [List.map_cons, List.cons.injEq, same _ _ head, ih]

theorem mapIdx_eq_of_forall₂ {f : Nat → α → γ} {g : Nat → β → γ} (same : ∀ i a b, rel a b → f i a = g i b) :
    left.mapIdx f = right.mapIdx g := by
  induction related generalizing f g with
  | nil => rfl
  | cons head _ ih =>
    rw [List.mapIdx_cons, List.mapIdx_cons, same _ _ _ head, ih fun i => same (i + 1)]

theorem flatMap_eq_iff_of_forall₂ {f : α → List γ} {g : β → List γ}
    (lengths : ∀ a b, rel a b → (f a).length = (g b).length) :
    left.flatMap f = right.flatMap g ↔ List.Forall₂ (fun a b => f a = g b) left right := by
  induction related with
  | nil => exact iff_of_true rfl .nil
  | @cons a b _ _ head _ ih =>
    rw [List.flatMap_cons, List.flatMap_cons, List.forall₂_cons, ← ih]
    constructor
    · exact fun same => List.append_inj same (lengths a b head)
    · rintro ⟨first, rest⟩
      rw [first, rest]

theorem flatMap_eq_of_forall₂ {f : α → List γ} {g : β → List γ} (same : ∀ a b, rel a b → f a = g b) :
    left.flatMap f = right.flatMap g :=
  (flatMap_eq_iff_of_forall₂ related fun a b pair => congrArg _ (same a b pair)).mpr (related.imp same)

end

section

variable {r : α → α → Prop} {s : β → β → Prop} [DecidableRel r] [DecidableRel s]
  (order : ∀ a a' b b', rel a b → rel a' b' → (r a a' ↔ s b b'))

include order

theorem forall₂_orderedInsert {a : α} {b : β} (new : rel a b) (related : List.Forall₂ rel left right) :
    List.Forall₂ rel (left.orderedInsert r a) (right.orderedInsert s b) := by
  induction related with
  | nil => exact .cons new .nil
  | @cons x y _ _ head tail ih =>
    rw [List.orderedInsert_cons, List.orderedInsert_cons]
    by_cases first : r a x
    · rw [if_pos first, if_pos ((order a x b y new head).mp first)]
      exact .cons new (.cons head tail)
    · rw [if_neg first, if_neg fun other => first ((order a x b y new head).mpr other)]
      exact .cons head ih

theorem forall₂_insertionSort (related : List.Forall₂ rel left right) :
    List.Forall₂ rel (left.insertionSort r) (right.insertionSort s) := by
  induction related with
  | nil => exact .nil
  | cons head _ ih => exact forall₂_orderedInsert order head ih

end

/-- Lists that agree wherever the order looks are equal once they are sorted to the
    same list. -/
theorem eq_of_insertionSort_eq {r rel : α → α → Prop} [DecidableRel r] {left right : List α}
    (order : ∀ a a' b b', rel a b → rel a' b' → (r a a' ↔ r b b')) (related : List.Forall₂ rel left right)
    (sorted : left.insertionSort r = right.insertionSort r) : left = right := by
  -- both lists are images of the list of pairs, which is sorted by either side
  have lengths := related.length_eq
  have isLeft : (left.zip right).map Prod.fst = left := List.map_fst_zip lengths.le
  have isRight : (left.zip right).map Prod.snd = right := List.map_snd_zip lengths.ge
  have pairs : ∀ pair ∈ left.zip right, rel pair.1 pair.2 := fun pair mem =>
    (List.forall₂_iff_zip.mp related).2 mem
  have sortedLeft := List.map_insertionSort (fun a b : α × α => r a.1 b.1) r Prod.fst (left.zip right)
    fun _ _ _ _ => Iff.rfl
  have sortedRight := List.map_insertionSort (fun a b : α × α => r a.1 b.1) r Prod.snd (left.zip right)
    fun a aMember b bMember => order a.1 b.1 a.2 b.2 (pairs a aMember) (pairs b bMember)
  rw [isLeft] at sortedLeft
  rw [isRight] at sortedRight
  have equal := List.map_inj_left.mp (sortedLeft.trans (sorted.trans sortedRight.symm))
  calc
    left = (left.zip right).map Prod.fst := isLeft.symm
    _ = (left.zip right).map Prod.snd :=
      List.map_congr_left fun pair mem => equal pair ((List.perm_insertionSort _ _).mem_iff.mpr mem)
    _ = right := isRight

end OtelFleet.Data
