import OtelFleet.Scim.Listing

/-! # Pages of users

A page is exact unless the end of its window is no `int`: then the sum wraps around to a
negative bound, and the slice panics.
-/

namespace OtelFleet.Verified.UserPaging

open Data Scim Store

variable (users : List User) (start count : Int)

/-- The users at the positions `max start 1` to `max start 1 + max count 0 - 1`. -/
def window : List User :=
  (users.drop (max start 1 - 1).toNat).take (max count 0).toNat

def exactPage : ListResponse :=
  ⟨users.length, max start 1, (window users start count).length, (window users start count).map toResource⟩

/-- The end of the window, clamped at its start only, is an `int`. -/
def Fits : Prop :=
  min (max start 1 - 1) users.length + max count 0 < 2 ^ 63

instance : Decidable (Fits users start count) :=
  inferInstanceAs (Decidable (_ < _))

theorem parseInt64_lt {text : String} {value : Int} (parsed : parseInt64 text = some value) : value < 2 ^ 63 := by
  obtain ⟨inRange, ⟨⟩⟩ := Option.ite_none_right_eq_some.mp parsed
  exact inRange.2.2.2

theorem atoiDefault_of_parsed {text : String} {value : Int} (parsed : parseInt64 text = some value) (otherwise : Int) :
    atoiDefault text otherwise = value := by
  have isText : text ≠ "" := by
    rintro rfl
    cases parsed
  simp [atoiDefault, isText, parsed]

theorem addInt_eq {a b : Int} (isA : 0 ≤ a ∧ a < 2 ^ 63) (isB : 0 ≤ b ∧ b < 2 ^ 63) :
    addInt a b = if a + b < 2 ^ 63 then a + b else a + b - 2 ^ 64 := by
  simp only [addInt, Int.bmod]
  omega

variable {users : List User} {start count : Int}

theorem slice_window {lo hi : Int} (isLo : lo = min (max start 1 - 1) users.length)
    (isHi : hi = min (lo + max count 0) users.length) : slice users lo hi = some (window users start count) := by
  have bounds : 0 ≤ lo ∧ lo ≤ hi ∧ hi ≤ users.length := by omega
  have sameStart : users.drop lo.toNat = users.drop (max start 1 - 1).toNat := List.drop_eq_drop_iff.mpr (by omega)
  rw [slice, if_pos bounds, window, ← sameStart]
  refine congrArg some (List.take_eq_take_iff.mpr ?_)
  rw [List.length_drop]
  omega

theorem listPage_eq (isStart : start ≤ 2 ^ 63) (isCount : count < 2 ^ 63) :
    listPage users start count = if Fits users start count then some (exactPage users start count) else none := by
  have clampedStart : (if start < 1 then 1 else start) = max start 1 := by omega
  have clampedCount : (if count < 0 then 0 else count) = max count 0 := by omega
  have clampedLo : (if max start 1 - 1 > users.length then (users.length : Int) else max start 1 - 1) =
      min (max start 1 - 1) users.length := by omega
  have sum := @addInt_eq (min (max start 1 - 1) users.length) (max count 0) (by omega) (by omega)
  simp only [listPage, clampedStart, clampedCount, clampedLo, sum]
  by_cases fits : Fits users start count
  · rw [if_pos fits, if_pos (c := _ < _) fits, @slice_window users start count _ _ rfl (by omega)]
    rfl
  · -- the end of the window is negative
    rw [if_neg fits, slice, if_neg (by unfold Fits at fits; omega)]
    rfl

section

variable (text : CaseMap) (byEmail : String → Except StoreError User) (users : List User)

/-- The users of page after page; nothing where a page panics or is refused. -/
def walk : List UserQuery → Option (List UserResource)
  | [] => some []
  | query :: queries =>
    match listUsers text query byEmail (.ok users) with
    | some (.ok response) => (walk queries).map (response.resources ++ ·)
    | _ => none

/-- The queries ask for so many users each, from after those of the last answer on. -/
def Follows (start : Int) : List UserQuery → List Int → Prop
  | [], [] => True
  | query :: queries, count :: counts =>
    parseUserNameFilter text query.filter = "" ∧ parseInt64 query.startIndex = some start ∧
      parseInt64 query.count = some count ∧ ∀ response, listUsers text query byEmail (.ok users) = some (.ok response) →
        Follows (start + response.itemsPerPage) queries counts
  | _, _ => False

end

def AllFit (users : List User) : Int → List Int → Prop
  | _, [] => True
  | start, count :: counts => Fits users start count ∧ AllFit users (start + (window users start count).length) counts

instance (counts : List Int) : ∀ start, Decidable (AllFit users start counts) :=
  counts.rec (fun _ => isTrue trivial) fun _ _ rest _ => @instDecidableAnd _ _ inferInstance (rest _)

theorem window_append_drop (isStart : 1 ≤ start) (positive : 0 < count) :
    (window users start count).length = min count.toNat (users.length - (start - 1).toNat) ∧
    window users start count ++ users.drop (start + (window users start count).length - 1).toNat =
      users.drop (start - 1).toNat := by
  have isWindow : window users start count = (users.drop (start - 1).toNat).take count.toNat := by
    rw [window, max_eq_left isStart, max_eq_left positive.le]
  have length : (window users start count).length = min count.toNat (users.length - (start - 1).toNat) := by
    rw [isWindow, List.length_take, List.length_drop]
  have rest : users.drop (start + (window users start count).length - 1).toNat =
      (users.drop (start - 1).toNat).drop count.toNat := by
    rw [List.drop_drop]
    exact List.drop_eq_drop_iff.mpr (by omega)
  exact ⟨length, by rw [rest, isWindow, List.take_append_drop]⟩

variable {text : CaseMap} {byEmail : String → Except StoreError User}

theorem listUsers_eq {query : UserQuery} (unfiltered : parseUserNameFilter text query.filter = "")
    (isStart : parseInt64 query.startIndex = some start) (isCount : parseInt64 query.count = some count) :
    listUsers text query byEmail (.ok users) =
      if Fits users start count then some (.ok (exactPage users start count)) else none := by
  simp only [listUsers, unfiltered, ne_eq, not_true_eq_false, if_false, atoiDefault_of_parsed isStart,
    atoiDefault_of_parsed isCount, listPage_eq (parseInt64_lt isStart).le (parseInt64_lt isCount)]
  split <;> rfl

theorem walk_eq {queries : List UserQuery} {counts : List Int} (follows : Follows text byEmail users start queries counts)
    (positive : ∀ count ∈ counts, 0 < count) (isStart : 1 ≤ start) (enough : users.length < start + counts.length) :
    walk text byEmail users queries =
      if AllFit users start counts then some ((users.drop (start - 1).toNat).map toResource) else none := by
  induction queries generalizing start counts with
  | nil =>
    cases counts with
    | nil =>
      rw [List.drop_eq_nil_of_le (by simp at enough; omega)]
      rfl
    | cons count counts => exact follows.elim
  | cons query queries ih =>
    cases counts with
    | nil => exact follows.elim
    | cons count counts =>
      obtain ⟨unfiltered, parsedStart, parsedCount, later⟩ := follows
      obtain ⟨head, tail⟩ := List.forall_mem_cons.mp positive
      obtain ⟨length, rest⟩ := @window_append_drop users start count isStart head
      have answer := @listUsers_eq users start count text byEmail query unfiltered parsedStart parsedCount
      simp only [walk, AllFit, answer]
      by_cases fits : Fits users start count
      · rw [if_pos fits] at answer
        have walked := ih (later _ answer) tail (by simp only [exactPage]; omega) (by simp [exactPage] at enough ⊢; omega)
        simp only [fits, if_true, true_and, exactPage] at walked ⊢
        rw [walked, ← rest, List.map_append]
        by_cases allFit : AllFit users (start + (window users start count).length) counts <;> simp [allFit]
      · simp [fits]

/-- The page asked for is answered exactly where its window fits, and the walk from the
    first user yields every user once where each of its windows does. -/
theorem listUsers_exact_iff (text : CaseMap) (query : UserQuery) (byEmail : String → Except StoreError User)
    (users : List User) (start count : Int) (unfiltered : parseUserNameFilter text query.filter = "")
    (isStart : parseInt64 query.startIndex = some start) (isCount : parseInt64 query.count = some count) :
    (listUsers text query byEmail (.ok users) = some (.ok (exactPage users start count)) ↔ Fits users start count) ∧
    ∀ queries counts, Follows text byEmail users 1 queries counts → (∀ count ∈ counts, 0 < count) →
      users.length ≤ counts.length →
      (walk text byEmail users queries = some (users.map toResource) ↔ AllFit users 1 counts) := by
  constructor
  · rw [listUsers_eq unfiltered isStart isCount]
    split <;> simp_all
  · intro queries counts follows positive enough
    rw [walk_eq follows positive le_rfl (by omega)]
    simp

def aUser (n : Nat) : User := { id := ⟨n⟩, email := toString n, role := "viewer", createdAt := 0 }

def twoPages : List UserQuery := [⟨"", "1", "1"⟩, ⟨"", "2", "9223372036854775806"⟩]

/-- A window that ends at the last `int` is still exact. -/
theorem listUsers_exact_at_maxInt :
    (listUsers .ascii ⟨"", "1", "9223372036854775807"⟩ (fun _ => .error .notFound) (.ok [aUser 1, aUser 2]) =
        some (.ok (exactPage [aUser 1, aUser 2] 1 9223372036854775807)) ↔
      Fits [aUser 1, aUser 2] 1 9223372036854775807) ∧ Fits [aUser 1, aUser 2] 1 9223372036854775807 ∧
    walk .ascii (fun _ => .error .notFound) [aUser 1, aUser 2] twoPages = some ([aUser 1, aUser 2].map toResource) := by
  obtain ⟨page, walks⟩ := listUsers_exact_iff .ascii ⟨"", "1", "9223372036854775807"⟩ (fun _ => .error .notFound)
    [aUser 1, aUser 2] 1 9223372036854775807 (by decide) (by decide) (by decide)
  refine ⟨page, by decide, (walks twoPages [1, 9223372036854775806] ?_ (by decide) le_rfl).mpr (by decide)⟩
  refine ⟨by decide, by decide, by decide, fun first isFirst => ?_⟩
  cases isFirst
  exact ⟨by decide, by decide, by decide, fun _ _ => trivial⟩

/-- From the second user on it panics. -/
theorem second_page_panics :
    listUsers .ascii ⟨"", "2", "9223372036854775807"⟩ (fun _ => .error .notFound) (.ok [aUser 1, aUser 2]) = none := by
  rfl

end OtelFleet.Verified.UserPaging
