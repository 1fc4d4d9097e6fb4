import OtelFleet.Tenants.Slug

/-! # Customer slugs are valid

`DeriveSlug` keeps its result in the shape of a slug through the loop, the truncation and
the padding, and leaves a slug of that shape as it is.
-/

namespace OtelFleet.Verified.Slugs

open Tenants

structure Tidy (s : List Char) : Prop where
  chars : ∀ c ∈ s, isSlugChar c = true
  single : ¬ ['-', '-'] <:+: s

structure Trimmed (s : List Char) : Prop where
  head : s.head? ≠ some '-'
  last : s.getLast? ≠ some '-'

variable {s : List Char}

theorem Tidy.of_part {t : List Char} (tidy : Tidy t) (inside : s <:+: t) : Tidy s where
  chars c mem := tidy.chars c (inside.subset mem)
  single doubled := tidy.single (doubled.trans inside)

variable {c : Char}

theorem tidy_cons (isChar : isSlugChar c = true) (tidy : Tidy s) (alone : c = '-' → s.head? ≠ some '-') :
    Tidy (c :: s) where
  chars := by
    intro other mem
    cases List.mem_cons.mp mem with
    | inl same => rw [same, isChar]
    | inr inRest => exact tidy.chars other inRest
  single doubled := by
    cases List.infix_cons_iff.mp doubled with
    | inr inRest => exact tidy.single inRest
    | inl front =>
      obtain ⟨isHyphen, next⟩ := List.cons_prefix_cons.mp front
      cases s with
      | nil => simp at next
      | cons d s => exact alone isHyphen.symm (by simpa [eq_comm] using next)

theorem tidy_deriveSlugLoop (lastHyphen : Bool) (name : List Char) :
    Tidy (deriveSlugLoop lastHyphen name) ∧ (lastHyphen = true → (deriveSlugLoop lastHyphen name).head? ≠ some '-') := by
  induction name generalizing lastHyphen with
  | nil => exact ⟨⟨by simp [deriveSlugLoop], by simp [deriveSlugLoop]⟩, by simp [deriveSlugLoop]⟩
  | cons c rest ih =>
    by_cases isAlnum : isSlugAlnum c = true
    · have notHyphen : c ≠ '-' := by
        rintro rfl
        exact absurd isAlnum (by decide)
      simp only [deriveSlugLoop, isAlnum]
      exact ⟨tidy_cons (by simp [isSlugChar, isAlnum]) (ih false).1 (absurd · notHyphen),
        fun _ => by simpa using notHyphen⟩
    · cases lastHyphen with
      | true => simpa [deriveSlugLoop, isAlnum] using ih true
      | false =>
        -- the hyphen that is written suppresses the next ones
        simp only [deriveSlugLoop, isAlnum]
        exact ⟨tidy_cons (by decide) (ih true).1 fun _ => (ih true).2 rfl, nofun⟩

theorem deriveSlugLoop_of_tidy {lastHyphen : Bool} (tidy : Tidy s)
    (head : lastHyphen = true → s.head? ≠ some '-') : deriveSlugLoop lastHyphen s = s := by
  induction s generalizing lastHyphen with
  | nil => rfl
  | cons c rest ih =>
    have restTidy := tidy.of_part (List.suffix_cons c rest).isInfix
    by_cases isAlnum : isSlugAlnum c = true
    · simp only [deriveSlugLoop, isAlnum, if_true]
      have unchanged : deriveSlugLoop false rest = rest := ih restTidy (by simp)
      rw [unchanged]
    · have isHyphen : c = '-' := by simpa [isSlugChar, isAlnum] using tidy.chars c List.mem_cons_self
      subst isHyphen
      have notLast : lastHyphen ≠ true := fun isLast => head isLast rfl
      have next : rest.head? ≠ some '-' := by
        cases rest with
        | nil => simp
        | cons d rest =>
          intro isHyphen
          cases isHyphen
          exact tidy.single ⟨[], rest, rfl⟩
      simp only [deriveSlugLoop, isAlnum, notLast, Bool.false_eq_true, if_false]
      rw [ih restTidy fun _ => next]

theorem head?_dropWhile_ne (s : List Char) : (s.dropWhile (· = '-')).head? ≠ some '-' := by
  have first := List.head?_dropWhile_not (· = '-') s
  intro isHyphen
  rw [isHyphen] at first
  exact absurd first (by decide)

theorem trimHyphens_part (s : List Char) : trimHyphens s <:+: s := by
  have back := (List.dropWhile_suffix (· = '-') (l := (s.dropWhile (· = '-')).reverse)).isInfix
  rw [← List.reverse_infix, List.reverse_reverse] at back
  exact back.trans (List.dropWhile_suffix _).isInfix

theorem trimmed_trimHyphens (s : List Char) : Trimmed (trimHyphens s) where
  last := by
    rw [trimHyphens, List.getLast?_reverse]
    exact head?_dropWhile_ne _
  head isHyphen := by
    -- a hyphen in front would be in front of the text before the end was trimmed
    have front : trimHyphens s <+: s.dropWhile (· = '-') := by
      rw [trimHyphens, ← List.reverse_suffix, List.reverse_reverse]
      exact List.dropWhile_suffix _
    obtain ⟨rest, isWhole⟩ := front
    apply head?_dropWhile_ne s
    rw [← isWhole, List.head?_append, isHyphen, Option.some_or]

theorem dropWhile_of_head (head : s.head? ≠ some '-') : s.dropWhile (· = '-') = s := by
  cases s with
  | nil => rfl
  | cons c s =>
    have notHyphen : c ≠ '-' := by simpa using head
    simp [notHyphen]

theorem trimHyphens_of_trimmed (trimmed : Trimmed s) : trimHyphens s = s := by
  rw [trimHyphens, dropWhile_of_head trimmed.head, dropWhile_of_head, List.reverse_reverse]
  rw [List.head?_reverse]
  exact trimmed.last

structure SlugShape (s : List Char) : Prop extends Tidy s, Trimmed s where
  short : s.length ≤ 64
  long : 3 ≤ s.length

theorem isSlugAlnum_of_ne (tidy : Tidy s) (mem : c ∈ s) (notHyphen : c ≠ '-') : isSlugAlnum c = true := by
  simpa [isSlugChar, notHyphen] using tidy.chars c mem

theorem SlugShape.valid (shape : SlugShape s) : validSlug (String.ofList s) = true := by
  have nonempty : s ≠ [] := List.ne_nil_of_length_pos (by have := shape.long; omega)
  have first := List.head?_eq_some_head nonempty
  have last := List.getLast?_eq_some_getLast nonempty
  have firstAlnum := isSlugAlnum_of_ne shape.toTidy (List.head_mem nonempty) fun same => shape.head (same ▸ first)
  have lastAlnum := isSlugAlnum_of_ne shape.toTidy (List.getLast_mem nonempty) fun same => shape.last (same ▸ last)
  simp only [validSlug, String.toList_ofList, first, last, Option.any_some, firstAlnum, lastAlnum, Bool.and_true,
    Bool.and_eq_true, decide_eq_true_eq, List.all_eq_true]
  exact ⟨⟨shape.long, shape.short⟩, shape.chars⟩

theorem shape_padded (tidy : Tidy s) (trimmed : Trimmed s) (short : s.length ≤ 64) (nonempty : s ≠ []) :
    SlugShape (s ++ List.replicate (3 - s.length) '0') := by
  have zero : Tidy ['0'] := ⟨List.all_eq_true.mp rfl, by decide⟩
  match s, nonempty with
  | [a], _ =>
    have zeros : Tidy ['0', '0'] := tidy_cons (by decide) zero (by decide)
    have single := tidy_cons (tidy.chars a List.mem_cons_self) zeros (by simp)
    exact ⟨single, ⟨trimmed.head, by simp⟩, by simp, by simp⟩
  | [a, b], _ =>
    have notHyphen : b ≠ '-' := by simpa using trimmed.last
    have rest := tidy_cons (tidy.chars b (by simp)) zero (absurd · notHyphen)
    exact ⟨tidy_cons (tidy.chars a List.mem_cons_self) rest (by simp [notHyphen]), ⟨trimmed.head, by simp⟩, by simp, by simp⟩
  | a :: b :: c :: rest, _ =>
    have enough : 3 - (a :: b :: c :: rest).length = 0 := by simp
    rw [enough, List.replicate_zero, List.append_nil]
    exact ⟨tidy, trimmed, short, by simp⟩

theorem shape_customer : SlugShape "customer".toList :=
  ⟨⟨List.all_eq_true.mp rfl, by simp [List.infix_cons_iff]⟩, ⟨by simp, by simp⟩, by simp, by simp⟩

theorem shape_deriveSlug (name : String) : SlugShape (deriveSlug name).toList := by
  simp only [deriveSlug]
  generalize isTrimmed : trimHyphens (deriveSlugLoop true (name.toList.map toLower)) = s
  have tidy : Tidy s := isTrimmed ▸ (tidy_deriveSlugLoop true _).1.of_part (trimHyphens_part _)
  have trimmed : Trimmed s := isTrimmed ▸ trimmed_trimHyphens _
  generalize isCut : (if 64 < s.length then trimHyphens (s.take 64) else s) = cut
  have facts : Tidy cut ∧ Trimmed cut ∧ cut.length ≤ 64 := by
    rw [← isCut]
    split
    · refine ⟨tidy.of_part ((trimHyphens_part _).trans (List.take_prefix 64 s).isInfix), trimmed_trimHyphens _, ?_⟩
      exact (trimHyphens_part _).length_le.trans (List.length_take_le 64 s)
    · exact ⟨tidy, trimmed, by omega⟩
  by_cases empty : cut = []
  · simp only [empty]
    exact shape_customer
  · simp only [empty, if_false, String.toList_ofList]
    exact shape_padded facts.1 facts.2.1 facts.2.2 empty

theorem toLower_of_isSlugChar (isChar : isSlugChar c = true) : toLower c = c := by
  have notUpper : ¬ ('A' ≤ c ∧ c ≤ 'Z') := by
    rintro ⟨above, below⟩
    simp only [isSlugChar, isSlugAlnum, Bool.or_eq_true, Bool.and_eq_true, decide_eq_true_eq] at isChar
    obtain (⟨isLower, _⟩ | ⟨_, isDigit⟩) | rfl := isChar
    · exact absurd (isLower.trans below) (by decide)
    · exact absurd (above.trans isDigit) (by decide)
    · exact absurd above (by decide)
  have notKelvin : c ≠ 'K' := by rintro rfl; exact absurd isChar (by decide)
  have notDotted : c ≠ '\u0130' := by rintro rfl; exact absurd isChar (by decide)
  simp only [toLower, Bool.and_eq_true, decide_eq_true_eq, if_neg notUpper, if_neg notKelvin, if_neg notDotted]

theorem deriveSlug_of_shape {slug : String} (shape : SlugShape slug.toList) : deriveSlug slug = slug := by
  have lowered : slug.toList.map toLower = slug.toList :=
    (List.map_congr_left fun c mem => toLower_of_isSlugChar (shape.chars c mem)).trans (List.map_id _)
  have nonempty : slug.toList ≠ [] := List.ne_nil_of_length_pos (by have := shape.long; omega)
  have enough : 3 - slug.toList.length = 0 := by have := shape.long; omega
  simp only [deriveSlug, lowered, deriveSlugLoop_of_tidy shape.toTidy fun _ => shape.head,
    trimHyphens_of_trimmed shape.toTrimmed, if_neg (Nat.not_lt.mpr shape.short), if_neg nonempty, enough,
    List.replicate_zero, List.append_nil, String.ofList_toList]

theorem validSlug_deriveSlug (name : String) : validSlug (deriveSlug name) = true := by
  have valid := (shape_deriveSlug name).valid
  rwa [String.ofList_toList] at valid

/-- Whatever the name, the derived slug is valid, has single hyphens, and derives itself. -/
theorem deriveSlug_valid_idempotent (name : String) :
    validSlug (deriveSlug name) = true ∧ ¬ ['-', '-'] <:+: (deriveSlug name).toList ∧
      deriveSlug (deriveSlug name) = deriveSlug name := by
  have shape := shape_deriveSlug name
  exact ⟨validSlug_deriveSlug name, shape.single, deriveSlug_of_shape shape⟩

variable {answers : Nat → InsertAnswer} {baseSlug stored : String}

def lastSuffix (answers : Nat → InsertAnswer) : Nat → Option Nat
  | 0 => none
  | n + 1 => if answers (n + 1) = .slugExists then some (n + 2) else lastSuffix answers n

/-- The attempt after the first `n` succeeds, and those before were retried. -/
def SucceedsAfter (answers : Nat → InsertAnswer) (n : Nat) : Prop :=
  answers (n + 1) = .created ∧ ∀ m < n, answers (m + 1) = .slugExists ∨ answers (m + 1) = .conflict

theorem createAttempts_ok_iff {left n : Nat}
    (retried : ∀ m < n, answers (m + 1) = .slugExists ∨ answers (m + 1) = .conflict) :
    createAttempts true baseSlug answers left (n + 1) (withSuffix baseSlug (lastSuffix answers n)) = .ok stored ↔
      ∃ m, n ≤ m ∧ m < n + left ∧ SucceedsAfter answers m ∧ stored = withSuffix baseSlug (lastSuffix answers m) := by
  induction left generalizing n with
  | zero =>
    simp only [createAttempts, reduceCtorEq, false_iff]
    omega
  | succ left ih =>
    -- this attempt succeeds, or it is retried and a later one succeeds
    have first : (∃ m, n ≤ m ∧ m < n + (left + 1) ∧ SucceedsAfter answers m ∧ stored = withSuffix baseSlug (lastSuffix answers m)) ↔
        answers (n + 1) = .created ∧ stored = withSuffix baseSlug (lastSuffix answers n) ∨
          (answers (n + 1) = .slugExists ∨ answers (n + 1) = .conflict) ∧ ∃ m, n + 1 ≤ m ∧ m < n + 1 + left ∧
            SucceedsAfter answers m ∧ stored = withSuffix baseSlug (lastSuffix answers m) := by
      constructor
      · rintro ⟨m, above, below, succeeds, same⟩
        cases Nat.eq_or_lt_of_le above with
        | inl here =>
          subst here
          exact Or.inl ⟨succeeds.1, same⟩
        | inr later => exact Or.inr ⟨succeeds.2 n later, m, later, by omega, succeeds, same⟩
      · rintro (⟨created, same⟩ | ⟨_, m, above, below, rest⟩)
        · exact ⟨n, le_refl n, by omega, ⟨created, retried⟩, same⟩
        · exact ⟨m, by omega, by omega, rest⟩
    have next (again : answers (n + 1) = .slugExists ∨ answers (n + 1) = .conflict) :=
      @ih (n + 1) fun m below => (Nat.lt_succ_iff_lt_or_eq.mp below).elim (retried m) fun same => same ▸ again
    rw [first]
    cases answer : answers (n + 1) with
    | created => simp [createAttempts, answer, eq_comm]
    | slugExists => simpa [createAttempts, answer, lastSuffix] using next (Or.inl answer)
    | conflict => simpa [createAttempts, answer, lastSuffix] using next (Or.inr answer)
    | failed err => simp [createAttempts, answer]

theorem createAttempts_chosen {left attempt : Nat} {slug : String}
    (created : createAttempts false slug answers left attempt slug = .ok stored) : stored = slug := by
  induction left generalizing attempt with
  | zero => cases created
  | succ left ih =>
    cases answer : answers attempt with
    | created =>
      simp only [createAttempts, answer, Except.ok.injEq] at created
      exact created.symm
    | slugExists | failed err => simp [createAttempts, answer] at created
    | conflict =>
      simp only [createAttempts, answer] at created
      exact ih created

theorem isSlugAlnum_of_isDigit (isDigit : c.isDigit = true) : isSlugAlnum c = true := by
  simp only [Char.isDigit, Bool.and_eq_true, decide_eq_true_eq] at isDigit
  simp only [isSlugAlnum, Bool.or_eq_true, Bool.and_eq_true, decide_eq_true_eq]
  exact Or.inr isDigit

theorem length_withSuffix (baseSlug : String) (n : Nat) :
    (withSuffix baseSlug (some n)).toList.length = baseSlug.toList.length + 1 + (toString n).toList.length := by
  simp only [withSuffix, String.toList_append, List.length_append]
  rfl

theorem validSlug_withSuffix (shape : SlugShape baseSlug.toList) (n : Nat) :
    validSlug (withSuffix baseSlug (some n)) = true ↔ (withSuffix baseSlug (some n)).toList.length ≤ 64 := by
  have isSuffixed : (withSuffix baseSlug (some n)).toList = baseSlug.toList ++ '-' :: Nat.toDigits 10 n := by
    simp [withSuffix]
  have alnum : ∀ c ∈ Nat.toDigits 10 n, isSlugAlnum c = true := fun c mem =>
    isSlugAlnum_of_isDigit (Nat.isDigit_of_mem_toDigits (by decide) (by decide) mem)
  have nonempty : Nat.toDigits 10 n ≠ [] := Nat.toDigits_ne_nil
  have valid := shape.valid
  simp only [validSlug, Bool.and_eq_true] at valid
  have chars : ∀ c ∈ baseSlug.toList ++ '-' :: Nat.toDigits 10 n, isSlugChar c = true := by
    intro c mem
    rw [List.mem_append, List.mem_cons] at mem
    obtain inBase | rfl | inSuffix := mem
    · exact shape.chars c inBase
    · rfl
    · simp [isSlugChar, alnum c inSuffix]
  have first : (baseSlug.toList ++ '-' :: Nat.toDigits 10 n).head?.any isSlugAlnum = true := by
    cases isBase : baseSlug.toList with
    | nil => simp [isBase] at valid
    | cons c rest => simpa [isBase] using valid.1.2
  have last : (baseSlug.toList ++ '-' :: Nat.toDigits 10 n).getLast?.any isSlugAlnum = true := by
    rw [List.getLast?_append, List.getLast?_cons, List.getLast?_eq_some_getLast nonempty]
    simpa using alnum _ (List.getLast_mem nonempty)
  have long : 3 ≤ (baseSlug.toList ++ '-' :: Nat.toDigits 10 n).length := by
    have := shape.long
    simp only [List.length_append]
    omega
  simp only [validSlug, isSuffixed, long, first, last, List.all_eq_true.mpr chars, decide_true, Bool.true_and,
    Bool.and_true, decide_eq_true_eq]

/-- A derived slug and the suffix of the attempt that succeeds have 64 characters together. -/
def SuffixFits (answers : Nat → InsertAnswer) (baseSlug : String) : Prop :=
  ∀ n < maxAttempts, SucceedsAfter answers n → ∀ suffix ∈ lastSuffix answers n,
    baseSlug.toList.length + 1 + (toString suffix).toList.length ≤ 64

/-- The slug with which a customer is created is valid exactly if the caller chose it or
    the suffix fits. -/
theorem createCustomer_slug_valid_iff (text : Data.CaseMap) (answers : Nat → InsertAnswer) (name : String)
    (slug : Option String) :
    (∀ stored, createCustomer text answers name slug = .ok stored → validSlug stored = true) ↔
      (slug.isSome ∨ text.trimSpace name = "" ∨ 200 < (text.trimSpace name).utf8ByteSize ∨
        SuffixFits answers (deriveSlug (text.trimSpace name))) := by
  by_cases badName : text.trimSpace name = "" ∨ 200 < (text.trimSpace name).utf8ByteSize
  · have refused : createCustomer text answers name slug = .error .invalidName := by simp [createCustomer, badName]
    simp only [refused, reduceCtorEq, false_implies, implies_true, true_iff]
    exact Or.inr (badName.imp_right Or.inl)
  cases slug with
  | some slug =>
    simp only [createCustomer, if_neg badName, Option.isSome_some, true_or, iff_true]
    intro stored created
    split at created
    · rename_i isValid
      rw [createAttempts_chosen created, isValid]
    · cases created
  | none =>
    have shape := shape_deriveSlug (text.trimSpace name)
    simp only [createCustomer, if_neg badName, Option.isSome_none, Bool.false_eq_true]
    have loop stored := @createAttempts_ok_iff answers (deriveSlug (text.trimSpace name)) stored maxAttempts 0 (by simp)
    rw [not_or] at badName
    simp only [badName.1, badName.2, false_or]
    simp only [lastSuffix, withSuffix, Nat.zero_le, true_and] at loop
    simp only [loop]
    constructor
    · intro valid n below succeeds suffix isSuffix
      have isValid := valid _ ⟨n, below, succeeds, rfl⟩
      rw [isSuffix] at isValid
      exact length_withSuffix _ suffix ▸ (validSlug_withSuffix shape suffix).mp isValid
    · rintro fits stored ⟨n, below, succeeds, rfl⟩
      cases isSuffix : lastSuffix answers n with
      | none => exact validSlug_deriveSlug (text.trimSpace name)
      | some suffix =>
        apply (validSlug_withSuffix shape suffix).mpr
        exact length_withSuffix _ suffix ▸ fits n below succeeds suffix isSuffix

/-- A name of 64 letters whose slug is taken. -/
theorem long_slug_stored : createCustomer .ascii (fun attempt => if attempt = 1 then .slugExists else .created)
      (String.ofList (List.replicate 64 'a')) none = .ok (String.ofList (List.replicate 64 'a') ++ "-2") ∧
    validSlug (String.ofList (List.replicate 64 'a') ++ "-2") = false := by
  decide +kernel

end OtelFleet.Verified.Slugs
