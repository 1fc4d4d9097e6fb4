import Mathlib.Data.List.Basic

/-! # Regular expressions without groups or alternatives

The fragment of RE2 in which an expression is a row of characters, classes and
the start anchor, each optionally repeated: its texts are read into `Item`s, and
a fully anchored match is computed by the texts each item can leave over.
-/

namespace OtelFleet.Data.Regex

inductive CharSet where
  | literal (c : Char)
  /-- `.`, which leaves out the line feed. -/
  | any
  | noneOf (cs : List Char)
deriving DecidableEq

def CharSet.holds : CharSet → Char → Bool
  | .literal c, c' => c' = c
  | .any, c => c ≠ '\n'
  | .noneOf cs, c => c ∉ cs

inductive Item where
  | start
  | one (set : CharSet)
  | plus (set : CharSet)
  | star (set : CharSet)

inductive Token where
  | start
  | set (set : CharSet)
  | plus
  | star
deriving DecidableEq

inductive Reader where
  | plain
  | escaped
  | bracket
  | negated (cs : List Char)

/-- The characters with a meaning of their own, which `quoteMeta` escapes. -/
def isSpecial (c : Char) : Bool := c ∈ "\\.+*?()|[]\x7b\x7d^$".toList

/-- The tokens of an expression; none for one that is malformed or outside the
    fragment. -/
def tokens : Reader → List Char → Option (List Token)
  | .plain, [] => some []
  | _, [] => none
  | .plain, c :: rest =>
    if c = '\\' then tokens .escaped rest
    else if c = '[' then tokens .bracket rest
    else if c = '^' then (tokens .plain rest).map (Token.start :: ·)
    else if c = '.' then (tokens .plain rest).map (Token.set .any :: ·)
    else if c = '+' then (tokens .plain rest).map (Token.plus :: ·)
    else if c = '*' then (tokens .plain rest).map (Token.star :: ·)
    else if isSpecial c then none
    else (tokens .plain rest).map (Token.set (.literal c) :: ·)
  | .escaped, c :: rest =>
    -- letters and digits name classes and characters after a backslash
    if isSpecial c then (tokens .plain rest).map (Token.set (.literal c) :: ·) else none
  | .bracket, c :: rest => if c = '^' then tokens (.negated []) rest else none
  | .negated cs, c :: rest =>
    if c = ']' then
      -- a bracket right after `[^` would be a member of the class
      if cs = [] then none else (tokens .plain rest).map (Token.set (.noneOf cs) :: ·)
    else if c = '[' ∨ c = '\\' ∨ c = '-' then none
    else tokens (.negated (cs ++ [c])) rest

def items : List Token → Option (List Item)
  | [] => some []
  | .start :: rest => (items rest).map (Item.start :: ·)
  | .set set :: .plus :: rest => (items rest).map (Item.plus set :: ·)
  | .set set :: .star :: rest => (items rest).map (Item.star set :: ·)
  | .set set :: rest => (items rest).map (Item.one set :: ·)
  | .plus :: _ => none
  | .star :: _ => none

def parse (text : String) : Option (List Item) := tokens .plain text.toList >>= items

/-- Go's `regexp.QuoteMeta`. -/
def quoteMeta (text : String) : String :=
  String.ofList (text.toList.flatMap fun c => if isSpecial c then ['\\', c] else [c])

def starRests (set : CharSet) : List Char → List (List Char)
  | [] => [[]]
  | c :: rest => (c :: rest) :: if set.holds c then starRests set rest else []

/-- What an item can leave over of the text from where it starts; `whole` is all
    of the text. -/
def Item.rests (whole : List Char) : Item → List Char → List (List Char)
  | .start, text => if text.length = whole.length then [text] else []
  | .one _, [] => []
  | .one set, c :: rest => if set.holds c then [rest] else []
  | .plus _, [] => []
  | .plus set, c :: rest => if set.holds c then starRests set rest else []
  | .star set, text => starRests set text

def rests (whole : List Char) : List Item → List Char → List (List Char)
  | [], text => [text]
  | item :: items, text => (item.rests whole text).flatMap (rests whole items)

/-- Whether the expression matches all of the text; none for an expression that
    cannot be read. -/
def fullMatch (expression text : String) : Option Bool :=
  (parse expression).map fun items => (rests text.toList items text.toList).contains []

theorem tokens_literal {c : Char} (plain : isSpecial c = false) (rest : List Char) :
    tokens .plain (c :: rest) = (tokens .plain rest).map (Token.set (.literal c) :: ·) := by
  have differs : ∀ special : Char, isSpecial special = true → c ≠ special := by
    rintro special isSpecial rfl
    rw [plain] at isSpecial
    cases isSpecial
  rw [tokens, if_neg (differs _ (by decide)), if_neg (differs _ (by decide)), if_neg (differs _ (by decide)),
    if_neg (differs _ (by decide)), if_neg (differs _ (by decide)), if_neg (differs _ (by decide)), plain]
  rfl

theorem tokens_quoteMeta (text : String) (rest : List Char) :
    tokens .plain ((quoteMeta text).toList ++ rest) =
      (tokens .plain rest).map ((text.toList.map fun c => Token.set (.literal c)) ++ ·) := by
  rw [quoteMeta, String.toList_ofList]
  induction text.toList with
  | nil => simp
  | cons c cs ih =>
    rw [List.flatMap_cons]
    cases special : isSpecial c with
    | true => simp [tokens, special, ih, Function.comp_def]
    | false => simp [tokens_literal special, ih, Function.comp_def]

theorem items_literals (cs : List Char) (set : CharSet) (rest : List Token) :
    items ((cs.map fun c => Token.set (.literal c)) ++ .set set :: rest) =
      (items (.set set :: rest)).map ((cs.map fun c => Item.one (.literal c)) ++ ·) := by
  induction cs with
  | nil => simp
  | cons c cs ih =>
    cases cs with
    | nil => simp [items]
    | cons next cs =>
      simp only [List.map_cons, List.cons_append] at ih ⊢
      rw [items, ih, Option.map_map]
      · rfl
      · simp
      · simp

variable {rest text : List Char} {set : CharSet}

theorem mem_starRests :
    rest ∈ starRests set text ↔ ∃ taken, text = taken ++ rest ∧ ∀ c ∈ taken, set.holds c = true := by
  induction text with
  | nil =>
    simp only [starRests, List.mem_singleton, List.nil_eq, List.append_eq_nil_iff]
    constructor
    · rintro rfl
      exact ⟨[], ⟨rfl, rfl⟩, by simp⟩
    · rintro ⟨_, ⟨_, rfl⟩, _⟩
      rfl
  | cons c text ih =>
    rw [starRests, List.mem_cons]
    constructor
    · rintro (rfl | mem)
      · exact ⟨[], rfl, by simp⟩
      · split at mem
        · next holds =>
          obtain ⟨taken, rfl, all⟩ := ih.mp mem
          exact ⟨c :: taken, rfl, List.forall_mem_cons.mpr ⟨holds, all⟩⟩
        · cases mem
    · rintro ⟨taken, same, all⟩
      cases taken with
      | nil => exact Or.inl same.symm
      | cons head taken =>
        obtain ⟨rfl, rfl⟩ := List.cons.inj same
        obtain ⟨holds, later⟩ := List.forall_mem_cons.mp all
        rw [if_pos holds]
        exact Or.inr (ih.mpr ⟨taken, rfl, later⟩)

variable {whole : List Char}

theorem mem_start_rests : rest ∈ Item.start.rests whole text ↔ text.length = whole.length ∧ rest = text := by
  rw [Item.rests]
  split
  · next atStart => simp [atStart]
  · next later => simp [later]

theorem mem_star_rests :
    rest ∈ (Item.star set).rests whole text ↔ ∃ taken, text = taken ++ rest ∧ ∀ c ∈ taken, set.holds c = true :=
  mem_starRests

theorem mem_plus_rests : rest ∈ (Item.plus set).rests whole text ↔
      ∃ taken, taken ≠ [] ∧ text = taken ++ rest ∧ ∀ c ∈ taken, set.holds c = true := by
  cases text with
  | nil =>
    simp only [Item.rests, List.not_mem_nil, false_iff]
    rintro ⟨taken, nonempty, same, _⟩
    exact nonempty (List.append_eq_nil_iff.mp same.symm).1
  | cons c text =>
    rw [Item.rests]
    constructor
    · intro mem
      split at mem
      · next holds =>
        obtain ⟨taken, rfl, all⟩ := mem_starRests.mp mem
        exact ⟨c :: taken, by simp, rfl, List.forall_mem_cons.mpr ⟨holds, all⟩⟩
      · cases mem
    · rintro ⟨taken, nonempty, same, all⟩
      cases taken with
      | nil => exact absurd rfl nonempty
      | cons head taken =>
        obtain ⟨rfl, rfl⟩ := List.cons.inj same
        obtain ⟨holds, later⟩ := List.forall_mem_cons.mp all
        rw [if_pos holds]
        exact mem_starRests.mpr ⟨taken, rfl, later⟩

theorem mem_rests_cons {item : Item} {items : List Item} :
    rest ∈ rests whole (item :: items) text ↔ ∃ after ∈ item.rests whole text, rest ∈ rests whole items after :=
  List.mem_flatMap

theorem mem_rests_nil : rest ∈ rests whole [] text ↔ rest = text :=
  List.mem_singleton

theorem mem_rests_literals {cs : List Char} {items : List Item} :
    rest ∈ rests whole ((cs.map fun c => Item.one (.literal c)) ++ items) text ↔
      ∃ after, text = cs ++ after ∧ rest ∈ rests whole items after := by
  induction cs generalizing text with
  | nil => simp
  | cons c cs ih =>
    cases text with
    | nil => simp [rests, Item.rests]
    | cons head text =>
      by_cases same : head = c
      · subst same
        simp [rests, Item.rests, CharSet.holds, ih]
      · simp [rests, Item.rests, CharSet.holds, same]

end OtelFleet.Data.Regex
