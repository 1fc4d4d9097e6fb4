import Mathlib.Data.String.Basic
import OtelFleet.Data.CaseMap

/-! # Customer slugs, and the slug of a new customer -/

namespace OtelFleet.Tenants

def isSlugAlnum (c : Char) : Bool :=
  ('a' ≤ c && c ≤ 'z') || ('0' ≤ c && c ≤ '9')

def isSlugChar (c : Char) : Bool :=
  isSlugAlnum c || c = '-'

/-- `slugPattern`, `^[a-z0-9][a-z0-9-]{1,62}[a-z0-9]$`: 3 to 64 characters, the
    outer two without a hyphen. -/
def validSlug (s : String) : Bool :=
  3 ≤ s.toList.length && s.toList.length ≤ 64 && s.toList.all isSlugChar &&
    s.toList.head?.any isSlugAlnum && s.toList.getLast?.any isSlugAlnum

/-- A valid slug never has the separator of the component IDs in it. -/
theorem underscore_notMem_of_validSlug {s : String} (valid : validSlug s) : '_' ∉ s.toList := by
  intro mem
  simp only [validSlug, Bool.and_eq_true, List.all_eq_true] at valid
  exact absurd (valid.1.1.2 _ mem) (by decide)

/-- The loop of `DeriveSlug` over the lower-cased name: a run of other
    characters becomes one hyphen, and none stands in front. -/
def deriveSlugLoop : Bool → List Char → List Char
  | _, [] => []
  | lastHyphen, c :: rest =>
    if isSlugAlnum c then c :: deriveSlugLoop false rest
    else if lastHyphen then deriveSlugLoop true rest
    else '-' :: deriveSlugLoop true rest

/-- `strings.ToLower` as far as the slug can tell: the Kelvin sign and the
    dotted capital I are the only characters outside ASCII that fall into it. -/
def toLower (c : Char) : Char :=
  if 'A' ≤ c && c ≤ 'Z' then Char.ofNat (c.toNat + 32)
  else if c = '\u212A' then 'k'
  else if c = '\u0130' then 'i'
  else c

/-- `strings.Trim(s, "-")`. -/
def trimHyphens (s : List Char) : List Char :=
  ((s.dropWhile (· = '-')).reverse.dropWhile (· = '-')).reverse

def deriveSlug (name : String) : String :=
  let s := trimHyphens (deriveSlugLoop true (name.toList.map toLower))
  let s := if 64 < s.length then trimHyphens (s.take 64) else s
  -- the pattern requires at least 3 characters
  if s = [] then "customer" else String.ofList (s ++ List.replicate (3 - s.length) '0')

inductive InsertAnswer where
  | created
  | slugExists
  /-- Another unique constraint: the client id is taken. -/
  | conflict
  | failed (err : String)
deriving DecidableEq

inductive CreateError where
  | invalidName
  | invalidSlug
  | slugExists
  | store (err : String)
  | noFreeSlug (baseSlug : String)
deriving DecidableEq

/-- `fmt.Sprintf("%s-%d", baseSlug, n)`, from the first collision on. -/
def withSuffix (baseSlug : String) : Option Nat → String
  | none => baseSlug
  | some n => baseSlug ++ "-" ++ toString n

/-- The retry loop with so many attempts left; gives the slug that is stored. -/
def createAttempts (derived : Bool) (baseSlug : String) (answers : Nat → InsertAnswer) :
    Nat → Nat → String → Except CreateError String
  | 0, _, _ => .error (.noFreeSlug baseSlug)
  | left + 1, attempt, trySlug =>
    match answers attempt with
    | .created => .ok trySlug
    | .slugExists =>
      if derived then createAttempts derived baseSlug answers left (attempt + 1) (withSuffix baseSlug (some (attempt + 1)))
      else .error .slugExists
    | .conflict => createAttempts derived baseSlug answers left (attempt + 1) trySlug
    | .failed err => .error (.store err)

def maxAttempts : Nat := 10

/-- `CreateCustomer`, as far as the slug: `answers` are those of the store, by attempt. -/
def createCustomer (text : Data.CaseMap) (answers : Nat → InsertAnswer) (name : String) (slug : Option String) :
    Except CreateError String :=
  let name := text.trimSpace name
  if name = "" ∨ 200 < name.utf8ByteSize then .error .invalidName
  else
    match slug with
    | none => createAttempts true (deriveSlug name) answers maxAttempts 1 (deriveSlug name)
    | some slug =>
      if validSlug slug then createAttempts false slug answers maxAttempts 1 slug else .error .invalidSlug

end OtelFleet.Tenants
