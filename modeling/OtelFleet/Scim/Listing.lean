import OtelFleet.Scim.Users

/-! # Listing users by SCIM

`GET /Users`: one user by name, or the window of `startIndex` and `count` over all
users.  Go's `int` has 64 bits and wraps around.
-/

namespace OtelFleet.Scim

open Api Auth Data Store

/-- `userResource`, without the texts that are the same for every user. -/
structure UserResource where
  id : Uuid
  externalID : String
  userName : String
  name : Option String
  displayName : String
  emails : List Email
  active : Bool
  created : Int

def toResource (user : User) : UserResource where
  id := user.id
  externalID := user.externalID.getD ""
  userName := user.email
  name := nonempty (user.displayName.getD "")
  displayName := user.displayName.getD ""
  emails := [⟨user.email, true⟩]
  active := user.disabledAt.isNone
  created := user.createdAt

structure ListResponse where
  totalResults : Nat
  startIndex : Int
  itemsPerPage : Nat
  resources : List UserResource

structure UserQuery where
  filter : String
  startIndex : String
  count : String

def parseUserNameFilter (text : CaseMap) (filter : String) : String :=
  let f := text.trimSpace filter
  if "username eq ".toList.isPrefixOf (text.toLower f).toList then
    let rest := (text.trimSpace (String.ofList (f.toList.drop "userName eq ".length))).toList
    String.ofList ((rest.dropWhile (· = '"')).reverse.dropWhile (· = '"')).reverse
  else ""

def atoiDefault (s : String) (otherwise : Int) : Int := if s = "" then otherwise else (parseInt64 s).getD otherwise

def addInt (a b : Int) : Int := (a + b).bmod (2 ^ 64)

/-- `items[lo:hi]`, or nothing where Go panics. -/
def slice {α : Type} (items : List α) (lo hi : Int) : Option (List α) :=
  if 0 ≤ lo ∧ lo ≤ hi ∧ hi ≤ items.length then some ((items.drop lo.toNat).take (hi - lo).toNat) else none

/-- The part of `listUsers` after the parameters are read; nothing where it panics. -/
def listPage (users : List User) (startIndex count : Int) : Option ListResponse :=
  let start := if startIndex < 1 then 1 else startIndex
  let count := if count < 0 then 0 else count
  let total : Int := users.length
  let lo := if start - 1 > total then total else start - 1
  let hi := if addInt lo count > total then total else addInt lo count
  (slice users lo hi).map fun page => ⟨users.length, start, page.length, page.map toResource⟩

/-- `listUsers`, with the answers of the store; nothing where it panics. -/
def listUsers (text : CaseMap) (query : UserQuery) (byEmail : String → Except StoreError User)
    (listed : Except StoreError (List User)) : Option (Except Refusal ListResponse) :=
  let f := parseUserNameFilter text query.filter
  if f ≠ "" then
    match byEmail f with
    | .ok user => some (.ok ⟨1, 1, 1, [toResource user]⟩)
    | .error .notFound => some (.ok ⟨0, 1, 0, []⟩)
    | .error _ => some (.error ⟨500, "internal error"⟩)
  else
    match listed with
    | .error _ => some (.error ⟨500, "internal error"⟩)
    | .ok users => (listPage users (atoiDefault query.startIndex 1) (atoiDefault query.count users.length)).map .ok

end OtelFleet.Scim
