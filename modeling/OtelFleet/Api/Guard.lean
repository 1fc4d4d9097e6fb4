import OtelFleet.Api.Scope

/-! # The guard

The middleware in front of every API route: authentication, admin-only areas,
CSRF and roles.  It attaches the principal, with its tenant scope, to the request.
-/

namespace OtelFleet.Api

open Semantics Store

def publicPaths : List String := ["/api/v1/auth/providers", "/api/v1/auth/dev-login"]

def logoutPath : String := "/api/v1/auth/logout"

def adminPathPrefixes : List String := [
  "/api/v1/users",
  "/api/v1/settings/auth-providers",
  "/api/v1/settings/api-tokens",
  "/api/v1/settings/alert-rules",
  "/api/v1/settings/maintenance-windows",
  "/api/v1/settings/reencrypt-secrets",
  "/api/v1/settings/billing",
  "/api/v1/billing",
  "/api/v1/audit",
  "/api/v1/metrics"]

def isAdminOnlyPath (path : String) : Bool :=
  adminPathPrefixes.any fun p => path = p || (p ++ "/").toList.isPrefixOf path.toList

inductive Method where
  | get
  | head
  | post
  | put
  | patch
  | delete
  | options
deriving DecidableEq

def isMutating : Method → Bool
  | .post | .put | .patch | .delete => true
  | .get | .head | .options => false

/-- How a request authenticates.  An `otm_pat_` token comes with the role and the
    creator that were found for it, if any; a session with its user and whether the
    CSRF header fits it. -/
inductive Credentials where
  | apiToken (identity : Option (String × Option Uuid))
  | session (userID : Option Uuid) (validCSRF : Bool)

inductive Denial where
  | unauthorized (msg : String)
  | forbidden (msg : String)
  | internal

structure GuardedRequest where
  method : Method
  path : String
  credentials : Credentials
  faults : Faults StoreError

section

variable (users : UserTables) (req : GuardedRequest)

def guardToken (identity : Option (String × Option Uuid)) : Except Denial Principal :=
  match identity with
  | none => .error (.unauthorized "invalid API token")
  | some (role, createdBy) =>
    if isAdminOnlyPath req.path && !atLeast role roleAdmin then .error (.forbidden "requires admin role")
    else if isMutating req.method && req.path ≠ logoutPath && !canMutate role then
      .error (.forbidden "requires operator or admin role")
    else
      -- management tokens are unscoped, and audit attributes to the token's creator
      .ok ⟨{ id := createdBy.getD ⟨0⟩, email := "api-token", role := role, createdAt := 0 }, true, []⟩

def guardUser (user : User) (validCSRF : Bool) : Except Denial Principal :=
  if user.disabledAt.isSome then .error (.unauthorized "account disabled")
  else if isAdminOnlyPath req.path && !atLeast user.role roleAdmin then .error (.forbidden "requires admin role")
  else if isMutating req.method && !validCSRF then .error (.forbidden "missing or invalid CSRF token")
  else if isMutating req.method && req.path ≠ logoutPath && !canMutate user.role then
    .error (.forbidden "requires operator or admin role")
  else if atLeast user.role roleAdmin then .ok (sessionPrincipal user [])
  else
    match req.faults 1 with
    | some _ => .error .internal
    | none => .ok (sessionPrincipal user (users.listUserCustomerIDs user.id))

def guardSession (userID : Option Uuid) (validCSRF : Bool) : Except Denial Principal :=
  match userID with
  | none => .error (.unauthorized "authentication required")
  | some userID =>
    match req.faults 0 with
    | some .notFound => .error (.unauthorized "unknown user")
    | some _ => .error .internal
    | none =>
      match users.getUser userID with
      | .error .notFound => .error (.unauthorized "unknown user")
      | .error _ => .error .internal
      | .ok user => guardUser users req user validCSRF

/-- `Guard`: the principal of a request that is let through, which a public path
    does not have. -/
def guard : Except Denial (Option Principal) :=
  if req.path ∈ publicPaths then .ok none
  else
    match req.credentials with
    | .apiToken identity => (guardToken req identity).map some
    | .session userID validCSRF => (guardSession users req userID validCSRF).map some

end

/-- The actor of audit entries; a token without a recorded creator has none. -/
def actorID (principal : Option Principal) : Option Uuid :=
  principal.bind fun p => if p.user.id = ⟨0⟩ then none else some p.user.id

end OtelFleet.Api
