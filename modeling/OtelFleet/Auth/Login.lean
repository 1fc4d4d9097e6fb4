import OtelFleet.Api.Scope
import OtelFleet.Data.CaseMap
import OtelFleet.Data.Decimal
import OtelFleet.Store.Accounts

/-! # Browser logins

The three kinds of external login, from what the identity provider has confirmed
to the user of the session.  Each flow hands an identity and an email to
`finish`, which resolves them to a user.
-/

namespace OtelFleet.Auth

open Api Data Semantics Store

inductive ProviderType where
  | google
  | microsoft
  | github
  | oidc
  | saml
deriving DecidableEq

structure ProviderInfo where
  type : ProviderType
  name : String

def ProviderInfo.identityKey (info : ProviderInfo) : String :=
  match info.type with
  | .google => "google"
  | .microsoft => "microsoft"
  | .github => "github"
  | .oidc => "oidc:" ++ info.name
  | .saml => "saml:" ++ info.name

structure Refusal where
  status : Nat
  message : String
deriving DecidableEq

structure VerifiedLogin where
  identityKey : String
  subject : String
  email : String
  displayName : Option String

def nonempty (value : String) : Option String := if value = "" then none else some value

structure IDToken where
  subject : String
  email : String
  emailVerified : Option Bool
  name : String

def oidcLogin (info : ProviderInfo) (token : IDToken) : Except Refusal VerifiedLogin :=
  if token.email = "" then .error ⟨400, "id_token contains no email"⟩
  else if token.emailVerified = some false then .error ⟨403, "email not verified at identity provider"⟩
  else .ok ⟨info.identityKey, token.subject, token.email, nonempty token.name⟩

structure GitHubEmail where
  email : String
  primary : Bool
  verified : Bool

structure GitHubProfile where
  id : Int
  login : String
  name : String
  emails : List GitHubEmail

def primaryVerifiedEmail (fallback : String) : List GitHubEmail → String
  | [] => fallback
  | entry :: rest =>
    if ¬ entry.verified then primaryVerifiedEmail fallback rest
    else if entry.primary then entry.email
    else primaryVerifiedEmail (if fallback = "" then entry.email else fallback) rest

def githubLogin (info : ProviderInfo) (profile : GitHubProfile) : Except Refusal VerifiedLogin :=
  if profile.id = 0 then .error ⟨502, "GitHub profile has no id"⟩
  else
    let email := primaryVerifiedEmail "" profile.emails
    if email = "" then .error ⟨403, "GitHub account has no verified primary email"⟩
    else
      let name := if profile.name = "" then profile.login else profile.name
      .ok ⟨info.identityKey, toString profile.id, email, nonempty name⟩

/-- A validated assertion; `values` are its attributes, first value first. -/
structure Assertion where
  nameID : String
  values : List (String × String)

def Assertion.get (assertion : Assertion) (name : String) : String := (assertion.values.lookup name).getD ""

def emailAttributeNames : List String :=
  ["email", "mail", "emailAddress", "User.email",
    "http://schemas.xmlsoap.org/ws/2005/05/identity/claims/emailaddress", "urn:oid:0.9.2342.19200300.100.1.3"]

def nameAttributeNames : List String :=
  ["displayName", "name", "cn", "http://schemas.xmlsoap.org/ws/2005/05/identity/claims/name",
    "http://schemas.xmlsoap.org/ws/2005/05/identity/claims/displayname", "urn:oid:2.16.840.1.113730.3.1.241",
    "urn:oid:2.5.4.3"]

def firstValue (assertion : Assertion) (names : List String) : String :=
  ((names.map assertion.get).find? (· ≠ "")).getD ""

def samlEmail (assertion : Assertion) : String :=
  if '@' ∈ assertion.nameID.toList then assertion.nameID else firstValue assertion emailAttributeNames

def samlDisplayName (assertion : Assertion) : String := firstValue assertion nameAttributeNames

def samlLogin (text : CaseMap) (info : ProviderInfo) (assertion : Assertion) : Except Refusal VerifiedLogin :=
  let email := samlEmail assertion
  if email = "" then .error ⟨400, "the SAML assertion carries no email address"⟩
  else
    let subject := if assertion.nameID = "" then email else assertion.nameID
    .ok ⟨info.identityKey, subject, text.toLower email, nonempty (samlDisplayName assertion)⟩

inductive Flow where
  | oidc (token : IDToken)
  | github (profile : GitHubProfile)
  | saml (assertion : Assertion)

def Flow.verify (text : CaseMap) (info : ProviderInfo) : Flow → Except Refusal VerifiedLogin
  | .oidc token => oidcLogin info token
  | .github profile => githubLogin info profile
  | .saml assertion => samlLogin text info assertion

def isAdminEmail (text : CaseMap) (adminEmails : List String) (email : String) : Bool :=
  adminEmails.contains (text.normalize email)

/-- What the environment adds to a login: the generated row values, the failures
    of the transaction, and whether the session can be written. -/
structure LoginCall where
  id : Uuid
  now : Int
  faults : Faults StoreError
  sessionFails : Bool

def loginRow (text : CaseMap) (adminEmails : List String) (call : LoginCall) (login : VerifiedLogin) : LoginRow where
  id := call.id
  now := call.now
  provider := login.identityKey
  subject := login.subject
  email := login.email
  displayName := login.displayName
  roleIfNew := if isAdminEmail text adminEmails login.email then roleAdmin else roleViewer

def finish (text : CaseMap) (adminEmails : List String) (call : LoginCall) (login : VerifiedLogin)
    (db : AccountTables) : Except Refusal Uuid × AccountTables :=
  match upsertUserByIdentity call.faults (loginRow text adminEmails call login) db with
  | (.error _, db) => (.error ⟨500, "login failed"⟩, db)
  | (.ok user, db) =>
    if user.disabledAt.isSome then (.error ⟨403, "account disabled"⟩, db)
    else if call.sessionFails then (.error ⟨500, "login failed"⟩, db)
    else (.ok user.id, db)

def login (text : CaseMap) (adminEmails : List String) (info : ProviderInfo) (flow : Flow) (call : LoginCall)
    (db : AccountTables) : Except Refusal Uuid × AccountTables :=
  match flow.verify text info with
  | .error refusal => (.error refusal, db)
  | .ok verified => finish text adminEmails call verified db

end OtelFleet.Auth
