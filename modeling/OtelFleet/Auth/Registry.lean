import OtelFleet.Api.AuthProviders
import OtelFleet.Data.Sorting

/-! # The registry of login providers

`LoginProviders`, which the login page shows, and `Resolve`, which each login begins
with, over the table of providers and the one that the environment configures.
-/

namespace OtelFleet.Auth

open Api Crypto Data Store

structure OIDCProvider where
  name : String
  displayName : String
  issuer : String
  clientID : String
  clientSecret : String

/-- The variables `OTEL_FLEET_OIDC_*` that are set. -/
structure OIDCVariables where
  issuer : Option String := none
  name : Option String := none
  clientID : Option String := none
  clientSecret : Option String := none

def loadOIDC (env : OIDCVariables) : Except String (List OIDCProvider) :=
  let issuer := env.issuer.getD ""
  let clientID := env.clientID.getD ""
  if issuer = "" then .ok []
  else if clientID = "" then .error "OTEL_FLEET_OIDC_ISSUER is set but OTEL_FLEET_OIDC_CLIENT_ID is empty"
  else .ok [⟨"oidc", env.name.getD "SSO", issuer, clientID, env.clientSecret.getD ""⟩]

structure LoginProvider where
  name : String
  displayName : String

structure ResolvedProvider where
  type : String
  name : String
  displayName : String
  issuer : String
  clientID : String
  clientSecret : String := ""
  saml : Option SAMLConfig := none

inductive Fingerprint where
  | db (id : Uuid) (updatedAt : Int)
  | env (name : String)

inductive ResolveError where
  | unknownProvider
  | parseSAML (name : String)
  | decryptSecret (name : String)

def effectiveIssuer (type issuer : String) : String :=
  if type = "google" then "https://accounts.google.com"
  else if type = "microsoft" then "https://login.microsoftonline.com/common/v2.0"
  else if type = "github" then ""
  else issuer

structure Registry where
  env : List OIDCProvider
  cipher : Option KeyRing

namespace Registry

variable (reg : Registry) (db : SettingsTables)

def listAuthProviders : List AuthProvider :=
  (db.providers.filter fun p => p.enabled).insertionSort
    (byThen AuthProvider.createdAt fun a b => a.id.bits.toNat ≤ b.id.bits.toNat)

def loginProviders : List LoginProvider :=
  let dbProviders := listAuthProviders db
  let taken := dbProviders.map AuthProvider.name
  (dbProviders.map fun p => ⟨p.name, p.displayName⟩) ++
    (reg.env.filter fun p => p.name ∉ taken).map fun p => ⟨p.name, p.displayName⟩

def resolve (name : String) : Except ResolveError (ResolvedProvider × Fingerprint) :=
  match db.providers.find? fun p => p.name = name with
  | some p =>
    if p.enabled then
      let info : ResolvedProvider :=
        { type := p.type, name := p.name, displayName := p.displayName
          issuer := effectiveIssuer p.type (p.issuer.getD ""), clientID := p.clientID }
      if p.type = typeSAML then
        match p.samlConfig with
        | none => .error (.parseSAML name)
        | some cfg => .ok ({ info with saml := some cfg }, .db p.id p.updatedAt)
      else
        match reg.cipher.bind fun ring => ring.decrypt p.clientSecretEnc with
        | none => .error (.decryptSecret name)
        | some secret => .ok ({ info with clientSecret := secret }, .db p.id p.updatedAt)
    else .error .unknownProvider
  | none =>
    match reg.env.find? fun e => e.name = name with
    | some e => .ok (⟨typeOIDC, e.name, e.displayName, e.issuer, e.clientID, e.clientSecret, none⟩, .env e.name)
    | none => .error .unknownProvider

end Registry

end OtelFleet.Auth
