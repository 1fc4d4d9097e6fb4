import OtelFleet.Api.Webhooks
import OtelFleet.Crypto.Cipher
import OtelFleet.Store.AuthProviders

/-! # Settings of the login providers

The handlers that create, change and delete login providers, and the one that
brings all stored secrets under the current master key.
-/

namespace OtelFleet.Api

open Crypto Data Semantics Store
open Pipelines(errDecrypt errNotConfigured)

def typeSAML : String := "saml"
def typeOIDC : String := "oidc"

def knownProviderTypes : List String := ["google", "microsoft", "github", typeOIDC, typeSAML]

structure AuthProviderCreate where
  type : String
  name : String
  displayName : String
  clientId : Option String := none
  clientSecret : Option String := none
  issuer : Option String := none
  idpEntityId : Option String := none
  idpSsoUrl : Option String := none
  idpCertificate : Option String := none
  enabled : Option Bool := none

structure AuthProviderPatch where
  displayName : Option String := none
  clientId : Option String := none
  clientSecret : Option String := none
  issuer : Option String := none
  idpEntityId : Option String := none
  idpSsoUrl : Option String := none
  idpCertificate : Option String := none
  enabled : Option Bool := none

structure AuthProviderConfig where
  id : Uuid
  type : String
  name : String
  displayName : String
  clientID : String
  issuer : Option String
  saml : Option SAMLConfig
  enabled : Bool
  createdAt : Int

def toAuthProviderConfig (provider : AuthProvider) : AuthProviderConfig where
  id := provider.id
  type := provider.type
  name := provider.name
  displayName := provider.displayName
  clientID := provider.clientID
  issuer := provider.issuer
  saml := if provider.type = typeSAML then some (provider.samlConfig.getD {}) else none
  enabled := provider.enabled
  createdAt := provider.createdAt

/-- What the handlers need beside the store.  `parseCertificate` is that of the
    `auth` package with the message of its error; `nonce` is the randomness of an
    encryption and `rotationNonce` that of each secret of a rotation. -/
structure SettingsEnv where
  text : CaseMap
  parseCertificate : String → Except String Unit
  parseURL : String → Except String ParsedURL
  ring : Option KeyRing
  nonce : Except String Nat
  rotationNonce : SecretColumn → Uuid → Except String Nat
  hintKey : String
  newID : Uuid
  now : Int
  sendTest : Option (Webhook → Bool × String) := none

def SettingsEnv.webhookEnv (env : SettingsEnv) : WebhookEnv where
  parseURL := env.parseURL
  cipher := env.ring.map KeyRing.cipher
  entropy := env.nonce
  hintKey := env.hintKey
  newID := env.newID
  now := env.now
  sendTest := env.sendTest

/-- `providerNamePattern`, `^[a-z0-9][a-z0-9-]{1,30}$`. -/
def validProviderName (name : String) : Bool :=
  2 ≤ name.toList.length && name.toList.length ≤ 31 && name.toList.all Tenants.isSlugChar &&
    name.toList.head?.any Tenants.isSlugAlnum

def isHttps (url : String) : Bool := "https://".toList.isPrefixOf url.toList

def trimSlash (url : String) : String :=
  if url.toList.getLast? = some '/' then String.ofList url.toList.dropLast else url

section

variable (env : SettingsEnv)

def checkDisplayName (displayName : String) : Except ApiError String :=
  let trimmed := env.text.trimSpace displayName
  if trimmed = "" ∨ 100 < trimmed.utf8ByteSize then .error (.badRequest "displayName must be 1-100 characters")
  else .ok trimmed

def validateSAMLConfig (config : SAMLConfig) : Option String :=
  if env.text.trimSpace config.idpEntityID = "" then some "idpEntityId is required"
  else if !isHttps config.idpSSOURL then some "idpSsoUrl must be an https:// URL"
  else
    match env.parseCertificate config.idpCertificate with
    | .error msg => some ("idpCertificate: " ++ msg)
    | .ok () => none

def buildSAMLConfig (entityID ssoURL certificate : Option String) : Except ApiError SAMLConfig :=
  let trimmed (value : Option String) := (value.map env.text.trimSpace).getD ""
  let config : SAMLConfig := ⟨trimmed entityID, trimmed ssoURL, trimmed certificate⟩
  match validateSAMLConfig env config with
  | some msg => .error (.badRequest ("type saml: " ++ msg))
  | none => .ok config

/-- The part of `CreateAuthProviderConfig` before the store: the row that it inserts. -/
def newAuthProvider [PrintTable] (body : AuthProviderCreate) : Except ApiError AuthProvider := do
  if body.type ∉ knownProviderTypes then throw (.badRequest ("unknown provider type " ++ quote body.type))
  if !validProviderName body.name then throw (.badRequest "name must match ^[a-z0-9][a-z0-9-]\x7b1,30\x7d$")
  let displayName ← checkDisplayName env body.displayName
  let provider : AuthProvider :=
    { id := env.newID, type := body.type, name := body.name, displayName, clientSecretEnc := "",
      enabled := body.enabled.getD true, createdAt := env.now, updatedAt := env.now }
  if body.type = typeSAML then
    -- SAML carries no secret: the column is set to no bytes at all
    let config ← buildSAMLConfig env body.idpEntityId body.idpSsoUrl body.idpCertificate
    return { provider with samlConfig := some config }
  let clientID := body.clientId.getD ""
  let clientSecret := body.clientSecret.getD ""
  if clientID = "" ∨ clientSecret = "" then throw (.badRequest "clientId and clientSecret are required")
  if body.type = typeOIDC ∧ !(body.issuer.any isHttps) then
    throw (.badRequest "type oidc requires an https:// issuer")
  let secretEnc ← encryptClientSecret env.webhookEnv clientSecret
  return { provider with
    clientID, clientSecretEnc := secretEnc, issuer := if body.type = typeOIDC then body.issuer.map trimSlash else none }

/-- The part of `UpdateAuthProviderConfig` before it looks at the stored provider. -/
def authProviderUpdate (body : AuthProviderPatch) : Except ApiError AuthProviderUpdate := do
  let displayName ← match body.displayName with
    | some displayName => some <$> checkDisplayName env displayName
    | none => pure none
  if body.clientId = some "" then throw (.badRequest "clientId must not be empty")
  if body.issuer.any (!isHttps ·) then throw (.badRequest "issuer must be an https:// URL")
  -- omitted: keep the stored secret
  let clientSecretEnc ← match body.clientSecret with
    | some secret =>
      if secret = "" then throw (.badRequest "clientSecret must not be empty (omit it to keep the stored one)")
      else some <$> encryptClientSecret env.webhookEnv secret
    | none => pure none
  return { displayName, clientID := body.clientId, clientSecretEnc, issuer := body.issuer.map trimSlash,
           enabled := body.enabled }

def mergedSAMLConfig (current : SAMLConfig) (body : AuthProviderPatch) : Except ApiError SAMLConfig :=
  let merged (value : Option String) (stored : String) := some ((value.map env.text.trimSpace).getD stored)
  buildSAMLConfig env (merged body.idpEntityId current.idpEntityID) (merged body.idpSsoUrl current.idpSSOURL)
    (merged body.idpCertificate current.idpCertificate)

end

def AuthProviderPatch.changesSAML (body : AuthProviderPatch) : Bool :=
  body.idpEntityId.isSome || body.idpSsoUrl.isSome || body.idpCertificate.isSome

section

variable (env : SettingsEnv) (principal : Option Principal) (faults : Faults StoreError)

def providerEntry (action : String) (id : Uuid) (payload : List (String × Json)) : AuditEntry :=
  { actorUserID := actorID principal, action := action, entityType := "auth_provider", entityID := id.toText,
    payload := .obj payload }

def providerError : StoreError → ApiError
  | .notFound => .notFound "provider not found"
  | _ => .internal

def loadAuthProvider (id : Uuid) (db : SettingsTables) : Except ApiError AuthProvider :=
  match faults 0 with
  | some err => .error (providerError err)
  | none => (db.getAuthProvider id).mapError providerError

def createAuthProviderConfig [PrintTable] (body : AuthProviderCreate) (db : SettingsTables) :
    Except ApiError AuthProviderConfig × SettingsTables :=
  match newAuthProvider env body with
  | .error err => (.error err, db)
  | .ok provider =>
    let entry := providerEntry principal "authprovider.create" provider.id
      [("enabled", .bool provider.enabled), ("name", .str body.name), ("type", .str body.type)]
    match createAuthProvider faults entry db provider with
    | (.ok created, db) => (.ok (toAuthProviderConfig created), db)
    | (.error .nameExists, db) => (.error (.conflict "a provider with this name already exists"), db)
    | (.error _, db) => (.error .internal, db)

def updatePayload (upd : AuthProviderUpdate) : List (String × Json) :=
  (upd.clientID.map fun clientID => ("client_id", Json.str clientID)).toList ++
  (upd.clientSecretEnc.map fun _ => ("client_secret", Json.str "(rotated)")).toList ++
  (upd.displayName.map fun displayName => ("display_name", Json.str displayName)).toList ++
  (upd.enabled.map fun enabled => ("enabled", Json.bool enabled)).toList ++
  (upd.issuer.map fun issuer => ("issuer", Json.str issuer)).toList ++
  (upd.samlConfig.map fun _ => ("saml_config", Json.str "(updated)")).toList

def withSAMLConfig (id : Uuid) (body : AuthProviderPatch) (upd : AuthProviderUpdate) (db : SettingsTables) :
    Except ApiError AuthProviderUpdate := do
  if body.changesSAML then
    let current ← loadAuthProvider faults id db
    let config ← mergedSAMLConfig env (current.samlConfig.getD {}) body
    return { upd with samlConfig := some config }
  return upd

def updateAuthProviderConfig (id : Uuid) (body : AuthProviderPatch) (db : SettingsTables) :
    Except ApiError AuthProviderConfig × SettingsTables :=
  match (authProviderUpdate env body).bind fun upd => withSAMLConfig env faults id body upd db with
  | .error err => (.error err, db)
  | .ok upd =>
    match updateAuthProvider (fun n => faults (n + 1))
      (providerEntry principal "authprovider.update" id (updatePayload upd)) db id upd env.now with
    | (.ok updated, db) => (.ok (toAuthProviderConfig updated), db)
    | (.error err, db) => (.error (providerError err), db)

def deleteAuthProviderConfig (id : Uuid) (db : SettingsTables) : Except ApiError Unit × SettingsTables :=
  match loadAuthProvider faults id db with
  | .error err => (.error err, db)
  | .ok provider =>
    let entry := providerEntry principal "authprovider.delete" id
      [("name", .str provider.name), ("type", .str provider.type)]
    match deleteAuthProvider (fun n => faults (n + 1)) entry db id with
    | (.ok (), db) => (.ok (), db)
    | (.error err, db) => (.error (providerError err), db)

end

/-- The new ciphertext of a stored one, unless it is under the primary key already. -/
def migrateSecret (ring : KeyRing) (nonce : Except String Nat) (enc : String) : Except StoreError (Option String) :=
  if ring.encryptedWithPrimary enc then .ok none
  else
    match ring.decrypt enc with
    | none => .error (.other errDecrypt)
    | some plaintext =>
      match nonce with
      | .error msg => .error (.other ("generate nonce: " ++ msg))
      | .ok nonce => .ok (some (ring.encrypt nonce plaintext))

inductive ReencryptResponse where
  | migrated (count : Nat)
  | unavailable (msg : String)

def handleReencryptSecrets (env : SettingsEnv) (faults : Faults StoreError) (db : SettingsTables) :
    Except ApiError ReencryptResponse × SettingsTables :=
  match env.ring with
  | none => (.ok (.unavailable errNotConfigured), db)
  | some ring =>
    match reencryptSecrets faults (fun column id enc => migrateSecret ring (env.rotationNonce column id) enc) db with
    | (.ok count, db) => (.ok (.migrated count), db)
    | (.error _, db) => (.error .internal, db)

inductive SettingsCall where
  | createProvider (body : AuthProviderCreate)
  | updateProvider (id : Uuid) (body : AuthProviderPatch)
  | deleteProvider (id : Uuid)
  | webhooks (route : WebhookRoute)
  | reencrypt

/-- A call that the guard has let through, with its deployment's keys. -/
structure SettingsRequest where
  call : SettingsCall
  env : SettingsEnv
  principal : Option Principal
  faults : Faults StoreError

def serveSettings [PrintTable] (req : SettingsRequest) (db : SettingsTables) : SettingsTables :=
  match req.call with
  | .createProvider body => (createAuthProviderConfig req.env req.principal req.faults body db).2
  | .updateProvider id body => (updateAuthProviderConfig req.env req.principal req.faults id body db).2
  | .deleteProvider id => (deleteAuthProviderConfig req.principal req.faults id db).2
  | .webhooks route =>
    { db with toWebhookTables :=
      (handleWebhooks req.env.webhookEnv req.principal req.faults route db.toWebhookTables).2 }
  | .reencrypt => (handleReencryptSecrets req.env req.faults db).2

end OtelFleet.Api
