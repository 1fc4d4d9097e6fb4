import OtelFleet.Semantics.Body
import OtelFleet.Store.Webhooks

/-! # Login providers and the rotation of secrets

The table `auth_providers` beside that of the notification channels, and
`ReencryptSecrets`, which rewrites the encrypted columns of both.
-/

namespace OtelFleet.Store

open Data Semantics

/-- `auth.SAMLConfig`, the content of `saml_config`. -/
structure SAMLConfig where
  idpEntityID : String := ""
  idpSSOURL : String := ""
  idpCertificate : String := ""

/-- A row of `auth_providers`.  The secret is given by its base64 text; the column
    is not nullable, and empty for a provider without a secret. -/
structure AuthProvider where
  id : Uuid
  type : String
  name : String
  displayName : String
  clientID : String := ""
  clientSecretEnc : String
  issuer : Option String := none
  samlConfig : Option SAMLConfig := none
  enabled : Bool
  createdAt : Int
  updatedAt : Int

structure AuthProviderUpdate where
  displayName : Option String := none
  clientID : Option String := none
  clientSecretEnc : Option String := none
  issuer : Option String := none
  samlConfig : Option SAMLConfig := none
  enabled : Option Bool := none

structure SettingsTables extends WebhookTables where
  providers : List AuthProvider

namespace SettingsTables

variable (db : SettingsTables)

def getAuthProvider (id : Uuid) : Except StoreError AuthProvider :=
  match db.providers.find? fun provider => provider.id = id with
  | some provider => .ok provider
  | none => .error .notFound

def insertAuthProvider (provider : AuthProvider) : Except StoreError SettingsTables :=
  if ∃ other ∈ db.providers, other.name = provider.name then .error .nameExists
  else if ∃ other ∈ db.providers, other.id = provider.id then
    .error (.other "insert auth provider: duplicate key value violates unique constraint \"auth_providers_pkey\"")
  else .ok { db with providers := db.providers ++ [provider] }

def patchedProvider (upd : AuthProviderUpdate) (now : Int) (provider : AuthProvider) : AuthProvider :=
  { provider with
    displayName := upd.displayName.getD provider.displayName
    clientID := upd.clientID.getD provider.clientID
    clientSecretEnc := upd.clientSecretEnc.getD provider.clientSecretEnc
    issuer := upd.issuer.orElse fun _ => provider.issuer
    samlConfig := upd.samlConfig.orElse fun _ => provider.samlConfig
    enabled := upd.enabled.getD provider.enabled
    updatedAt := now }

def patchAuthProvider (id : Uuid) (upd : AuthProviderUpdate) (now : Int) : Except StoreError SettingsTables :=
  if ∃ provider ∈ db.providers, provider.id = id then
    .ok { db with providers := db.providers.map fun provider =>
      if provider.id = id then patchedProvider upd now provider else provider }
  else .error .notFound

def removeAuthProvider (id : Uuid) : Except StoreError SettingsTables :=
  if ∃ provider ∈ db.providers, provider.id = id then
    .ok { db with providers := db.providers.filter fun provider => provider.id ≠ id }
  else .error .notFound

def writeAuditEntry (entry : AuditEntry) : SettingsTables :=
  { db with toWebhookTables := db.toWebhookTables.writeAudit entry }

end SettingsTables

open SettingsTables

section

variable (faults : Faults StoreError) (entry : AuditEntry) (db : SettingsTables)

def createAuthProvider (provider : AuthProvider) : Except StoreError AuthProvider × SettingsTables :=
  match inTx faults [fun db => db.insertAuthProvider provider, fun db => .ok (db.writeAuditEntry entry)] db with
  | (.ok (), db) => (.ok provider, db)
  | (.error err, db) => (.error err, db)

def updateAuthProvider (id : Uuid) (upd : AuthProviderUpdate) (now : Int) :
    Except StoreError AuthProvider × SettingsTables :=
  match inTx faults [fun db => db.patchAuthProvider id upd now, fun db => .ok (db.writeAuditEntry entry)] db with
  | (.ok (), db) => (db.getAuthProvider id, db)
  | (.error err, db) => (.error err, db)

def deleteAuthProvider (id : Uuid) : Except StoreError Unit × SettingsTables :=
  inTx faults [fun db => db.removeAuthProvider id, fun db => .ok (db.writeAuditEntry entry)] db

end

inductive SecretColumn where
  /-- `auth_providers.client_secret_enc` -/
  | clientSecret
  /-- `webhooks.secret_enc` -/
  | webhookSecret
deriving DecidableEq

def reencryptColumns : List SecretColumn := [.clientSecret, .webhookSecret]

/-- `SELECT id, col FROM table WHERE col IS NOT NULL`. -/
def SettingsTables.secrets (column : SecretColumn) (db : SettingsTables) : List (Uuid × String) :=
  match column with
  | .clientSecret => db.providers.map fun provider => (provider.id, provider.clientSecretEnc)
  | .webhookSecret => db.webhooks.filterMap fun hook => hook.secretEnc.map fun enc => (hook.id, enc)

/-- `UPDATE table SET col = $1 WHERE id = $2`. -/
def SettingsTables.setSecret (column : SecretColumn) (id : Uuid) (enc : String) (db : SettingsTables) :
    SettingsTables :=
  match column with
  | .clientSecret =>
    { db with providers := db.providers.map fun provider =>
      if provider.id = id then { provider with clientSecretEnc := enc } else provider }
  | .webhookSecret =>
    { db with webhooks := db.webhooks.map fun hook =>
      if hook.id = id then { hook with secretEnc := some enc } else hook }

variable (faults : Faults StoreError) (migrate : SecretColumn → Uuid → String → Except StoreError (Option String))

/-- The loop over the rows of one column.  `migrate` returns the new ciphertext,
    unless the row is to stay as it is. -/
def reencryptBatch (column : SecretColumn) : List (Uuid × String) → Nat → Body SettingsTables StoreError Nat
  | [], migrated => pure migrated
  | (id, enc) :: rest, migrated => do
    match ← Eff.ofExcept (migrate column id enc) with
    | none => reencryptBatch column rest migrated
    | some newEnc =>
      Body.exec faults (SettingsTables.setSecret column id newEnc)
      reencryptBatch column rest (migrated + 1)

def reencryptTables : List SecretColumn → Nat → Body SettingsTables StoreError Nat
  | [], migrated => pure migrated
  | column :: rest, migrated => do
    let batch ← Body.select faults (SettingsTables.secrets column)
    let migrated ← reencryptBatch faults migrate column batch migrated
    reencryptTables rest migrated

/-- `ReencryptSecrets`, with the number of secrets that were rewritten. -/
def reencryptSecrets (db : SettingsTables) : Except StoreError Nat × SettingsTables :=
  transact faults (reencryptTables faults migrate reencryptColumns 0) db

end OtelFleet.Store
