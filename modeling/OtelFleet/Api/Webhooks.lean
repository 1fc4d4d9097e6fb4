import OtelFleet.Api.Guard
import OtelFleet.Pipelines.Secrets
import OtelFleet.Store.Webhooks

/-! # The webhook routes

The handlers of `/api/v1/settings/webhooks`.  None of them asks for the
principal's scope.
-/

namespace OtelFleet.Api

open Data Semantics Store
open Pipelines(Cipher errNotConfigured)

structure WebhookCreate where
  name : String
  type : Option String := none
  url : Option String := none
  events : List String
  secret : Option String := none
  enabled : Option Bool := none

structure WebhookPatch where
  name : Option String := none
  type : Option String := none
  url : Option String := none
  events : Option (List String) := none
  secret : Option String := none
  enabled : Option Bool := none

inductive WebhookRoute where
  | list
  | create (body : WebhookCreate)
  | update (id : Uuid) (body : WebhookPatch)
  | delete (id : Uuid)
  | test (id : Uuid)

namespace WebhookRoute

def root : String := "/api/v1/settings/webhooks"

def path : WebhookRoute → String
  | .list | .create _ => root
  | .update id _ | .delete id => root ++ "/" ++ id.toText
  | .test id => root ++ "/" ++ id.toText ++ "/test"

def method : WebhookRoute → Method
  | .list => .get
  | .create _ | .test _ => .post
  | .update _ _ => .patch
  | .delete _ => .delete

end WebhookRoute

structure WebhookView where
  id : Uuid
  type : String
  name : String
  url : String
  events : List String
  enabled : Bool
  hasSecret : Bool
  createdAt : Int

def toWebhook (hook : Webhook) : WebhookView where
  id := hook.id
  type := hook.type
  name := hook.name
  url := hook.url
  events := hook.events
  enabled := hook.enabled
  hasSecret := hook.secretEnc.isSome
  createdAt := hook.createdAt

inductive WebhookResponse where
  | webhooks (hooks : List WebhookView)
  | created (hook : WebhookView)
  | updated (hook : WebhookView)
  | deleted
  | tested (ok : Bool) (msg : String)

/-- A URL as `net/url` parses it, with what `net.ParseIP` says of its host. -/
structure ParsedURL where
  scheme : String
  hostname : String
  /-- Whether the host is a link-local, an unspecified or a loopback address, if it
      is an address. -/
  ip : Option (Bool × Bool × Bool)

/-- Case folding as far as `localhost` can tell: the long s folds to an s. -/
def foldChar (c : Char) : Char :=
  if 'A' ≤ c && c ≤ 'Z' then Char.ofNat (c.toNat + 32) else if c = 'ſ' then 's' else c

def isLoopbackHost (url : ParsedURL) : Bool :=
  url.hostname.toList.map foldChar = "localhost".toList || url.ip.any fun (_, _, loopback) => loopback

/-- What a handler needs beside the store.  `parseURL` is `url.Parse` of the trimmed
    text, `entropy` the nonce or the error of the random source, and `sendTest` is
    missing without a dispatcher. -/
structure WebhookEnv where
  parseURL : String → Except String ParsedURL
  cipher : Option Cipher
  entropy : Except String Nat
  hintKey : String
  newID : Uuid
  now : Int
  sendTest : Option (Webhook → Bool × String)

section

variable (env : WebhookEnv)

def validateURL (raw : String) : Option String :=
  match env.parseURL raw with
  | .error msg => some ("invalid URL: " ++ msg)
  | .ok url =>
    if url.hostname = "" then some "URL must include a host"
    else if url.ip.any fun (linkLocal, unspecified, _) => linkLocal || unspecified then
      some "link-local and metadata addresses are not allowed"
    else if url.scheme = "https" then none
    else if url.scheme = "http" then
      if isLoopbackHost url then none
      else some "http:// is only allowed for localhost targets; use https://"
    else some "URL must use https:// (http:// only for localhost)"

def webhookType (type : Option String) : Except ApiError String :=
  match type with
  | none => .ok webhookTypeGeneric
  | some type =>
    if type ∈ [webhookTypeGeneric, webhookTypeSlack, webhookTypePagerDuty, webhookTypeOpsgenie] then .ok type
    else .error (.badRequest ("unknown channel type " ++ type))

def validateChannelURLSecret (type url : String) (hasSecret : Bool) : Option String :=
  if secretedWebhookType type then
    match if url ≠ "" then validateURL env url else none with
    | some msg => some msg
    | none =>
      if !hasSecret then
        if type = webhookTypePagerDuty then
          some "PagerDuty channels require a secret (the integration routing key)"
        else some "Opsgenie channels require a secret (the GenieKey API key)"
      else none
  else validateURL env url

def validateWebhookEvents (events : List String) : Except ApiError (List String) :=
  if events = [] then .error (.badRequest "at least one event is required")
  else
    match events.find? fun event =>
      event ∉ [webhookEventAgentOffline, webhookEventAgentConfigFailed, webhookEventAgentUnhealthy] with
    | some event => .error (.badRequest ("unknown webhook event " ++ event))
    | none => .ok events

def encryptClientSecret (secret : String) : Except ApiError String :=
  match env.cipher with
  | none => .error (.badRequest (errNotConfigured ++ " — generate one with e.g. OTEL_FLEET_MASTER_KEY=" ++ env.hintKey))
  | some cipher =>
    match env.entropy with
    | .error _ => .error .internal
    | .ok nonce => .ok (cipher.encrypt nonce secret)

/-- The part of `CreateWebhook` before the store: the row that it inserts. -/
def newWebhook (actor : Option Uuid) (body : WebhookCreate) : Except ApiError Webhook := do
  if body.name = "" then throw (.badRequest "name is required")
  let events ← validateWebhookEvents body.events
  let type ← webhookType body.type
  let url := body.url.getD ""
  let secret := body.secret.getD ""
  match validateChannelURLSecret env type url (secret ≠ "") with
  | some msg => throw (.badRequest msg)
  | none => pure ()
  -- Slack channels carry no secret
  let secretEnc ← if type ≠ webhookTypeSlack ∧ secret ≠ "" then some <$> encryptClientSecret env secret else pure none
  return { id := env.newID, type, name := body.name, url, events, secretEnc, enabled := body.enabled.getD true,
           createdBy := actor, createdAt := env.now, updatedAt := env.now }

/-- The part of `UpdateWebhook` between its two store calls. -/
def webhookUpdate (existing : Webhook) (body : WebhookPatch) : Except ApiError WebhookUpdate := do
  let type ← match body.type with
    | some type => some <$> webhookType (some type)
    | none => pure none
  -- the rules are checked on what the channel will be
  match validateChannelURLSecret env (type.getD existing.type) (body.url.getD existing.url)
      ((body.secret.map fun secret => decide (secret ≠ "")).getD existing.secretEnc.isSome) with
  | some msg => throw (.badRequest msg)
  | none => pure ()
  let events ← match body.events with
    | some events => some <$> validateWebhookEvents events
    | none => pure none
  let secretEnc ← match body.secret with
    | some secret => if secret ≠ "" then some <$> encryptClientSecret env secret else pure none
    | none => pure none
  return { type, name := body.name, url := body.url, events, secretSet := body.secret.isSome, secretEnc,
           enabled := body.enabled }

end

section

variable (env : WebhookEnv) (principal : Option Principal) (faults : Faults StoreError)

def webhookEntry (action : String) (id : Uuid) (payload : Json) : AuditEntry :=
  { actorUserID := actorID principal, action := action, entityType := "webhook", entityID := id.toText, payload := payload }

def webhookError : StoreError → ApiError
  | .notFound => .notFound "webhook not found"
  | _ => .internal

def loadWebhook (id : Uuid) (db : WebhookTables) : Except ApiError Webhook :=
  match faults 0 with
  | some err => .error (webhookError err)
  | none => (db.getWebhook id).mapError webhookError

def handleListWebhooks (db : WebhookTables) : Except ApiError WebhookResponse :=
  match faults 0 with
  | some _ => .error .internal
  | none => .ok (.webhooks (db.listWebhooks.map toWebhook))

def handleCreateWebhook (body : WebhookCreate) (db : WebhookTables) : Except ApiError WebhookResponse × WebhookTables :=
  match newWebhook env (actorID principal) body with
  | .error err => (.error err, db)
  | .ok hook =>
    let payload := Json.obj [("events", .arr (hook.events.map .str)), ("name", .str hook.name), ("url", .str hook.url)]
    match createWebhook faults hook (webhookEntry principal "webhook.create" hook.id payload) db with
    | (.ok created, db) => (.ok (.created (toWebhook created)), db)
    | (.error _, db) => (.error .internal, db)

def handleUpdateWebhook (id : Uuid) (body : WebhookPatch) (db : WebhookTables) :
    Except ApiError WebhookResponse × WebhookTables :=
  match loadWebhook faults id db with
  | .error err => (.error err, db)
  | .ok existing =>
    match webhookUpdate env existing body with
    | .error err => (.error err, db)
    | .ok upd =>
      match updateWebhook (fun n => faults (n + 1)) id upd env.now (webhookEntry principal "webhook.update" id .null) db with
      | (.ok updated, db) => (.ok (.updated (toWebhook updated)), db)
      | (.error err, db) => (.error (webhookError err), db)

def handleDeleteWebhook (id : Uuid) (db : WebhookTables) : Except ApiError WebhookResponse × WebhookTables :=
  match deleteWebhook faults id (webhookEntry principal "webhook.delete" id .null) db with
  | (.ok (), db) => (.ok .deleted, db)
  | (.error err, db) => (.error (webhookError err), db)

def handleTestWebhook (id : Uuid) (db : WebhookTables) : Except ApiError WebhookResponse :=
  match loadWebhook faults id db with
  | .error err => .error err
  | .ok hook =>
    match env.sendTest with
    | none => .ok (.tested false "webhook dispatcher not available")
    | some send => .ok (.tested (send hook).1 (send hook).2)

def handleWebhooks (route : WebhookRoute) (db : WebhookTables) : Except ApiError WebhookResponse × WebhookTables :=
  match route with
  | .list => (handleListWebhooks faults db, db)
  | .create body => handleCreateWebhook env principal faults body db
  | .update id body => handleUpdateWebhook env principal faults id body db
  | .delete id => handleDeleteWebhook principal faults id db
  | .test id => (handleTestWebhook env faults id db, db)

end

structure WebhookRequest where
  route : WebhookRoute
  credentials : Credentials
  faults : Faults StoreError
  env : WebhookEnv

namespace WebhookRequest

def guarded (req : WebhookRequest) : GuardedRequest :=
  ⟨req.route.method, req.route.path, req.credentials, req.faults⟩

def sessionUser (req : WebhookRequest) : Option Uuid :=
  match req.credentials with
  | .apiToken _ => none
  | .session userID _ => userID

end WebhookRequest

inductive WebhookAnswer where
  | denied (denial : Denial)
  | answered (response : Except ApiError WebhookResponse)

/-- A request to a webhook route.  The guard makes at most two store calls, the
    handler's follow. -/
def serveWebhooks (users : UserTables) (req : WebhookRequest) (db : WebhookTables) : WebhookAnswer × WebhookTables :=
  match guard users req.guarded with
  | .error denial => (.denied denial, db)
  | .ok principal =>
    let (response, db) :=
      handleWebhooks req.env principal (fun n => req.faults (n + 2)) req.route db
    (.answered response, db)

end OtelFleet.Api
