import Mathlib.Data.List.DropRight
import OtelFleet.Auth.Registry

/-! # The login flows

Each request under `/auth/` resolves its provider anew.  The flow that serves it is kept under
the provider's name, as long as the fingerprint stays the same.
-/

namespace OtelFleet.Auth

open Api Store

deriving instance DecidableEq for Fingerprint

inductive LoginFlow where
  | gitHub (info : ResolvedProvider)
  | saml (info : ResolvedProvider)
  | oidc (info : ResolvedProvider)

def newFlow (info : ResolvedProvider) : LoginFlow :=
  if info.type = "github" then .gitHub info else if info.type = typeSAML then .saml info else .oidc info

structure CachedFlow where
  fingerprint : Fingerprint
  flow : LoginFlow

abbrev Flows := String → Option CachedFlow

def flowFor (flows : Flows) (info : ResolvedProvider) (fingerprint : Fingerprint) : LoginFlow × Flows :=
  match (flows info.name).filter fun cached => cached.fingerprint = fingerprint with
  | some cached => (cached.flow, flows)
  | none => (newFlow info, Function.update flows info.name (some ⟨fingerprint, newFlow info⟩))

def providerNameFromPath (path : String) : String :=
  match ((path.toList.dropWhile (· = '/')).rdropWhile (· = '/')).splitOn '/' with
  | [auth, name, _] => if String.ofList auth = "auth" then String.ofList name else ""
  | _ => ""

inductive LoginRoute where
  | start
  | callback
  | acs
  | metadata

inductive LoginAnswer where
  | notFound
  | unavailable
  | served (flow : LoginFlow) (route : LoginRoute)

/-- SAML's routes are not found for the others. -/
def serveFlow (route : LoginRoute) (flow : LoginFlow) : LoginAnswer :=
  match route, flow with
  | .acs, .saml _ | .metadata, .saml _ | .start, _ | .callback, _ => .served flow route
  | .acs, _ | .metadata, _ => .notFound

/-- A request under `/auth/`; the look-up of the provider may fail. -/
structure LoginRequest where
  path : String
  route : LoginRoute
  fails : Bool

def dispatch (reg : Registry) (db : SettingsTables) (flows : Flows) (req : LoginRequest) : LoginAnswer × Flows :=
  let name := providerNameFromPath req.path
  if name = "" then (.notFound, flows)
  else if req.fails then (.unavailable, flows)
  else
    match reg.resolve db name with
    | .error .unknownProvider => (.notFound, flows)
    | .error _ => (.unavailable, flows)
    | .ok (info, fingerprint) =>
      let served := flowFor flows info fingerprint
      (serveFlow req.route served.1, served.2)

end OtelFleet.Auth
