import OtelFleet.Auth.Login

/-! # Login state of a session

A login that is started leaves its state, and for OpenID Connect its PKCE verifier, in the
session, and the callback pops them.  All providers use the same two slots; a session is
meant to run one login flow at a time.
-/

namespace OtelFleet.Auth

/-- `sessOIDCState` and `sessOIDCVerifier`; a slot that is not set reads as the empty
    string. -/
structure LoginSlots where
  state : String := ""
  verifier : String := ""
deriving DecidableEq

structure IssuedState where
  provider : ProviderInfo
  state : String
  /-- The PKCE verifier, which GitHub does not support. -/
  verifier : Option String

structure CallbackQuery where
  state : String
  error : String := ""
  code : String := ""

structure CodeExchange where
  code : String
  verifier : Option String
deriving DecidableEq

/-- The checks that the callbacks have in common: the state, the provider's own error,
    and the code. -/
def callbackCode (invalid : String) (query : CallbackQuery) (slots : LoginSlots) : Except Refusal String :=
  if slots.state = "" ∨ query.state ≠ slots.state then .error ⟨400, invalid⟩
  else if query.error ≠ "" then .error ⟨400, "login failed: " ++ query.error⟩
  else if query.code = "" then .error ⟨400, "missing authorization code"⟩
  else .ok query.code

variable (info : ProviderInfo)

def oidcStart (discovered : Bool) (state verifier : String) (slots : LoginSlots) :
    LoginSlots × Option IssuedState :=
  if discovered then ({ state, verifier }, some ⟨info, state, some verifier⟩) else (slots, none)

/-- `OIDCHandler.Callback` up to the code exchange. -/
def oidcCallback (discovered : Bool) (query : CallbackQuery) (slots : LoginSlots) :
    LoginSlots × Except Refusal CodeExchange :=
  ({}, do
    let code ← callbackCode "invalid OIDC state" query slots
    if discovered then .ok ⟨code, some slots.verifier⟩ else .error ⟨502, "identity provider unavailable"⟩)

def githubStart (state : String) (slots : LoginSlots) : LoginSlots × Option IssuedState :=
  ({ slots with state }, some ⟨info, state, none⟩)

/-- `GitHubHandler.Callback` up to the code exchange, which leaves the verifier where
    it is. -/
def githubCallback (query : CallbackQuery) (slots : LoginSlots) : LoginSlots × Except Refusal CodeExchange :=
  ({ slots with state := "" }, do
    let code ← callbackCode "invalid OAuth state" query slots
    return ⟨code, none⟩)

def startLogin (discovered : Bool) (state verifier : String) (slots : LoginSlots) :
    LoginSlots × Option IssuedState :=
  match info.type with
  | .github => githubStart info state slots
  -- SAML keeps nothing in the session
  | .saml => (slots, none)
  | .google | .microsoft | .oidc => oidcStart info discovered state verifier slots

def loginCallback (discovered : Bool) (query : CallbackQuery) (slots : LoginSlots) :
    LoginSlots × Except Refusal CodeExchange :=
  match info.type with
  | .github => githubCallback query slots
  | .saml => (slots, .error ⟨404, "404 page not found"⟩)
  | .google | .microsoft | .oidc => oidcCallback discovered query slots

structure AcceptedState where
  provider : ProviderInfo
  state : String
  exchange : CodeExchange

structure LoginSession where
  slots : LoginSlots := {}
  issued : List IssuedState := []
  accepted : List AcceptedState := []

inductive LoginEvent where
  | start (info : ProviderInfo) (discovered : Bool) (state verifier : String)
  | callback (info : ProviderInfo) (discovered : Bool) (query : CallbackQuery)

def LoginSession.perform (session : LoginSession) : LoginEvent → LoginSession
  | .start info discovered state verifier =>
    let (slots, issue) := startLogin info discovered state verifier session.slots
    { session with slots, issued := issue.toList ++ session.issued }
  | .callback info discovered query =>
    match loginCallback info discovered query session.slots with
    | (slots, .error _) => { session with slots }
    | (slots, .ok exchange) =>
      { session with slots, accepted := ⟨info, query.state, exchange⟩ :: session.accepted }

def LoginSession.Step (session : LoginSession) (event : LoginEvent) (next : LoginSession) : Prop :=
  session.perform event = next

end OtelFleet.Auth
