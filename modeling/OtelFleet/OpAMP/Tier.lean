import OtelFleet.OpAMP.Handler
import OtelFleet.Semantics.Run

/-! # The OpAMP tier

Connections of agents, the handlers under way on all replicas, and what the rest of
the control plane does to the tables meanwhile.  Handlers act in turns.
-/

namespace OtelFleet.OpAMP

open Semantics Store

inductive Purpose where
  | message (replica : Nat) (incoming : Incoming)
  | close (replica : Nat) (conn : Conn)
  | push (replica : Nat) (customerID : Uuid)

/-- An open connection, with the instance UIDs that its messages carried. -/
structure Session where
  conn : Conn
  replica : Nat
  auth : ConnAuth
  uids : List Bytes := []

/-- The handlers under way; that of a message ends with its response. -/
abbrev Handlers := Pool World Purpose (Option ServerToAgent)

structure Tier where
  handlers : Handlers
  sessions : List Session := []
  now : Int

def Tier.world (tier : Tier) : World := tier.handlers.shared

def Tier.setWorld (tier : Tier) (world : World) : Tier :=
  { tier with handlers := { tier.handlers with shared := world } }

def Tier.start (tier : Tier) (purpose : Purpose) (program : Prog World (Option ServerToAgent)) : Tier :=
  { tier with handlers := tier.handlers.start purpose program }

def program (env : Env) : Purpose → Int → Prog World (Option ServerToAgent)
  | .message replica incoming, _ => do
    let resp ← handleMessage env replica incoming
    return some resp
  | .close replica conn, now => do
    handleConnectionClose env replica conn now
    return none
  | .push replica customerID, _ => do
    let _ ← edgeConfigChanged env replica customerID
    return none

def isPending (conn : Conn) : Purpose × Prog World (Option ServerToAgent) → Bool
  | (.message _ incoming, .act _ _) => incoming.conn = some conn
  | _ => false

def Tier.busy (tier : Tier) (conn : Conn) : Bool := tier.handlers.jobs.any (isPending conn)

inductive Event where
  | connect (replica : Nat) (conn : Conn) (authorization : String)
  | message (conn : Conn) (msg : AgentToServer) (newID : NewUuid) (token : Except String GeneratedKey)
  | close (conn : Conn)
  | push (replica : Nat) (customerID : Uuid)
  /-- A commit of the pipelines' tables that gives the customers these edge configs. -/
  | commit (edgeConfig : Uuid → Except String String)
  | revoke (customerID tokenID : Uuid)
  | setStatus (customerID : Uuid) (status : CustomerStatus)
  | tick (later : Int)
  | advance (job : Nat)

def Session.incoming (session : Session) (msg : AgentToServer) (now : Int) (newID : NewUuid)
    (token : Except String GeneratedKey) : Incoming where
  conn := some session.conn
  auth := session.auth
  msg := msg
  now := now
  newID := newID
  token := token

def carry (conn : Conn) (uid : Bytes) (sessions : List Session) : List Session :=
  sessions.map fun session => if session.conn = conn then { session with uids := session.uids ++ [uid] } else session

/-- The steps of the tier.  The transport reports a connection closed only after the
    last message of it has been handled. -/
inductive Tier.Step (env : Env) : Tier → Event → Tier → Prop where
  | accepted {tier : Tier} {replica : Nat} {conn : Conn} {authorization : String} {auth : ConnAuth} {world : World}
      (fresh : ∀ session ∈ tier.sessions, session.conn ≠ conn)
      (isAuth : (authenticate env authorization tier.now).run tier.world = (.ok auth, world)) :
      Step env tier (.connect replica conn authorization)
        { tier.setWorld world with sessions := tier.sessions ++ [{ conn, replica, auth }] }
  | refused {tier : Tier} {replica : Nat} {conn : Conn} {authorization : String} {err : AuthError} {world : World}
      (isRefused : (authenticate env authorization tier.now).run tier.world = (.error err, world)) :
      Step env tier (.connect replica conn authorization) (tier.setWorld world)
  | message {tier : Tier} {session : Session} (msg : AgentToServer) (newID : NewUuid)
      (token : Except String GeneratedKey) (isOpen : session ∈ tier.sessions) :
      Step env tier (.message session.conn msg newID token)
        { tier.start (.message session.replica (session.incoming msg tier.now newID token))
            (program env (.message session.replica (session.incoming msg tier.now newID token)) tier.now) with
          sessions := carry session.conn msg.instanceUID tier.sessions }
  | close {tier : Tier} {session : Session} (isOpen : session ∈ tier.sessions) (idle : tier.busy session.conn = false) :
      Step env tier (.close session.conn)
        { tier.start (.close session.replica session.conn)
            (program env (.close session.replica session.conn) tier.now) with
          sessions := tier.sessions.filter fun other => other.conn ≠ session.conn }
  | push {tier : Tier} (replica : Nat) (customerID : Uuid) :
      Step env tier (.push replica customerID)
        (tier.start (.push replica customerID) (program env (.push replica customerID) tier.now))
  | commit {tier : Tier} (edgeConfig : Uuid → Except String String) :
      Step env tier (.commit edgeConfig) (tier.setWorld { tier.world with edgeConfig := edgeConfig })
  | revoke {tier : Tier} {customerID tokenID : Uuid} {db : FleetTables}
      (revoked : tier.world.db.revokeBootstrapToken customerID tokenID tier.now = .ok ((), db)) :
      Step env tier (.revoke customerID tokenID) (tier.setWorld { tier.world with db := db })
  | setStatus {tier : Tier} {customerID : Uuid} {status : CustomerStatus} {db : FleetTables}
      (changed : tier.world.db.setCustomerStatus customerID status = .ok ((), db)) :
      Step env tier (.setStatus customerID status) (tier.setWorld { tier.world with db := db })
  | tick {tier : Tier} (later : Int) (isLater : tier.now ≤ later) : Step env tier (.tick later) { tier with now := later }
  | advance {tier : Tier} {job : Nat} {handlers : Handlers} (advanced : tier.handlers.advance job = some handlers) :
      Step env tier (.advance job) { tier with handlers := handlers }

namespace Tier

variable (env : Env)

def perform (tier : Tier) : Event → Option Tier
  | .connect replica conn authorization =>
    match (authenticate env authorization tier.now).run tier.world with
    | (.ok auth, world) =>
      if ∀ session ∈ tier.sessions, session.conn ≠ conn then
        some { tier.setWorld world with sessions := tier.sessions ++ [{ conn, replica, auth }] }
      else none
    | (.error _, world) => some (tier.setWorld world)
  | .message conn msg newID token =>
    (tier.sessions.find? fun session => session.conn = conn).map fun session =>
      { tier.start (.message session.replica (session.incoming msg tier.now newID token))
          (program env (.message session.replica (session.incoming msg tier.now newID token)) tier.now) with
        sessions := carry session.conn msg.instanceUID tier.sessions }
  | .close conn =>
    (tier.sessions.find? fun session => session.conn = conn ∧ tier.busy session.conn = false).map fun session =>
      { tier.start (.close session.replica session.conn)
          (program env (.close session.replica session.conn) tier.now) with
        sessions := tier.sessions.filter fun other => other.conn ≠ session.conn }
  | .push replica customerID =>
    some (tier.start (.push replica customerID) (program env (.push replica customerID) tier.now))
  | .commit edgeConfig => some (tier.setWorld { tier.world with edgeConfig := edgeConfig })
  | .revoke customerID tokenID =>
    match tier.world.db.revokeBootstrapToken customerID tokenID tier.now with
    | .ok ((), db) => some (tier.setWorld { tier.world with db := db })
    | .error _ => none
  | .setStatus customerID status =>
    match tier.world.db.setCustomerStatus customerID status with
    | .ok ((), db) => some (tier.setWorld { tier.world with db := db })
    | .error _ => none
  | .tick later => if tier.now ≤ later then some { tier with now := later } else none
  | .advance job => (tier.handlers.advance job).map fun handlers => { tier with handlers := handlers }

def performAll (tier : Tier) : List Event → Option Tier
  | [] => some tier
  | event :: rest => (tier.perform env event).bind fun next => next.performAll rest

variable {env} {tier next : Tier}

theorem step_of_perform {event : Event} (performed : tier.perform env event = some next) :
    Tier.Step env tier event next := by
  cases event with
  | connect replica conn authorization =>
    simp only [perform] at performed
    split at performed
    · rename_i auth world isAuth
      split at performed
      · rename_i fresh
        cases performed
        exact .accepted fresh isAuth
      · cases performed
    · rename_i err world isRefused
      cases performed
      exact .refused isRefused
  | message conn msg newID token =>
    obtain ⟨session, found, rfl⟩ := Option.map_eq_some_iff.mp performed
    have isConn : session.conn = conn := by simpa using List.find?_some found
    subst isConn
    exact .message msg newID token (List.mem_of_find?_eq_some found)
  | close conn =>
    obtain ⟨session, found, rfl⟩ := Option.map_eq_some_iff.mp performed
    obtain ⟨rfl, idle⟩ : session.conn = conn ∧ tier.busy session.conn = false := by simpa using List.find?_some found
    exact .close (List.mem_of_find?_eq_some found) idle
  | push replica customerID =>
    cases performed
    exact .push replica customerID
  | commit edgeConfig =>
    cases performed
    exact .commit edgeConfig
  | revoke customerID tokenID =>
    simp only [perform] at performed
    split at performed
    · rename_i db isRevoked
      cases performed
      exact .revoke isRevoked
    · cases performed
  | setStatus customerID status =>
    simp only [perform] at performed
    split at performed
    · rename_i db changed
      cases performed
      exact .setStatus changed
    · cases performed
  | tick later =>
    simp only [perform] at performed
    split at performed
    · cases performed
      exact .tick later ‹_›
    · cases performed
  | advance job =>
    obtain ⟨handlers, advanced, rfl⟩ := Option.map_eq_some_iff.mp performed
    exact .advance advanced

theorem run_of_performAll {events : List Event} (performed : tier.performAll env events = some next) :
    Run (Tier.Step env) tier events next := by
  induction events generalizing tier with
  | nil =>
    cases performed
    exact .refl _
  | cons event rest ih =>
    obtain ⟨middle, first, later⟩ := Option.bind_eq_some_iff.mp performed
    exact .step (step_of_perform first) (ih later)

end Tier

def Session.agent (session : Session) : Option Bytes := session.uids.head?

/-- The tier with its history: the connections that were reported closed. -/
structure Watched where
  tier : Tier
  ended : List Session := []

def endedBy : Event → List Session → List Session
  | .close conn, sessions => sessions.filter fun session => session.conn = conn
  | _, _ => []

def isFresh (ended : List Session) : Event → Bool
  | .connect _ conn _ => ∀ session ∈ ended, session.conn ≠ conn
  | _ => true

/-- A step of the tier, and what it adds to the history.  A connection that has ended
    does not come back: a new one is another connection. -/
inductive Watched.Step (env : Env) : Watched → Event → Watched → Prop where
  | step {watched : Watched} {event : Event} {next : Tier} (taken : Tier.Step env watched.tier event next)
      (fresh : isFresh watched.ended event = true) :
      Step env watched event ⟨next, endedBy event watched.tier.sessions ++ watched.ended⟩

namespace Watched

def performAll (env : Env) (allowed : Watched → Event → Bool) (watched : Watched) : List Event → Option Watched
  | [] => some watched
  | event :: rest =>
    if allowed watched event ∧ isFresh watched.ended event then
      (watched.tier.perform env event).bind fun next =>
        performAll env allowed ⟨next, endedBy event watched.tier.sessions ++ watched.ended⟩ rest
    else none

theorem run_of_performAll {env : Env} {allowed : Watched → Event → Bool} {watched last : Watched} {events : List Event}
    (performed : watched.performAll env allowed events = some last) :
    Run (Restricted (fun state event => allowed state event = true) (Watched.Step env)) watched events last := by
  induction events generalizing watched with
  | nil =>
    cases performed
    exact .refl _
  | cons event rest ih =>
    simp only [performAll] at performed
    split at performed
    · rename_i guards
      obtain ⟨next, first, later⟩ := Option.bind_eq_some_iff.mp performed
      exact .step ⟨guards.1, .step (Tier.step_of_perform first) guards.2⟩ (ih later)
    · cases performed

end Watched

end OtelFleet.OpAMP
