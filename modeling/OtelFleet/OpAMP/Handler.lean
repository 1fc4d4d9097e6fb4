import OtelFleet.OpAMP.Registry
import OtelFleet.Semantics.Process
import OtelFleet.Tenants.Tokens

/-! # The OpAMP message handler

The handler of one replica, written as programs over the world that all replicas
share: each registry operation, store call, rendering and transmission is one
action.

The source keeps the state of an agent behind a pointer that the registry shares.
Here a handler works on its own copy; every field that it changes after `put` is
written to the registry by an `update` as well, in the source and here.
-/

namespace OtelFleet.OpAMP

open Data Semantics Store Tenants

/-! ## Messages

The bits of the capabilities are those of the protocol's own definitions, which
are not part of the repository. -/

def acceptsRemoteConfigBit : UInt64 := 0x2

def acceptsOpAMPConnectionSettingsBit : UInt64 := 0x100

def serverCapabilities : UInt64 := 0x1 ||| 0x2 ||| 0x4

def offersConnectionSettings : UInt64 := 0x20

/-- The key of an attribute, and its value if that is a string. -/
abbrev Attribute := String × Option String

structure AgentDescription where
  identifying : List Attribute := []
  nonIdentifying : List Attribute := []
  /-- What `descriptionJSON` gives; `none` is an encoding error. -/
  json : Option Json := none

inductive RemoteConfigStatuses where
  | unset
  | applied
  | applying
  | failed
  | unrecognized (value : Nat)
deriving DecidableEq

structure RemoteConfigReport where
  status : RemoteConfigStatuses
  lastRemoteConfigHash : Bytes := []
  errorMessage : String := ""

structure ComponentHealth where
  healthy : Bool
  status : String := ""
  lastError : String := ""
  /-- What `healthJSON` gives; `none` is an encoding error. -/
  json : Option Json := none

structure AgentToServer where
  instanceUID : Bytes
  capabilities : UInt64 := 0
  agentDescription : Option AgentDescription := none
  remoteConfigStatus : Option RemoteConfigReport := none
  /-- The reported config files by name. -/
  effectiveConfig : Option (List (String × String)) := none
  health : Option ComponentHealth := none

structure RemoteConfig where
  body : String
  hash : Bytes

structure ConnectionSettings where
  hash : Bytes
  authorization : String
  destinationEndpoint : Option String

structure ServerToAgent where
  instanceUID : Bytes
  capabilities : UInt64 := serverCapabilities
  errorMessage : Option String := none
  reportFullState : Bool := false
  remoteConfig : Option RemoteConfig := none
  connectionSettings : Option ConnectionSettings := none

def mapRemoteConfigStatus : RemoteConfigStatuses → RemoteConfigStatus
  | .applying => .applying
  | .applied => .applied
  | .failed => .failed
  | .unset | .unrecognized _ => .unset

/-- The unnamed file when there is one, otherwise the only file. -/
def effectiveConfigBody (files : List (String × String)) : Option String :=
  match files.lookup "", files with
  | some body, _ => some body
  | none, [(_, body)] => some body
  | none, _ => none

/-- The values of a key, in order; a value that is no string reads as empty. -/
def attributeValues (key : String) (attributes : List Attribute) : List String :=
  (attributes.filter fun entry => entry.1 = key).map fun entry => entry.2.getD ""

def agentIdentity (description : AgentDescription) : Option String × Option String :=
  let hostName := (attributeValues "host.name" description.identifying).getLast?.getD ""
  let serviceName := (attributeValues "service.name" description.identifying).getLast?.getD ""
  let version := ((attributeValues "service.version" description.identifying).filter (· ≠ "")).getLast?
  -- The other attributes count only while no host name is known.
  let hostName :=
    if hostName ≠ "" then hostName
    else ((attributeValues "host.name" description.nonIdentifying).find? (· ≠ "")).getD ""
  if hostName ≠ "" then (some hostName, version)
  else if serviceName ≠ "" then (some serviceName, version)
  else (none, version)

/-! ## The world and its actions -/

structure FleetEvent where
  type : String
  agentID : Uuid
  customerID : Uuid
  detail : List (String × Json) := []

structure World where
  db : FleetTables
  /-- What `RenderEdgeCurrent` returns for a customer now. -/
  edgeConfig : Uuid → Except String String
  registries : Nat → Registry := fun _ => .empty
  sent : List (Conn × ServerToAgent) := []
  disconnects : List Conn := []
  emitted : List FleetEvent := []
  calls : Nat := 0

/-- What the handler is given.  Faults are chosen by the number of the call. -/
structure Env where
  queryFaults : Nat → Option StoreError := fun _ => none
  writeFaults : Nat → Option StoreError := fun _ => none
  sendFaults : Nat → Option String := fun _ => none
  sha256 : String → Bytes
  /-- RFC 3339. -/
  formatTime : Int → String
  publicEndpoint : String := ""
  /-- The order in which a range over a map visits its values. -/
  mapOrder : Nat → List AgentConn → List AgentConn := fun _ values => values
  mapOrder_perm : ∀ call values, (mapOrder call values).Perm values := by exact fun _ _ => .rfl

structure ConnAuth where
  tokenID : Uuid := Uuid.nil
  customerID : Uuid
  agentID : Option Uuid := none
  viaAgentToken : Bool := false

/-- `uuid.New()` never gives the nil UUID. -/
abbrev NewUuid := { id : Uuid // id ≠ Uuid.nil }

structure GeneratedKey where
  secret : String
  tokenPrefix : String
  hash : Bytes

/-- A message with the connection it came on, the time, and what is drawn at random
    while it is handled. -/
structure Incoming where
  conn : Option Conn
  auth : ConnAuth
  msg : AgentToServer
  now : Int
  newID : NewUuid
  token : Except String GeneratedKey

abbrev Incoming.uid (incoming : Incoming) : Bytes := incoming.msg.instanceUID

def World.setRegistry (world : World) (replica : Nat) (reg : Registry) : World :=
  { world with registries := Function.update world.registries replica reg }

open Prog

section

variable {α : Type} (env : Env)

def query (select : FleetTables → Except StoreError α) : Prog World (Except StoreError α) :=
  atomically fun world =>
    (match env.queryFaults world.calls with
      | some err => .error err
      | none => select world.db,
      { world with calls := world.calls + 1 })

def written (call : FleetTables → Except StoreError (α × FleetTables)) (world : World) : Except StoreError α × World :=
  let called := { world with calls := world.calls + 1 }
  match env.writeFaults world.calls with
  | some err => (.error err, called)
  | none =>
    match call world.db with
    | .ok (value, db) => (.ok value, { called with db := db })
    | .error err => (.error err, called)

def exec (call : FleetTables → Except StoreError (α × FleetTables)) : Prog World (Except StoreError α) :=
  atomically (written env call)

theorem written_cases (call : FleetTables → Except StoreError (α × FleetTables)) (world : World) :
    (∃ err, written env call world = (.error err, { world with calls := world.calls + 1 })) ∨
    ∃ value db, call world.db = .ok (value, db) ∧
      written env call world = (.ok value, { world with calls := world.calls + 1, db := db }) := by
  unfold written
  cases env.writeFaults world.calls with
  | some err => exact Or.inl ⟨err, rfl⟩
  | none =>
    cases called : call world.db with
    | error err => exact Or.inl ⟨err, rfl⟩
    | ok res => exact Or.inr ⟨res.1, res.2, rfl, rfl⟩

theorem written_ok {call : FleetTables → Except StoreError (α × FleetTables)} {world : World} {value : α}
    {db : FleetTables} (succeeds : env.writeFaults world.calls = none) (called : call world.db = .ok (value, db)) :
    written env call world = (.ok value, { world with calls := world.calls + 1, db := db }) := by
  simp only [written, succeeds, called]

def send (conn : Conn) (message : ServerToAgent) : Prog World (Except String Unit) :=
  atomically fun world =>
    let called := { world with calls := world.calls + 1 }
    match env.sendFaults world.calls with
    | some err => (.error err, called)
    | none => (.ok (), { called with sent := world.sent ++ [(conn, message)] })

def renderEdgeCurrent (customerID : Uuid) : Prog World (Except String String) :=
  Prog.read fun world => world.edgeConfig customerID

def disconnect (conn : Option Conn) : Prog World Unit :=
  Prog.modify fun world => { world with disconnects := world.disconnects ++ conn.toList }

def emitEvent (event : FleetEvent) : Prog World Unit :=
  Prog.modify fun world => { world with emitted := world.emitted ++ [event] }

def changeRegistry (replica : Nat) (change : Registry → Registry) : Prog World Unit :=
  Prog.modify fun world => world.setRegistry replica (change (world.registries replica))

def updateEntry (replica : Nat) (uid : Bytes) (change : AgentConn → AgentConn) : Prog World Unit :=
  changeRegistry replica fun reg => reg.update uid change

end

/-! ## Authentication -/

inductive AuthError where
  | lookupFailed (err : StoreError)
  | refused (message : String)

section

variable (env : Env)

def authenticateAgentToken (tokenPrefix token : String) : Prog World (Except AuthError ConnAuth) := do
  match ← query env fun db => .ok (db.agentsByTokenPrefix tokenPrefix) with
  | .error err => return .error (.lookupFailed err)
  | .ok agents =>
    match agents.find? fun agent => agent.tokenHash = some (env.sha256 token) with
    | none => return .error (.refused "unknown agent token")
    | some agent =>
      if agent.customerStatus ≠ .active then
        return .error (.refused ("customer is " ++ statusText agent.customerStatus))
      else
        return .ok { customerID := agent.customerID, agentID := some agent.agentID, viaAgentToken := true }

def authenticateBootstrapToken (tokenPrefix token : String) (now : Int) : Prog World (Except AuthError ConnAuth) := do
  match ← query env fun db => .ok (db.activeBootstrapTokensByPrefix tokenPrefix) with
  | .error err => return .error (.lookupFailed err)
  | .ok tokens =>
    match tokens.find? fun candidate => candidate.tokenHash = env.sha256 token with
    | none => return .error (.refused "unknown bootstrap token")
    | some found =>
      match tokenUsable env.formatTime found now with
      | .error message => return .error (.refused message)
      | .ok () => return .ok { tokenID := found.tokenID, customerID := found.customerID }

/-- `strings.CutPrefix(header, "Bearer ")`, with a token left over. -/
def bearerToken (authorization : String) : Option String :=
  if "Bearer ".toList.isPrefixOf authorization.toList then
    let token := String.ofList (authorization.toList.drop "Bearer ".toList.length)
    if token = "" then none else some token
  else none

/-- `Authenticate`: an agent token first, then a bootstrap token. -/
def authenticate (authorization : String) (now : Int) : Prog World (Except AuthError ConnAuth) :=
  match bearerToken authorization with
  | none => return .error (.refused "missing bearer token")
  | some token =>
    match parseAgentTokenPrefix token, parseBootstrapTokenPrefix token with
    | some tokenPrefix, _ => authenticateAgentToken env tokenPrefix token
    | none, some tokenPrefix => authenticateBootstrapToken env tokenPrefix token now
    | none, none => return .error (.refused "malformed token")

end

/-! ## Resolving an agent -/

inductive Resolution where
  | reject
  | askFullState
  | resolved (st : AgentConn)

section

variable (env : Env) (replica : Nat) (incoming : Incoming)

def resolveRow (agent : Agent) : Resolution :=
  if agent.customerID ≠ some incoming.auth.customerID then .reject
  else .resolved
    { conn := incoming.conn
      instanceUID := incoming.msg.instanceUID
      agentID := agent.id
      customerID := incoming.auth.customerID
      capabilities := agent.capabilities.getD 0
      lastAckedHash := agent.ackedConfigHash.getD []
      remoteConfigStatus := agent.remoteConfigStatus
      healthy := agent.healthy }

def lookupAgent (missing : Prog World Resolution) : Prog World Resolution := do
  match ← query env fun db => db.getAgentByInstanceUID incoming.msg.instanceUID with
  | .ok agent => return resolveRow incoming agent
  | .error .notFound => missing
  | .error _ => return .askFullState

def newAgent (description : AgentDescription) : FleetTables.NewAgent where
  id := incoming.newID
  instanceUID := incoming.msg.instanceUID
  customerID := incoming.auth.customerID
  name := (agentIdentity description).1
  agentVersion := (agentIdentity description).2
  description := description.json
  capabilities := incoming.msg.capabilities
  enrolledVia := incoming.auth.tokenID

/-- Enroll the agent.  Who loses the race to another enrollment resolves the agent
    again, from the winning row. -/
def enroll (description : AgentDescription) : Prog World Resolution := do
  match ← exec env fun db => db.enrollAgent (newAgent incoming description) incoming.now with
  | .error .conflict => lookupAgent env incoming (return .askFullState)
  | .error _ => return .askFullState
  | .ok agent =>
    return .resolved
      { conn := incoming.conn
        instanceUID := incoming.msg.instanceUID
        agentID := agent.id
        customerID := incoming.auth.customerID
        capabilities := incoming.msg.capabilities
        remoteConfigStatus := agent.remoteConfigStatus }

def resolveAgent : Prog World Resolution :=
  lookupAgent env incoming
    (match incoming.msg.agentDescription with
      | none => return .askFullState
      | some description => enroll env incoming description)

/-! ## What a message reports -/

def hexText (bytes : Bytes) : String := String.ofList (bytes.flatMap fun byte => hexDigits 2 byte.toNat)

variable (st : AgentConn)

/-- The acknowledged hash of a report: remembered, and stored when it is new.  An
    agent that has no remote config is taken to have acknowledged none. -/
def handleAcknowledgement (report : RemoteConfigReport) : Prog World AgentConn := do
  let acked := report.lastRemoteConfigHash
  if acked ≠ [] then
    updateEntry replica st.instanceUID fun entry => { entry with lastAckedHash := acked }
    if acked ≠ st.lastAckedHash then
      let _ ← exec env fun db => db.setAgentAckedConfig st.agentID (some acked)
    return { st with lastAckedHash := acked }
  else if mapRemoteConfigStatus report.status = .unset then
    updateEntry replica st.instanceUID fun entry => { entry with lastAckedHash := [] }
    let _ ← exec env fun db => db.setAgentAckedConfig st.agentID none
    return { st with lastAckedHash := [] }
  else return st

def statusEvent (report : RemoteConfigReport) : Option AgentEventType × Option String × List (String × Json) :=
  let hash := ("hash", Json.str (hexText report.lastRemoteConfigHash))
  match mapRemoteConfigStatus report.status with
  | .applied => (some .configApplied, none, [hash])
  | .failed =>
    if report.errorMessage ≠ "" then
      (some .configFailed, some report.errorMessage, [("error", .str report.errorMessage), hash])
    else (some .configFailed, none, [hash])
  | .unset | .applying => (none, none, [hash])

/-- A change of the status, or a new hash that reached a terminal one. -/
def isTransition (report : RemoteConfigReport) : Bool :=
  let status := mapRemoteConfigStatus report.status
  let newHash := report.lastRemoteConfigHash ≠ [] ∧ report.lastRemoteConfigHash ≠ st.lastAckedHash
  status ≠ st.remoteConfigStatus ∨ (newHash ∧ (status = .applied ∨ status = .failed))

def recordTransition (report : RemoteConfigReport) (acknowledged : AgentConn) :
    Prog World AgentConn := do
  -- The transition is judged by the hash that was known before the report.
  if isTransition st report then
    let status := mapRemoteConfigStatus report.status
    let (event, errorMessage, detail) := statusEvent report
    match ← exec env fun db =>
        db.setAgentRemoteConfigStatus st.agentID status errorMessage event (.obj detail) with
    | .error _ => return acknowledged
    | .ok () =>
      if status = .failed then
        emitEvent ⟨"agent_config_failed", st.agentID, st.customerID, detail⟩
      updateEntry replica st.instanceUID fun entry => { entry with remoteConfigStatus := status }
      return { acknowledged with remoteConfigStatus := status }
  else return acknowledged

def handleRemoteConfigStatus (report : RemoteConfigReport) : Prog World AgentConn := do
  let acknowledged ← handleAcknowledgement env replica st report
  recordTransition env replica st report acknowledged

def handleEffectiveConfig (files : List (String × String)) : Prog World Unit :=
  match effectiveConfigBody files with
  | none => return ()
  | some body => do
    let _ ← exec env fun db => db.setAgentEffectiveConfig st.agentID body (env.sha256 body)

def unhealthyDetail (health : ComponentHealth) : List (String × Json) :=
  (if health.lastError ≠ "" then [("lastError", Json.str health.lastError)] else []) ++
    if health.status ≠ "" then [("status", Json.str health.status)] else []

def handleHealth (health : ComponentHealth) : Prog World AgentConn :=
  let flip := st.healthy ≠ some health.healthy
  let event := if health.healthy then AgentEventType.healthy else .unhealthy
  match health.json with
  | none => return st
  | some payload => do
    match ← exec env fun db =>
        db.setAgentHealth st.agentID payload health.healthy (if flip then some event else none) with
    | .error _ => return st
    | .ok () =>
      if flip ∧ ¬ health.healthy then
        emitEvent ⟨"agent_unhealthy", st.agentID, st.customerID, unhealthyDetail health⟩
      updateEntry replica st.instanceUID fun entry => { entry with healthy := some health.healthy }
      return { st with healthy := some health.healthy }

/-! ## Offers -/

def AgentConn.acceptsRemoteConfig : Bool := st.capabilities &&& acceptsRemoteConfigBit ≠ 0

def AgentConn.acceptsConnectionSettings : Bool :=
  st.capabilities &&& acceptsOpAMPConnectionSettingsBit ≠ 0

/-- Assign the rendered config, and offer it unless the agent has acknowledged it. -/
def offerConfig (resp : ServerToAgent) (desired : String) : Prog World ServerToAgent := do
  let hash := env.sha256 desired
  let _ ← exec env fun db => db.setAgentAssignedConfig st.agentID hash
  if hash = st.lastAckedHash then return resp
  else return { resp with remoteConfig := some ⟨desired, hash⟩, reportFullState := true }

def maybeOfferConfig (resp : ServerToAgent) : Prog World ServerToAgent :=
  if st.acceptsRemoteConfig then do
    match ← renderEdgeCurrent st.customerID with
    | .error _ => return resp
    | .ok desired => offerConfig env st resp desired
  else return resp

def tokenOffer (token : GeneratedKey) (resp : ServerToAgent) : ServerToAgent :=
  { resp with
    capabilities := resp.capabilities ||| offersConnectionSettings
    connectionSettings := some
      { hash := env.sha256 token.tokenPrefix
        authorization := "Bearer " ++ token.secret
        destinationEndpoint := if env.publicEndpoint ≠ "" then some env.publicEndpoint else none } }

def maybeOfferAgentToken (resp : ServerToAgent) : Prog World ServerToAgent :=
  if st.tokenOffered ∨ ¬ st.acceptsConnectionSettings then return resp
  else
    match incoming.token with
    | .error _ => return resp
    | .ok token => do
      match ← exec env fun db => db.setAgentToken st.agentID token.tokenPrefix token.hash incoming.now with
      | .error _ => return resp
      | .ok () =>
        updateEntry replica st.instanceUID fun entry => { entry with tokenOffered := true }
        return tokenOffer env token resp

/-! ## One message -/

def baseResponse : ServerToAgent := { instanceUID := incoming.msg.instanceUID }

def reject (message : String) : Prog World ServerToAgent := do
  disconnect incoming.conn
  return { baseResponse incoming with errorMessage := some message }

variable (prev : Option AgentConn)

def isNewConn : Bool := prev.all fun st => st.conn ≠ incoming.conn

def seen : AgentConn :=
  { st with
    conn := incoming.conn
    lastSeen := some incoming.now
    dirtySeen := true
    capabilities := if incoming.msg.capabilities ≠ 0 then incoming.msg.capabilities else st.capabilities }

/-- Refresh the description of an agent that was known before; enrollment has
    stored that of a new one. -/
def refreshDescription (st : AgentConn) : Prog World Unit :=
  match prev, incoming.msg.agentDescription with
  | some _, some description =>
    match description.json with
    | none => return ()
    | some json => do
      let (name, version) := agentIdentity description
      let capabilities := if incoming.msg.capabilities ≠ 0 then some incoming.msg.capabilities else none
      let _ ← exec env fun db => db.updateAgentDescription st.agentID name version (some json) capabilities
  | _, _ => return ()

def markConnected (st : AgentConn) : Prog World Unit :=
  if isNewConn incoming prev then do
    let _ ← exec env fun db => db.setAgentConnected st.agentID true incoming.now
  else return ()

def reportStatus : Prog World AgentConn :=
  match incoming.msg.remoteConfigStatus with
  | some report => handleRemoteConfigStatus env replica st report
  | none => return st

def reportConfig : Prog World Unit :=
  match incoming.msg.effectiveConfig with
  | some files => handleEffectiveConfig env st files
  | none => return ()

def reportHealth : Prog World AgentConn :=
  match incoming.msg.health with
  | some health => handleHealth env replica st health
  | none => return st

def handleReports : Prog World AgentConn := do
  let st ← reportStatus env replica incoming st
  reportConfig env incoming st
  reportHealth env replica incoming st

def register (st : AgentConn) : Prog World AgentConn := do
  let st := seen incoming st
  refreshDescription env incoming prev st
  changeRegistry replica fun reg => reg.put st
  markConnected env incoming prev st
  handleReports env replica incoming st

inductive Stage where
  | answered (resp : ServerToAgent)
  | admitted (st : AgentConn) (newConn : Bool)

/-- A token of an agent's own admits that agent only. -/
def tokenMatches : Bool :=
  ¬ incoming.auth.viaAgentToken ∨ incoming.auth.agentID.all (· = st.agentID)

def admitAgent (st : AgentConn) : Prog World Stage :=
  if tokenMatches incoming st then do
    let st ← register env replica incoming prev st
    return .admitted st (isNewConn incoming prev)
  else do
    let resp ← reject incoming "token does not match this agent"
    return .answered resp

def boundElsewhere : Prog World Stage := do
  let resp ← reject incoming "instance uid is bound to another customer"
  return .answered resp

/-- `HandleMessage` up to its offers. -/
def receive : Prog World Stage :=
  if incoming.msg.instanceUID = [] then
    return .answered { baseResponse incoming with errorMessage := some "missing instance_uid" }
  else do
    match ← Prog.read fun world => (world.registries replica).get incoming.msg.instanceUID with
    | some st =>
      if st.customerID ≠ incoming.auth.customerID then boundElsewhere incoming
      else admitAgent env replica incoming (some st) st
    | none =>
      match ← resolveAgent env incoming with
      | .reject => boundElsewhere incoming
      | .askFullState => return .answered { baseResponse incoming with reportFullState := true }
      | .resolved st => admitAgent env replica incoming none st

/-- The config is offered on connect and with a description. -/
def offerOnConnect (newConn : Bool) : Prog World ServerToAgent :=
  if newConn ∨ incoming.msg.agentDescription.isSome then maybeOfferConfig env st (baseResponse incoming)
  else return baseResponse incoming

/-- An agent that connected with the bootstrap token is offered one of its own. -/
def offerToken (newConn : Bool) (resp : ServerToAgent) : Prog World ServerToAgent :=
  if newConn ∧ ¬ incoming.auth.viaAgentToken then maybeOfferAgentToken env replica incoming st resp
  else return resp

def makeOffers (newConn : Bool) : Prog World ServerToAgent := do
  let resp ← offerOnConnect env incoming st newConn
  offerToken env replica incoming st newConn resp

def finish : Stage → Prog World ServerToAgent
  | .answered resp => return resp
  | .admitted st newConn => makeOffers env replica incoming st newConn

def handleMessage : Prog World ServerToAgent := do
  let stage ← receive env replica incoming
  finish env replica incoming stage

end

/-! ## Closed connections and changed configs -/

variable (env : Env) (replica : Nat)

def handleConnectionClose (conn : Conn) (now : Int) : Prog World Unit := do
  let removed ← atomically fun world =>
    let (removed, reg) := (world.registries replica).removeConn conn
    (removed, world.setRegistry replica reg)
  match removed with
  | none => return ()
  | some st =>
    if st.agentID = Uuid.nil then return ()
    else do
      let _ ← exec env fun db => db.setAgentConnected st.agentID false (st.lastSeen.getD now)
      emitEvent ⟨"agent_offline", st.agentID, st.customerID, []⟩

def configPush (st : AgentConn) (desired : String) : ServerToAgent where
  instanceUID := st.instanceUID
  remoteConfig := some ⟨desired, env.sha256 desired⟩
  reportFullState := true

def pushConfig (desired : String) (st : AgentConn) : Prog World Bool :=
  if st.acceptsRemoteConfig then do
    let _ ← exec env fun db => db.setAgentAssignedConfig st.agentID (env.sha256 desired)
    match st.conn with
    | none => return false
    | some conn =>
      match ← send env conn (configPush env st desired) with
      | .ok () => return true
      | .error _ => return false
  else return false

def pushAll (desired : String) : List AgentConn → Nat → Prog World Nat
  | [], pushed => return pushed
  | st :: rest, pushed => do
    let isSent ← pushConfig env desired st
    pushAll desired rest (if isSent then pushed + 1 else pushed)

/-- `EdgeConfigChanged`: how many agents the config was pushed to, and how many are
    offline. -/
def edgeConfigChanged (customerID : Uuid) : Prog World (Except String (Nat × Nat)) := do
  match ← renderEdgeCurrent customerID with
  | .error err => return .error ("render edge config: " ++ err)
  | .ok desired =>
    let conns ← Prog.read fun world =>
      env.mapOrder world.calls ((world.registries replica).connsForCustomer customerID)
    let pushed ← pushAll env desired conns 0
    match ← query env fun db => .ok (db.offlineAgents customerID) with
    | .error _ => return .ok (pushed, 0)
    | .ok agents => return .ok (pushed, agents.length)

end OtelFleet.OpAMP
