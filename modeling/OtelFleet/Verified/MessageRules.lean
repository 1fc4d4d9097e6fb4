import OtelFleet.OpAMP.Handler

/-! # Rules for the actions of a message

Once its agent is known, the handler of a message does three kinds of actions: silent
ones, updates of the agent's row and updates of its entry.  `Rules` says what is to be
shown of each kind; the walk through the handler is done here once for all rules.
`PushRules` does the same for the push of a changed config.
-/

namespace OtelFleet.Verified.MessageRules

open OpAMP Semantics Store Store.FleetTables

/-! ## Kinds of changes -/

structure Silent (before after : World) : Prop where
  db : after.db = before.db
  registries : after.registries = before.registries
  edgeConfig : after.edgeConfig = before.edgeConfig
  sent : after.sent = before.sent

/-- A state of the same agent on the same connection.  A new acknowledged hash, or the
    empty one for none, is one of `acks`. -/
structure Kept (acks : Bytes → Prop) (st st' : AgentConn) : Prop where
  conn : st'.conn = st.conn
  instanceUID : st'.instanceUID = st.instanceUID
  agentID : st'.agentID = st.agentID
  customerID : st'.customerID = st.customerID
  capabilities : st'.capabilities = st.capabilities
  acked : st'.lastAckedHash = st.lastAckedHash ∨ acks st'.lastAckedHash

variable {acks : Bytes → Prop}

theorem Kept.refl (st : AgentConn) : Kept acks st st := ⟨rfl, rfl, rfl, rfl, rfl, Or.inl rfl⟩

theorem Kept.trans {first second third : AgentConn} (early : Kept acks first second)
    (late : Kept acks second third) : Kept acks first third where
  conn := late.conn.trans early.conn
  instanceUID := late.instanceUID.trans early.instanceUID
  agentID := late.agentID.trans early.agentID
  customerID := late.customerID.trans early.customerID
  capabilities := late.capabilities.trans early.capabilities
  acked := by
    rcases late.acked with same | new
    · rw [same]
      exact early.acked
    · exact Or.inr new

/-- What a report writes to the row: neither the connected flag nor the assigned
    config, and no acknowledged hash other than one of `acks`. -/
structure ReportChange (acks : Bytes → Prop) (change : AgentStatus → AgentStatus) : Prop where
  connected : ∀ row, (change row).connected = row.connected
  assigned : ∀ row, (change row).assignedConfigHash = row.assignedConfigHash
  acked : ∀ row, (change row).ackedConfigHash = row.ackedConfigHash ∨ acks ((change row).ackedConfigHash.getD [])

variable {change : AgentStatus → AgentStatus}

theorem ReportChange.of_same (connected : ∀ row, (change row).connected = row.connected)
    (assigned : ∀ row, (change row).assignedConfigHash = row.assignedConfigHash)
    (acked : ∀ row, (change row).ackedConfigHash = row.ackedConfigHash) : ReportChange acks change :=
  ⟨connected, assigned, fun row => Or.inl (acked row)⟩

/-! ## Rules -/

/-- What is to be shown of the actions on the agent `id` with this UID.  Others move
    the world along `rely` in between; `known` is what stays known of the agent. -/
structure Rules (replica : Nat) (uid : Bytes) (id : Uuid) where
  inv : World → Prop
  rely : World → World → Prop
  guar : World → World → Prop
  known : World → Prop
  /-- The hashes that the message may acknowledge, the empty one for none. -/
  acks : Bytes → Prop
  had : Uuid → String → Prop
  allows : (AgentStatus → AgentStatus) → Prop
  reports : ∀ change, ReportChange acks change → allows change
  configs : ∀ world, inv world → ∀ customerID text, world.edgeConfig customerID = .ok text → had customerID text
  stable : ∀ before after, rely before after → known before → known after
  silent : ∀ before after, Silent before after → inv before → known before →
    guar before after ∧ inv after ∧ known after
  status : ∀ world change events, allows change → inv world → known world →
    let after := { world with calls := world.calls + 1, db := world.db.setStatus id change events }
    guar world after ∧ inv after ∧ known after
  entry : ∀ world change, (∀ st, Kept acks st (change st)) → inv world → known world →
    let after := world.setRegistry replica ((world.registries replica).update uid change)
    guar world after ∧ inv after ∧ known after

section

variable {α β : Type} {env : Env} {replica : Nat} {uid : Bytes} {id : Uuid} {rules : Rules replica uid id}
  {post : α → Prop}

def Serves (rules : Rules replica uid id) (post : α → Prop) (program : Prog World α) : Prop :=
  ∀ world, rules.known world →
    Prog.Meets rules.inv rules.rely rules.guar (fun value now => post value ∧ rules.known now) program world

theorem serves_pure {value : α} (holds : post value) : Serves rules post (pure value) :=
  fun _ known => Prog.meets_pure ⟨holds, known⟩

theorem Serves.bind {mid : β → Prop} {program : Prog World β} {following : β → Prog World α}
    (first : Serves rules mid program) (rest : ∀ value, mid value → Serves rules post (following value)) :
    Serves rules post (program >>= following) :=
  fun world known => (first world known).bind fun value now holds => rest value holds.1 now holds.2

theorem serves_atomically {action : World → α × World}
    (follows : ∀ now, rules.inv now → rules.known now →
      (rules.guar now (action now).2 ∧ rules.inv (action now).2 ∧ rules.known (action now).2) ∧ post (action now).1) :
    Serves rules post (Prog.atomically action) := by
  intro world known
  apply Prog.meets_atomically
  intro now moved holds
  obtain ⟨⟨given, kept, knownAfter⟩, res⟩ := follows now holds (rules.stable world now moved known)
  exact ⟨given, kept, res, knownAfter⟩

theorem serves_silent {action : World → α × World} (silent : ∀ now, Silent now (action now).2)
    (holds : ∀ now, rules.inv now → post (action now).1) : Serves rules post (Prog.atomically action) :=
  serves_atomically fun now inv known => ⟨rules.silent now _ (silent now) inv known, holds now inv⟩

theorem serves_exec {call : FleetTables → Except StoreError (α × FleetTables)}
    (updates : ∀ db value db', call db = .ok (value, db') →
      ∃ change events, rules.allows change ∧ db' = db.setStatus id change events) :
    Serves rules (fun _ => True) (exec env call) := by
  apply serves_atomically
  intro now inv known
  refine ⟨?_, trivial⟩
  -- A failed call leaves the tables; a successful one updates the row.
  rcases written_cases env call now with ⟨err, failed⟩ | ⟨value, db, called, succeeded⟩
  · rw [failed]
    exact rules.silent now _ ⟨rfl, rfl, rfl, rfl⟩ inv known
  · obtain ⟨change, events, allowed, rfl⟩ := updates now.db value db called
    rw [succeeded]
    exact rules.status now change events allowed inv known

theorem serves_updateEntry {change : AgentConn → AgentConn} {key : Bytes} (isUID : key = uid)
    (keeps : ∀ st, Kept rules.acks st (change st)) : Serves rules (fun _ => True) (updateEntry replica key change) := by
  subst isUID
  exact serves_atomically fun now inv known => ⟨rules.entry now change keeps inv known, trivial⟩

theorem serves_emitEvent (event : FleetEvent) : Serves rules (fun _ => True) (emitEvent event) :=
  serves_silent (fun _ => ⟨rfl, rfl, rfl, rfl⟩) fun _ _ => trivial

theorem serves_renderEdgeCurrent {customerID : Uuid} :
    Serves rules (fun res => ∀ text, res = .ok text → rules.had customerID text) (renderEdgeCurrent customerID) :=
  serves_silent (fun _ => ⟨rfl, rfl, rfl, rfl⟩) fun now inv => rules.configs now inv customerID

variable {events : List AgentEvent}

theorem updateAgent_ok {db db' : FleetTables} {value : Unit}
    (updated : db.updateAgent id change events = .ok (value, db')) : db' = db.setStatus id change events := by
  unfold updateAgent at updated
  split at updated
  · cases updated
    rfl
  · cases updated

theorem serves_report {call : FleetTables → Except StoreError (Unit × FleetTables)} {key : Uuid} (isID : key = id)
    (isUpdate : ∀ db, call db = db.updateAgent key change events) (reporting : ReportChange rules.acks change) :
    Serves rules (fun _ => True) (exec env call) := by
  subst isID
  apply serves_exec
  intro db value db' called
  rw [isUpdate] at called
  exact ⟨change, events, rules.reports change reporting, updateAgent_ok called⟩

end

/-! ## The handler -/

variable {resp : ServerToAgent}

section

variable {env : Env} {replica : Nat} {uid : Bytes} {id : Uuid} {rules : Rules replica uid id} {st : AgentConn}
  (isUID : st.instanceUID = uid) (isID : st.agentID = id)
include isUID isID

theorem serves_handleAcknowledgement {report : RemoteConfigReport}
    (acks : (report.lastRemoteConfigHash = [] → mapRemoteConfigStatus report.status = .unset) →
      rules.acks report.lastRemoteConfigHash) :
    Serves rules (Kept rules.acks st) (handleAcknowledgement env replica st report) := by
  unfold handleAcknowledgement
  dsimp only
  split
  · rename_i acknowledges
    have isAck := acks fun isEmpty => absurd isEmpty acknowledges
    apply Serves.bind
    · exact serves_updateEntry isUID fun _ => ⟨rfl, rfl, rfl, rfl, rfl, Or.inr isAck⟩
    · intro _ _
      split
      · apply Serves.bind
        · exact serves_report isID (fun _ => rfl) ⟨fun _ => rfl, fun _ => rfl, fun _ => Or.inr isAck⟩
        · intro _ _
          exact serves_pure ⟨rfl, rfl, rfl, rfl, rfl, Or.inr isAck⟩
      · exact serves_pure ⟨rfl, rfl, rfl, rfl, rfl, Or.inr isAck⟩
  · rename_i isEmpty
    split
    · rename_i isUnset
      have forgets : rules.acks [] := by
        have isAck := acks fun _ => isUnset
        rwa [not_not.mp isEmpty] at isAck
      apply Serves.bind
      · exact serves_updateEntry isUID fun _ => ⟨rfl, rfl, rfl, rfl, rfl, Or.inr forgets⟩
      · intro _ _
        apply Serves.bind
        · exact serves_report isID (fun _ => rfl) ⟨fun _ => rfl, fun _ => rfl, fun _ => Or.inr forgets⟩
        · intro _ _
          exact serves_pure ⟨rfl, rfl, rfl, rfl, rfl, Or.inr forgets⟩
    · exact serves_pure (Kept.refl st)

omit isID in
theorem serves_noted {condition : Prop} [Decidable condition] {event : FleetEvent} {change : AgentConn → AgentConn}
    {found next : AgentConn} (keeps : ∀ st, Kept rules.acks st (change st)) (kept : Kept rules.acks found next) :
    Serves rules (Kept rules.acks found) (do
      if condition then emitEvent event
      updateEntry replica st.instanceUID change
      return next) := by
  have updated : Serves rules (Kept rules.acks found) (do
      updateEntry replica st.instanceUID change
      return next) :=
    (serves_updateEntry isUID keeps).bind fun _ _ => serves_pure kept
  split
  · exact (serves_emitEvent event).bind fun _ _ => updated
  · exact updated

theorem serves_recordTransition (report : RemoteConfigReport) (acknowledged : AgentConn) :
    Serves rules (Kept rules.acks acknowledged) (recordTransition env replica st report acknowledged) := by
  unfold recordTransition
  split
  · apply Serves.bind
    · exact serves_report isID (fun _ => rfl) (.of_same (fun _ => rfl) (fun _ => rfl) fun _ => rfl)
    · intro res _
      cases res with
      | error err => exact serves_pure (Kept.refl acknowledged)
      | ok _ => exact serves_noted isUID (fun _ => ⟨rfl, rfl, rfl, rfl, rfl, Or.inl rfl⟩) ⟨rfl, rfl, rfl, rfl, rfl, Or.inl rfl⟩
  · exact serves_pure (Kept.refl acknowledged)

theorem serves_handleRemoteConfigStatus {report : RemoteConfigReport}
    (acks : (report.lastRemoteConfigHash = [] → mapRemoteConfigStatus report.status = .unset) →
      rules.acks report.lastRemoteConfigHash) :
    Serves rules (Kept rules.acks st) (handleRemoteConfigStatus env replica st report) := by
  apply (serves_handleAcknowledgement isUID isID acks).bind
  intro acknowledged kept world known
  apply (serves_recordTransition isUID isID report acknowledged world known).imp
  intro _ _ ends
  exact ⟨kept.trans ends.1, ends.2⟩

omit isUID in
theorem serves_handleEffectiveConfig (files : List (String × String)) :
    Serves rules (fun _ => True) (handleEffectiveConfig env st files) := by
  unfold handleEffectiveConfig
  split
  · exact serves_pure trivial
  · apply Serves.bind
    · exact serves_report isID (fun _ => rfl) (.of_same (fun _ => rfl) (fun _ => rfl) fun _ => rfl)
    · intro _ _
      exact serves_pure trivial

theorem serves_handleHealth (health : ComponentHealth) :
    Serves rules (Kept rules.acks st) (handleHealth env replica st health) := by
  unfold handleHealth
  dsimp only
  split
  · exact serves_pure (Kept.refl st)
  · apply Serves.bind
    · exact serves_report isID (fun _ => rfl) (.of_same (fun _ => rfl) (fun _ => rfl) fun _ => rfl)
    · intro res _
      cases res with
      | error err => exact serves_pure (Kept.refl st)
      | ok _ => exact serves_noted isUID (fun _ => ⟨rfl, rfl, rfl, rfl, rfl, Or.inl rfl⟩) ⟨rfl, rfl, rfl, rfl, rfl, Or.inl rfl⟩

def OffersOwn (had : Uuid → String → Prop) (customerID : Uuid) (resp : ServerToAgent) : Prop :=
  ∀ config ∈ resp.remoteConfig, had customerID config.body

omit isUID in
theorem serves_maybeOfferConfig
    (assigns : ∀ hash, rules.allows fun row => { row with assignedConfigHash := some hash })
    (own : OffersOwn rules.had st.customerID resp) :
    Serves rules (OffersOwn rules.had st.customerID) (maybeOfferConfig env st resp) := by
  unfold maybeOfferConfig
  split
  · apply serves_renderEdgeCurrent.bind
    intro res rendered
    cases res with
    | error err => exact serves_pure own
    | ok desired =>
      apply Serves.bind
      · rw [isID]
        apply serves_exec
        intro db value db' assigned
        exact ⟨_, _, assigns _, updateAgent_ok assigned⟩
      · intro _ _
        split
        · exact serves_pure own
        · apply serves_pure
          intro config offered
          cases offered
          exact rendered desired rfl
  · exact serves_pure own

end

/-! ## A whole message -/

section

variable {env : Env} {replica : Nat} {incoming : Incoming} {id : Uuid}
  {rules : Rules replica incoming.uid id} {st : AgentConn}
  (isUID : st.instanceUID = incoming.uid) (isID : st.agentID = id)

/-- The hash that the message acknowledges; the empty one when it reports that there is
    no remote config. -/
def Acknowledges (incoming : Incoming) (hash : Bytes) : Prop :=
  ∃ report, incoming.msg.remoteConfigStatus = some report ∧ report.lastRemoteConfigHash = hash ∧
    (hash = [] → mapRemoteConfigStatus report.status = .unset)

include isUID isID

theorem serves_handleReports (acks : ∀ hash, Acknowledges incoming hash → rules.acks hash) :
    Serves rules (Kept rules.acks st) (handleReports env replica incoming st) := by
  apply Serves.bind
  · unfold reportStatus
    split
    · rename_i report isReport
      exact serves_handleRemoteConfigStatus isUID isID fun isUnset => acks _ ⟨report, isReport, rfl, isUnset⟩
    · exact serves_pure (Kept.refl st)
  · intro reported kept
    have isUID' := kept.instanceUID.trans isUID
    have isID' := kept.agentID.trans isID
    apply Serves.bind
    · show Serves rules (fun _ => True) _
      unfold reportConfig
      split
      · exact serves_handleEffectiveConfig isID' _
      · exact serves_pure trivial
    · intro _ _
      unfold reportHealth
      split
      · intro world known
        exact (serves_handleHealth isUID' isID' _ world known).imp fun _ _ ends => ⟨kept.trans ends.1, ends.2⟩
      · exact serves_pure kept

omit isUID in
theorem serves_refreshDescription (prev : Option AgentConn) :
    Serves rules (fun _ => True) (refreshDescription env incoming prev st) := by
  unfold refreshDescription
  split
  · split
    · exact serves_pure trivial
    · apply Serves.bind
      · exact serves_report isID (fun _ => rfl) (.of_same (fun _ => rfl) (fun _ => rfl) fun _ => rfl)
      · intro _ _
        exact serves_pure trivial
  · exact serves_pure trivial

variable {post : ServerToAgent → Prop}

theorem serves_maybeOfferAgentToken (holds : post resp) (offered : ∀ token, post (tokenOffer env token resp)) :
    Serves rules post (maybeOfferAgentToken env replica incoming st resp) := by
  unfold maybeOfferAgentToken
  split
  · exact serves_pure holds
  · split
    · exact serves_pure holds
    · rename_i token _
      apply Serves.bind
      · rw [isID]
        apply serves_exec
        intro db value db' stored
        cases stored
        refine ⟨_, _, ?_, rfl⟩
        exact rules.reports _ (.of_same (fun _ => rfl) (fun _ => rfl) fun _ => rfl)
      · intro res _
        cases res with
        | error err => exact serves_pure holds
        | ok _ =>
          apply Serves.bind
          · exact serves_updateEntry isUID fun _ => ⟨rfl, rfl, rfl, rfl, rfl, Or.inl rfl⟩
          · intro _ _
            exact serves_pure (offered token)

theorem serves_offerToken (newConn : Bool) (holds : post resp) (offered : ∀ token, post (tokenOffer env token resp)) :
    Serves rules post (offerToken env replica incoming st newConn resp) := by
  unfold offerToken
  split
  · exact serves_maybeOfferAgentToken isUID isID holds offered
  · exact serves_pure holds

theorem serves_makeOffers (assigns : ∀ hash, rules.allows fun row => { row with assignedConfigHash := some hash })
    (newConn : Bool) :
    Serves rules (OffersOwn rules.had st.customerID) (makeOffers env replica incoming st newConn) := by
  have base : OffersOwn rules.had st.customerID (baseResponse incoming) := fun _ offered => nomatch offered
  apply Serves.bind
  · unfold offerOnConnect
    split
    · exact serves_maybeOfferConfig isID assigns base
    · exact serves_pure base
  · intro resp own
    exact serves_offerToken isUID isID newConn own fun _ => own

end

/-! ## Until the agent is registered -/

/-- Neither others nor silent actions disturb what is known. -/
structure Steady (inv : World → Prop) (rely guar : World → World → Prop) (known : World → Prop) : Prop where
  stable : ∀ before after, rely before after → known before → known after
  silent : ∀ before after, Silent before after → inv before → known before →
    guar before after ∧ inv after ∧ known after

/-- What is to be shown of a message on the way to its registered agent. -/
structure Reception (env : Env) (replica : Nat) (incoming : Incoming) where
  inv : World → Prop
  rely : World → World → Prop
  guar : World → World → Prop
  /-- What is known until the agent is resolved, and that the registry has no entry. -/
  known : World → Prop
  absent : Prop
  resolved : Resolution → World → Prop
  /-- What is known when the message is answered without offers. -/
  answered : World → Prop
  served : AgentConn → World → Prop
  steady : Steady inv rely guar known
  steady_answered : Steady inv rely guar answered
  answers : ∀ world, known world → answered world
  empty : ∀ world, inv world → known world → (world.registries replica).get incoming.uid = none → absent
  entry : ∀ world st, inv world → known world → (world.registries replica).get incoming.uid = some st →
    st.customerID = incoming.auth.customerID → tokenMatches incoming st →
      Prog.Meets inv rely guar served (register env replica incoming (some st) st) world
  unresolved : ∀ world, absent → known world → resolved .askFullState world
  row : ∀ world agent, absent → known world →
    (world.db.agents.find? fun agent => agent.instanceUID = incoming.uid) = some agent →
      resolved (resolveRow incoming agent) world
  enrolled : ∀ world description freshID freshUID token, absent → inv world → known world →
    let agent := newAgent incoming description
    let after := { world with
      calls := world.calls + 1
      db := world.db.enrolled agent incoming.now freshID freshUID token }
    guar world after ∧ inv after ∧ ∀ st, st.instanceUID = incoming.uid → st.agentID = agent.id →
      st.customerID = incoming.auth.customerID → st.lastAckedHash = [] → resolved (.resolved st) after
  resolves : ∀ world resolution, resolved resolution world → answered world
  admits : ∀ world st, resolved (.resolved st) world → tokenMatches incoming st →
    Prog.Meets inv rely guar served (register env replica incoming none st) world

section

variable {α : Type} {inv known : World → Prop} {rely guar : World → World → Prop} {world : World}

theorem Steady.meets {action : World → α × World} (steady : Steady inv rely guar known) (isKnown : known world)
    (silent : ∀ now, Silent now (action now).2) :
    Prog.Meets inv rely guar (fun value now => inv now ∧ known now ∧ ∃ before, Silent before now ∧ value = (action before).1)
      (Prog.atomically action) world := by
  apply Prog.meets_atomically
  intro now moved holds
  obtain ⟨given, kept, knownAfter⟩ := steady.silent now _ (silent now) holds (steady.stable world now moved isKnown)
  exact ⟨given, kept, kept, knownAfter, now, silent now, rfl⟩

theorem getAgentByInstanceUID_ok {db : FleetTables} {uid : Bytes} {agent : Agent}
    (found : db.getAgentByInstanceUID uid = .ok agent) :
    (db.agents.find? fun agent => agent.instanceUID = uid) = some agent := by
  unfold getAgentByInstanceUID at found
  split at found
  · cases found
    assumption
  · cases found

theorem enrollAgent_ok {db db' : FleetTables} {agent : NewAgent} {now : Int} {row : Agent}
    (enrolled : db.enrollAgent agent now = .ok (row, db')) :
    ∃ freshID freshUID token, db' = db.enrolled agent now freshID freshUID token ∧ row = agent.row now := by
  unfold enrollAgent at enrolled
  split at enrolled
  · split at enrolled
    · split at enrolled
      · cases enrolled
        exact ⟨_, _, _, rfl, rfl⟩
      · cases enrolled
    · cases enrolled
  · cases enrolled

variable {env : Env} {replica : Nat} {incoming : Incoming} {rules : Reception env replica incoming} {prev : Option AgentConn}
  {st : AgentConn}

abbrev Receives (rules : Reception env replica incoming) (post : α → World → Prop) (program : Prog World α) (world : World) :
    Prop :=
  Prog.Meets rules.inv rules.rely rules.guar post program world

/-- The message is answered without an offer, or its agent is registered. -/
def Reception.Staged (rules : Reception env replica incoming) : Stage → World → Prop
  | .answered resp, world => resp.remoteConfig = none ∧ rules.answered world
  | .admitted st _, world => rules.served st world

theorem receives_reject {msg : String} (answered : rules.answered world) :
    Receives rules (fun resp now => resp.remoteConfig = none ∧ rules.answered now) (reject incoming msg) world := by
  apply (rules.steady_answered.meets answered fun _ => ⟨rfl, rfl, rfl, rfl⟩).bind
  intro _ now closed
  exact Prog.meets_pure ⟨rfl, closed.2.1⟩

theorem receives_boundElsewhere (answered : rules.answered world) :
    Receives rules rules.Staged (boundElsewhere incoming) world := by
  apply (receives_reject answered).bind
  intro _ _ rejected
  exact Prog.meets_pure rejected

theorem receives_admitAgent (answered : rules.answered world)
    (registers : tokenMatches incoming st → Receives rules rules.served (register env replica incoming prev st) world) :
    Receives rules rules.Staged (admitAgent env replica incoming prev st) world := by
  unfold admitAgent
  split
  · rename_i isMatch
    apply (registers isMatch).bind
    intro _ _ served
    exact Prog.meets_pure served
  · apply (receives_reject answered).bind
    intro _ _ rejected
    exact Prog.meets_pure rejected

theorem receives_lookupAgent {missing : Prog World Resolution} (absent : rules.absent) (isKnown : rules.known world)
    (orElse : ∀ now, rules.known now → Receives rules rules.resolved missing now) :
    Receives rules rules.resolved (lookupAgent env incoming missing) world := by
  apply (rules.steady.meets isKnown fun _ => ⟨rfl, rfl, rfl, rfl⟩).bind
  intro res now found
  obtain ⟨_, knownNow, before, silent, isResult⟩ := found
  cases res with
  | ok agent =>
    apply Prog.meets_pure
    split at isResult
    · cases isResult
    · exact rules.row now agent absent knownNow (by rw [silent.db]; exact getAgentByInstanceUID_ok isResult.symm)
  | error err =>
    cases err with
    | notFound => exact orElse now knownNow
    | conflict | emailExists | nameExists | other msg => exact Prog.meets_pure (rules.unresolved now absent knownNow)

theorem receives_enroll (absent : rules.absent) (isKnown : rules.known world) (description : AgentDescription) :
    Receives rules rules.resolved (enroll env incoming description) world := by
  have enrolls : Receives rules (fun res now => match res with
      | .ok agent => ∀ st, st.instanceUID = incoming.uid → st.agentID = agent.id →
          st.customerID = incoming.auth.customerID → st.lastAckedHash = [] → rules.resolved (.resolved st) now
      | .error _ => rules.known now)
      (exec env fun db => db.enrollAgent (newAgent incoming description) incoming.now) world := by
    apply Prog.meets_atomically
    intro now moved holds
    have knownNow := rules.steady.stable world now moved isKnown
    rcases written_cases env (fun db => db.enrollAgent (newAgent incoming description) incoming.now) now with
      ⟨err, failed⟩ | ⟨row, db, called, succeeded⟩
    · rw [failed]
      exact rules.steady.silent now _ ⟨rfl, rfl, rfl, rfl⟩ holds knownNow
    · obtain ⟨freshID, freshUID, token, rfl, rfl⟩ := enrollAgent_ok called
      rw [succeeded]
      exact rules.enrolled now description freshID freshUID token absent holds knownNow
  apply enrolls.bind
  intro res now enrolled
  cases res with
  | ok agent => exact Prog.meets_pure (enrolled _ rfl rfl rfl rfl)
  | error err =>
    cases err with
    | conflict =>
      exact receives_lookupAgent absent enrolled fun later known => Prog.meets_pure (rules.unresolved later absent known)
    | notFound | emailExists | nameExists | other msg => exact Prog.meets_pure (rules.unresolved now absent enrolled)

theorem receives_resolveAgent (absent : rules.absent) (isKnown : rules.known world) :
    Receives rules rules.resolved (resolveAgent env incoming) world := by
  apply receives_lookupAgent absent isKnown
  intro now knownNow
  split
  · exact Prog.meets_pure (rules.unresolved now absent knownNow)
  · exact receives_enroll absent knownNow _

theorem receives_receive (isKnown : rules.known world) : Receives rules rules.Staged (receive env replica incoming) world := by
  unfold receive
  split
  · exact Prog.meets_pure ⟨rfl, rules.answers world isKnown⟩
  · apply (rules.steady.meets isKnown fun _ => ⟨rfl, rfl, rfl, rfl⟩).bind
    intro entry now found
    obtain ⟨holds, knownNow, before, silent, isEntry⟩ := found
    dsimp only at isEntry
    rw [← silent.registries] at isEntry
    have answered := rules.answers now knownNow
    cases entry with
    | some st =>
      dsimp only
      split
      · exact receives_boundElsewhere answered
      · rename_i isCustomer
        exact receives_admitAgent answered (rules.entry now st holds knownNow isEntry.symm (not_not.mp isCustomer))
    | none =>
      apply (receives_resolveAgent (rules.empty now holds knownNow isEntry.symm) knownNow).bind
      intro resolution later resolved
      have answered := rules.resolves later resolution resolved
      cases resolution with
      | reject => exact receives_boundElsewhere answered
      | askFullState => exact Prog.meets_pure ⟨rfl, answered⟩
      | resolved st => exact receives_admitAgent answered (rules.admits later st resolved)

end

/-! ## Pushes

A changed config is assigned to agents and sent, and nothing else is done. -/

structure Aside (before after : World) : Prop where
  db : after.db = before.db
  registries : after.registries = before.registries
  edgeConfig : after.edgeConfig = before.edgeConfig

structure PushRules where
  inv : World → Prop
  rely : World → World → Prop
  guar : World → World → Prop
  aside : ∀ before after, Aside before after → inv before → guar before after ∧ inv after
  assigned : ∀ world id hash, inv world →
    let after := { world with
      calls := world.calls + 1
      db := world.db.setStatus id (fun agent => { agent with assignedConfigHash := some hash }) [] }
    guar world after ∧ inv after

variable {α β : Type} {rules : PushRules} {env : Env} {world : World}

abbrev Pushes (rules : PushRules) (program : Prog World α) (world : World) : Prop :=
  Prog.Meets rules.inv rules.rely rules.guar (fun _ _ => True) program world

theorem pushes_pure (value : α) : Pushes rules (pure value) world := Prog.meets_pure trivial

theorem Pushes.bind {program : Prog World β} {following : β → Prog World α} (first : Pushes rules program world)
    (rest : ∀ value now, Pushes rules (following value) now) : Pushes rules (program >>= following) world :=
  Prog.Meets.bind first fun value now _ => rest value now

theorem pushes_aside {action : World → α × World} (aside : ∀ now, Aside now (action now).2) :
    Pushes rules (Prog.atomically action) world := by
  apply Prog.meets_atomically
  intro now _ inv
  obtain ⟨given, kept⟩ := rules.aside now _ (aside now) inv
  exact ⟨given, kept, trivial⟩

theorem pushes_assigned (id : Uuid) (hash : Bytes) :
    Pushes rules (exec env fun db => db.setAgentAssignedConfig id hash) world := by
  apply Prog.meets_atomically
  intro now _ inv
  rcases written_cases env (fun db => db.setAgentAssignedConfig id hash) now with
    ⟨err, failed⟩ | ⟨value, db, called, succeeded⟩
  · rw [failed]
    obtain ⟨given, kept⟩ := rules.aside now { now with calls := now.calls + 1 } ⟨rfl, rfl, rfl⟩ inv
    exact ⟨given, kept, trivial⟩
  · have assigned : db = _ := updateAgent_ok called
    subst assigned
    rw [succeeded]
    obtain ⟨given, kept⟩ := rules.assigned now id hash inv
    exact ⟨given, kept, trivial⟩

theorem pushes_send (conn : Conn) (msg : ServerToAgent) : Pushes rules (send env conn msg) world := by
  apply pushes_aside
  intro now
  split <;> exact ⟨rfl, rfl, rfl⟩

theorem pushes_pushConfig (desired : String) (st : AgentConn) : Pushes rules (pushConfig env desired st) world := by
  unfold pushConfig
  split
  · apply (pushes_assigned st.agentID (env.sha256 desired)).bind
    intro _ later
    split
    · exact pushes_pure false
    · apply (pushes_send _ _).bind
      intro res _
      cases res with
      | ok _ => exact pushes_pure true
      | error _ => exact pushes_pure false
  · exact pushes_pure false

theorem pushes_pushAll (desired : String) (conns : List AgentConn) (pushed : Nat) :
    Pushes rules (pushAll env desired conns pushed) world := by
  induction conns generalizing pushed world with
  | nil => exact pushes_pure pushed
  | cons st rest ih =>
    apply (pushes_pushConfig desired st).bind
    intro isSent later
    exact ih _

theorem pushes_edgeConfigChanged (replica : Nat) (customerID : Uuid) :
    Pushes rules (edgeConfigChanged env replica customerID) world := by
  apply (pushes_aside fun _ => ⟨rfl, rfl, rfl⟩).bind
  intro res later
  cases res with
  | error err => exact pushes_pure _
  | ok desired =>
    apply (pushes_aside fun _ => ⟨rfl, rfl, rfl⟩).bind
    intro conns _
    apply (pushes_pushAll desired conns 0).bind
    intro pushed _
    apply (pushes_aside fun _ => ⟨rfl, rfl, rfl⟩).bind
    intro counted _
    cases counted with
    | error err | ok agents => exact pushes_pure _

end OtelFleet.Verified.MessageRules
