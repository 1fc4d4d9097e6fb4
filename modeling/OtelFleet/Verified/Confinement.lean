import OtelFleet.Verified.TierRuns

/-! # Connections are confined to their customer

In every run of the tier, an action of a message changes no row and no registry
entry of another customer's agent; on a connection with an agent's own token it
changes those of this agent only and enrolls none.  What a response offers is an
edge config of the connection's customer.
-/

namespace OtelFleet.Verified.Confinement

open OpAMP Semantics Store Store.FleetTables
open Verified.MessageActions Verified.TierRuns

/-- What an action on a connection with this binding leaves alone. -/
structure Confined (auth : ConnAuth) (before after : World) : Prop where
  /-- Rows of other customers' agents stay as they are, and none is added. -/
  rows : ∀ agent : Agent, agent.customerID ≠ some auth.customerID →
    (agent ∈ after.db.agents ↔ agent ∈ before.db.agents)
  entries : ∀ replica uid st, st.customerID ≠ auth.customerID →
    ((after.registries replica).get uid = some st ↔ (before.registries replica).get uid = some st)
  ownRow : ∀ own, auth.agentID = some own → ∀ agent : Agent, agent.id ≠ own →
    (agent ∈ after.db.agents ↔ agent ∈ before.db.agents)
  ownEntry : ∀ own, auth.agentID = some own → ∀ replica uid st, st.agentID ≠ own →
    ((after.registries replica).get uid = some st ↔ (before.registries replica).get uid = some st)
  noEnrollment : auth.agentID.isSome = true →
    (after.db.agents.map fun agent => agent.id) = before.db.agents.map fun agent => agent.id

/-! ## Rows -/

section

variable {db db' : FleetTables} {auth : ConnAuth} {uid : Bytes} {agent : Agent} {id : Uuid}
  {change : AgentStatus → AgentStatus}

theorem changed_of_ne (other : agent.id ≠ id) : changed id change agent = agent :=
  if_neg other

theorem mem_setStatus_iff {events : List AgentEvent} (other : agent.id ≠ id) :
    agent ∈ (db.setStatus id change events).agents ↔ agent ∈ db.agents := by
  constructor
  · intro mem
    obtain ⟨old, isOld, same⟩ := List.mem_map.mp mem
    have sameID : old.id = agent.id := by rw [← same, changed_key]
    rw [changed_of_ne (by rw [sameID]; exact other)] at same
    exact same ▸ isOld
  · intro mem
    exact List.mem_map.mpr ⟨agent, mem, changed_of_ne other⟩

theorem Bound.customer (bound : Bound db uid id auth.customerID) (mem : agent ∈ db.agents) (isID : agent.id = id) :
    agent.customerID = some auth.customerID := by
  obtain ⟨row, isRow, _, rowID, isCustomer⟩ := bound
  have same : agent = row := List.inj_on_of_nodup_map db.agents_id mem isRow (isID.trans rowID.symm)
  rw [same]
  exact isCustomer

theorem rows_confined (tables : TableChange auth uid db db') (foreign : agent.customerID ≠ some auth.customerID) :
    agent ∈ db'.agents ↔ agent ∈ db.agents := by
  cases tables with
  | same => rfl
  | @status id bound admits change events =>
    by_cases isID : agent.id = id
    · -- The row with this ID is the customer's, before and after.
      have keyed : ∀ old ∈ db.agents, old.toAgentKey ≠ agent.toAgentKey := by
        intro old isOld same
        rw [← same] at isID foreign
        exact foreign (Bound.customer bound isOld isID)
      refine iff_of_false (fun mem => ?_) fun mem => keyed agent mem rfl
      obtain ⟨old, isOld, rfl⟩ := List.mem_map.mp mem
      exact keyed old isOld (changed_key id change old).symm
    · exact mem_setStatus_iff isID
  | @enrolled new now isUID isCustomer viaToken freshID freshUID token =>
    have notNew : agent ≠ new.row now := by
      intro same
      apply foreign
      rw [same, ← isCustomer]
      rfl
    change agent ∈ db.agents ++ [new.row now] ↔ agent ∈ db.agents
    simp [notNew]

theorem own_confined (tables : TableChange auth uid db db') (genuine : Genuine auth) {own : Uuid}
    (isOwn : auth.agentID = some own) (noNil : Uuid.nil ∉ db.tokens.map BootstrapToken.id) :
    (∀ agent : Agent, agent.id ≠ own → (agent ∈ db'.agents ↔ agent ∈ db.agents)) ∧
      (db'.agents.map fun agent => agent.id) = db.agents.map fun agent => agent.id := by
  obtain ⟨viaAgentToken, isNil⟩ := genuine own isOwn
  cases tables with
  | same => exact ⟨fun _ _ => Iff.rfl, rfl⟩
  | @status id bound admits change events =>
    have same : own = id := admits viaAgentToken own isOwn
    subst same
    refine ⟨fun _ => mem_setStatus_iff, ?_⟩
    change ((db.agents.map (changed own change)).map fun agent => agent.id) = _
    simp [Function.comp_def]
  | @enrolled new now isUID isCustomer viaToken freshID freshUID token =>
    -- The nil UUID is no token's.
    obtain ⟨row, mem, isToken⟩ := token
    refine absurd (List.mem_map.mpr ⟨row, mem, ?_⟩) noNil
    rw [isToken, viaToken, isNil]

end

/-! ## Entries -/

section

variable {had : Uuid → String → Prop} {before after : World} {replica : Nat} {auth : ConnAuth} {uid : Bytes}

section

variable (touches : Touches replica auth uid before after) (consistent : Consistent had before)
  (consistentAfter : Consistent had after)
include touches consistent consistentAfter

theorem entry_cases (somewhere : Nat) (key : Bytes) (st : AgentConn) :
    ((after.registries somewhere).get key = some st ↔ (before.registries somewhere).get key = some st) ∨
      (st.customerID = auth.customerID ∧ Admits auth st.agentID) := by
  by_cases here : somewhere = replica
  · subst here
    by_cases isUID : key = uid
    · subst isUID
      rcases touches.entry with same | ⟨id, bound, admits⟩
      · rw [same]
        exact Or.inl Iff.rfl
      · -- Both an old and a new entry stand for the row that the UID is bound to.
        by_cases old : (before.registries somewhere).get key = some st
        · obtain ⟨sameID, sameCustomer⟩ := bound.unique (consistent.entries somewhere key st old).2
          exact Or.inr ⟨sameCustomer.symm, sameID ▸ admits⟩
        · by_cases new : (after.registries somewhere).get key = some st
          · obtain ⟨sameID, sameCustomer⟩ :=
              (bound.grow touches.keysGrow).unique (consistentAfter.entries somewhere key st new).2
            exact Or.inr ⟨sameCustomer.symm, sameID ▸ admits⟩
          · exact Or.inl ⟨fun found => absurd found new, fun found => absurd found old⟩
    · rw [touches.entries key isUID]
      exact Or.inl Iff.rfl
  · rw [touches.elsewhere somewhere here]
    exact Or.inl Iff.rfl

theorem confined_of_touches (genuine : Genuine auth) (noNil : Uuid.nil ∉ before.db.tokens.map BootstrapToken.id) :
    Confined auth before after where
  rows agent foreign := rows_confined touches.tables foreign
  entries somewhere key st foreign := by
    rcases entry_cases touches consistent consistentAfter somewhere key st with same | ⟨isCustomer, _⟩
    · exact same
    · exact absurd isCustomer foreign
  ownRow own isOwn := (own_confined touches.tables genuine isOwn noNil).1
  ownEntry own isOwn somewhere key st other := by
    rcases entry_cases touches consistent consistentAfter somewhere key st with same | ⟨_, admits⟩
    · exact same
    · exact absurd (admits (genuine own isOwn).1 own isOwn).symm other
  noEnrollment isSome := by
    obtain ⟨own, isOwn⟩ := Option.isSome_iff_exists.mp isSome
    exact (own_confined touches.tables genuine isOwn noNil).2

end

end

/-! ## Runs -/

/-- The tier at its start: no connection, no handler under way, and no token with
    the nil UUID. -/
structure Begins (tier : Tier) : Prop where
  idle : tier.handlers.jobs = []
  disconnected : tier.sessions = []
  empty : ∀ replica, tier.world.registries replica = .empty
  tokens : Uuid.nil ∉ tier.world.db.tokens.map BootstrapToken.id

/-- What `RenderEdgeCurrent` returns for the customer in the course of a run. -/
def edgeConfigs (start : Tier) (events : List Event) (customerID : Uuid) : List (Except String String) :=
  start.world.edgeConfig customerID :: events.filterMap fun event =>
    match event with
    | .commit edgeConfig => some (edgeConfig customerID)
    | _ => none

theorem Begins.orderly {had : Uuid → String → Prop} {tier : Tier} (begins : Begins tier)
    (configs : ∀ customerID text, tier.world.edgeConfig customerID = .ok text → had customerID text) :
    Orderly had tier where
  promising := by
    refine ⟨⟨fun replica uid st found => ?_, configs⟩, fun job mem => ?_⟩
    · rw [show tier.handlers.shared.registries replica = .empty from begins.empty replica] at found
      cases found
    · rw [begins.idle] at mem
      cases mem
  tokens := begins.tokens
  sessions session mem := by
    rw [begins.disconnected] at mem
    cases mem
  messages replica incoming rest mem := by
    rw [begins.idle] at mem
    cases mem

variable {events : List Event}

theorem commitsHad_edgeConfigs {start : Tier} {event : Event} (mem : event ∈ events) :
    CommitsHad (fun customerID text => .ok text ∈ edgeConfigs start events customerID) event := by
  cases event with
  | commit edgeConfig =>
    intro customerID text committed
    rw [← committed]
    exact List.mem_cons_of_mem _ (List.mem_filterMap.mpr ⟨_, mem, rfl⟩)
  | _ => trivial

theorem run_orderly {env : Env} {start tier : Tier} (begins : Begins start)
    (run : Run (Tier.Step env) start events tier) :
    Orderly (fun customerID text => .ok text ∈ edgeConfigs start events customerID) tier := by
  apply (run.restrict fun _ => commitsHad_edgeConfigs).invariant
  · intro state event next step orderly
    exact orderly_step step.1 step.2 orderly
  · apply begins.orderly
    intro customerID text rendered
    rw [← rendered]
    exact List.mem_cons_self

/-- In every run, each action of a message is confined to the customer of its
    connection, and to the agent when the connection is bound to one; the config that
    a response offers is one that the customer had in the run. -/
theorem messages_confined {env : Env} {start tier : Tier} {events : List Event} (begins : Begins start)
    (run : Run (Tier.Step env) start events tier) :
    (∀ job handlers replica incoming rest, tier.handlers.jobs[job]? = some (.message replica incoming, rest) →
      tier.handlers.advance job = some handlers → Confined incoming.auth tier.world handlers.shared) ∧
    ∀ replica incoming resp, (Purpose.message replica incoming, Prog.done (some resp)) ∈ tier.handlers.jobs →
      ∀ config ∈ resp.remoteConfig, .ok config.body ∈ edgeConfigs start events incoming.auth.customerID := by
  have orderly := run_orderly begins run
  refine ⟨fun job handlers replica incoming rest isJob advanced => ?_, fun replica incoming resp answered => ?_⟩
  · obtain ⟨promising, purpose, rest', isJob', guarantee⟩ := promising_advanced orderly.promising advanced
    rw [isJob] at isJob'
    cases isJob'
    exact confined_of_touches guarantee orderly.promising.1 promising.1
      (orderly.messages replica incoming rest (List.mem_of_getElem? isJob)) orderly.tokens
  · exact orderly.promising.2 _ answered

theorem acmeTier_begins : Begins acmeTier where
  idle := rfl
  disconnected := rfl
  empty _ := rfl
  tokens := by decide

def firstContact : List Event :=
  [.connect 0 ⟨1⟩ acmeHeader, .message ⟨1⟩ (hello [5]) firstID (.error ""), .advance 0, .advance 0]

def enrolling : Tier := (acmeTier.performAll acmeEnv firstContact).getD acmeTier

theorem acme_enrollment_confined : ∃ handlers, enrolling.handlers.advance 0 = some handlers ∧
    handlers.shared.db.agents.length = 1 ∧ Confined acmeAuth enrolling.world handlers.shared := by
  have run : Run (Tier.Step acmeEnv) acmeTier firstContact enrolling := Tier.run_of_performAll rfl
  have confined := (messages_confined acmeTier_begins run).1 0
  exact ⟨_, rfl, rfl, confined _ 0 _ _ rfl rfl⟩

end OtelFleet.Verified.Confinement
