import OtelFleet.Verified.MessageRules

/-! # What the actions of a message can change

A message works on the agent of its instance UID only.  `Touches` says what one
action of its handler may do to the world; `handleMessage_meets` says that every
action keeps to it, whatever other handlers do in between.

Others are assumed to keep the key columns of the rows (`KeysGrow`) and the
invariant `Consistent`: each entry of a registry stands for a row.
-/

namespace OtelFleet.Verified.MessageActions

open OpAMP Semantics Store Store.FleetTables
open Verified.MessageRules

/-! ## Rows -/

def Bound (db : FleetTables) (uid : Bytes) (id customerID : Uuid) : Prop :=
  ∃ agent ∈ db.agents, agent.instanceUID = uid ∧ agent.id = id ∧ agent.customerID = some customerID

def KeysGrow (before after : World) : Prop :=
  ∀ agent ∈ before.db.agents, ∃ later ∈ after.db.agents, later.toAgentKey = agent.toAgentKey

variable (world : World)

theorem keysGrow_refl : KeysGrow world world := fun agent mem => ⟨agent, mem, rfl⟩

theorem keysGrow_trans (first second third : World) (early : KeysGrow first second) (late : KeysGrow second third) :
    KeysGrow first third := by
  intro agent mem
  obtain ⟨next, nextMember, same⟩ := early agent mem
  obtain ⟨last, lastMember, sameLast⟩ := late next nextMember
  exact ⟨last, lastMember, sameLast.trans same⟩

variable {after before : World} {uid : Bytes}

theorem Bound.grow {id customerID : Uuid} (bound : Bound before.db uid id customerID) (grows : KeysGrow before after) :
    Bound after.db uid id customerID := by
  obtain ⟨agent, mem, isUID, isID, isCustomer⟩ := bound
  obtain ⟨later, laterMember, same⟩ := grows agent mem
  refine ⟨later, laterMember, ?_, ?_, ?_⟩
  · rw [same]
    exact isUID
  · rw [same]
    exact isID
  · rw [same]
    exact isCustomer

theorem Bound.unique {db : FleetTables} {id id' customerID customerID' : Uuid} (bound : Bound db uid id customerID)
    (bound' : Bound db uid id' customerID') : id = id' ∧ customerID = customerID' := by
  obtain ⟨agent, mem, isUID, rfl, isCustomer⟩ := bound
  obtain ⟨agent', mem', isUID', rfl, isCustomer'⟩ := bound'
  have same : agent = agent' := List.inj_on_of_nodup_map db.agents_uid mem mem' (isUID.trans isUID'.symm)
  subst same
  exact ⟨rfl, Option.some.inj (isCustomer.symm.trans isCustomer')⟩

/-! ## One action -/

/-- The connection may act for the agent: one with an agent's own token acts for
    that agent only. -/
def Admits (auth : ConnAuth) (id : Uuid) : Prop := auth.viaAgentToken = true → ∀ own ∈ auth.agentID, own = id

inductive TableChange (auth : ConnAuth) (uid : Bytes) (db : FleetTables) : FleetTables → Prop where
  | same : TableChange auth uid db db
  | status {id : Uuid} (bound : Bound db uid id auth.customerID) (admits : Admits auth id)
      (change : AgentStatus → AgentStatus) (events : List AgentEvent) :
      TableChange auth uid db (db.setStatus id change events)
  | enrolled {agent : NewAgent} (now : Int) (isUID : agent.instanceUID = uid)
      (isCustomer : agent.customerID = auth.customerID) (viaToken : agent.enrolledVia = auth.tokenID)
      (freshID : agent.id ∉ db.agents.map fun agent => agent.id)
      (freshUID : agent.instanceUID ∉ db.agents.map fun agent => agent.instanceUID)
      (token : ∃ token ∈ db.tokens, token.id = agent.enrolledVia) :
      TableChange auth uid db (db.enrolled agent now freshID freshUID token)

structure Touches (replica : Nat) (auth : ConnAuth) (uid : Bytes) (before after : World) : Prop where
  tables : TableChange auth uid before.db after.db
  edgeConfig : after.edgeConfig = before.edgeConfig
  elsewhere : ∀ other, other ≠ replica → after.registries other = before.registries other
  entries : ∀ other, other ≠ uid → (after.registries replica).get other = (before.registries replica).get other
  /-- The entry of the UID changes only when the UID is that of an agent the
      connection may act for. -/
  entry : (after.registries replica).get uid = (before.registries replica).get uid ∨
    ∃ id, Bound before.db uid id auth.customerID ∧ Admits auth id

/-- Each entry of a registry stands for the row of its UID, and the edge configs are
    among those a customer `had`. -/
structure Consistent (had : Uuid → String → Prop) (world : World) : Prop where
  entries : ∀ replica uid st, (world.registries replica).get uid = some st →
    st.instanceUID = uid ∧ Bound world.db uid st.agentID st.customerID
  configs : ∀ customerID text, world.edgeConfig customerID = .ok text → had customerID text

variable {agent : Agent} {auth : ConnAuth}

section

variable {db : FleetTables} {world : World}

theorem mem_setStatus {id : Uuid} {change : AgentStatus → AgentStatus} {events : List AgentEvent}
    (mem : agent ∈ db.agents) :
    ∃ later ∈ (db.setStatus id change events).agents, later.toAgentKey = agent.toAgentKey :=
  ⟨changed id change agent, List.mem_map_of_mem mem, changed_key id change agent⟩

theorem TableChange.keys {db' : FleetTables} (changed : TableChange auth uid db db') (mem : agent ∈ db.agents) :
    ∃ later ∈ db'.agents, later.toAgentKey = agent.toAgentKey := by
  cases changed with
  | same => exact ⟨agent, mem, rfl⟩
  | status _ _ change events => exact mem_setStatus mem
  | enrolled => exact ⟨agent, List.mem_append_left _ mem, rfl⟩

theorem Touches.keysGrow {replica : Nat} (touches : Touches replica auth uid before after) : KeysGrow before after :=
  fun _ mem => touches.tables.keys mem

end

theorem Touches.of_tables {replica : Nat} (tables : TableChange auth uid before.db after.db)
    (registries : after.registries = before.registries) (edgeConfig : after.edgeConfig = before.edgeConfig) :
    Touches replica auth uid before after where
  tables := tables
  edgeConfig := edgeConfig
  elsewhere other _ := by rw [registries]
  entries other _ := by rw [registries]
  entry := Or.inl (by rw [registries])

theorem Consistent.of_tables {had : Uuid → String → Prop} (consistent : Consistent had before)
    (grows : KeysGrow before after) (registries : after.registries = before.registries)
    (edgeConfig : after.edgeConfig = before.edgeConfig) : Consistent had after where
  entries replica uid st found := by
    rw [registries] at found
    obtain ⟨isUID, bound⟩ := consistent.entries replica uid st found
    exact ⟨isUID, bound.grow grows⟩
  configs customerID text rendered := consistent.configs customerID text (by rw [← edgeConfig]; exact rendered)

/-! ## Programs of a message -/

section

variable {α : Type} {had : Uuid → String → Prop} {env : Env} {replica : Nat} {auth : ConnAuth} {uid : Bytes} {id : Uuid}

abbrev Does (had : Uuid → String → Prop) (replica : Nat) (auth : ConnAuth) (uid : Bytes) (post : α → World → Prop)
    (program : Prog World α) (world : World) : Prop :=
  Prog.Meets (Consistent had) KeysGrow (Touches replica auth uid) post program world

theorem steady_touches {known : World → Prop} (stable : ∀ before after, KeysGrow before after → known before → known after) :
    Steady (Consistent had) KeysGrow (Touches replica auth uid) known where
  stable := stable
  silent before after silent consistent isKnown := by
    have touches : Touches replica auth uid before after :=
      .of_tables (by rw [silent.db]; exact .same) silent.registries silent.edgeConfig
    exact ⟨touches, consistent.of_tables touches.keysGrow silent.registries silent.edgeConfig,
      stable before after touches.keysGrow isKnown⟩

theorem touches_registry {change : Registry → Registry} {world : World} (admits : Admits auth id)
    (bound : Bound world.db uid id auth.customerID) (consistent : Consistent had world)
    (others : ∀ other, other ≠ uid → (change (world.registries replica)).get other = (world.registries replica).get other)
    (own : ∀ st, (change (world.registries replica)).get uid = some st →
      st.instanceUID = uid ∧ Bound world.db uid st.agentID st.customerID) :
    Touches replica auth uid world (world.setRegistry replica (change (world.registries replica))) ∧
      Consistent had (world.setRegistry replica (change (world.registries replica))) := by
  have changed : (world.setRegistry replica (change (world.registries replica))).registries replica =
      change (world.registries replica) := Function.update_self _ _ _
  constructor
  · exact
      { tables := .same
        edgeConfig := rfl
        elsewhere := fun other different => Function.update_of_ne different _ _
        entries := fun other different => by rw [changed, others _ different]
        entry := Or.inr ⟨id, bound, admits⟩ }
  · refine ⟨fun somewhere key st found => ?_, consistent.configs⟩
    by_cases isReplica : somewhere = replica
    · subst isReplica
      rw [changed] at found
      by_cases isUID : key = uid
      · subst isUID
        exact own st found
      · rw [others _ isUID] at found
        exact consistent.entries somewhere key st found
    · have elsewhere : (world.setRegistry replica (change (world.registries replica))).registries somewhere =
          world.registries somewhere := Function.update_of_ne isReplica _ _
      rw [elsewhere] at found
      exact consistent.entries somewhere key st found

def touchRules (had : Uuid → String → Prop) (replica : Nat) (auth : ConnAuth) (uid : Bytes) (id : Uuid)
    (admits : Admits auth id) : Rules replica uid id where
  inv := Consistent had
  rely := KeysGrow
  guar := Touches replica auth uid
  known world := Bound world.db uid id auth.customerID
  acks _ := True
  had := had
  allows _ := True
  reports _ _ := trivial
  configs _ consistent := consistent.configs
  stable _ _ grows bound := bound.grow grows
  silent := (steady_touches fun _ _ grows bound => bound.grow grows).silent
  status world change events _ consistent bound := by
    have touches : Touches replica auth uid world
        { world with calls := world.calls + 1, db := world.db.setStatus id change events } :=
      .of_tables (.status bound admits change events) rfl rfl
    exact ⟨touches, consistent.of_tables touches.keysGrow rfl rfl, bound.grow touches.keysGrow⟩
  entry world change keeps consistent bound := by
    have changed := @touches_registry had replica auth uid id (fun reg => reg.update uid change) world admits
      bound consistent
      (fun other different => by rw [Registry.get_update, if_neg different])
      (fun st isFound => by
        rw [Registry.get_update, if_pos rfl, Option.map_eq_some_iff] at isFound
        obtain ⟨old, found, rfl⟩ := isFound
        obtain ⟨isKey, isBound⟩ := consistent.entries replica uid old found
        rw [(keeps old).instanceUID, (keeps old).agentID, (keeps old).customerID]
        exact ⟨isKey, isBound⟩)
    exact ⟨changed.1, changed.2, bound⟩

structure Stands (uid : Bytes) (id customerID : Uuid) (st : AgentConn) : Prop where
  instanceUID : st.instanceUID = uid
  agentID : st.agentID = id
  customerID : st.customerID = customerID

theorem serves_put {st : AgentConn} (admits : Admits auth id) (stands : Stands uid id auth.customerID st) :
    Serves (touchRules had replica auth uid id admits) (fun _ => True)
      (changeRegistry replica fun reg => reg.put st) := by
  apply serves_atomically
  intro now consistent bound
  have changed := @touches_registry had replica auth uid id (fun reg => reg.put st) now admits bound consistent
    (fun other different => by rw [Registry.get_put, if_neg (by rw [stands.instanceUID]; exact different)])
    (fun found isFound => by
      rw [Registry.get_put, if_pos stands.instanceUID.symm] at isFound
      cases isFound
      rw [stands.agentID, stands.customerID]
      exact ⟨stands.instanceUID, bound⟩)
  exact ⟨⟨changed.1, changed.2, bound⟩, trivial⟩

end

/-! ## The handler -/

variable {had : Uuid → String → Prop} {env : Env} {replica : Nat} {incoming : Incoming} {id : Uuid} {st : AgentConn}

theorem serves_markConnected (admits : Admits auth id) (isID : st.agentID = id) (prev : Option AgentConn) :
    Serves (touchRules had replica auth uid id admits) (fun _ => True) (markConnected env incoming prev st) := by
  unfold markConnected
  split
  · apply Serves.bind
    · rw [isID]
      apply serves_exec
      intro db value db' marked
      exact ⟨_, _, trivial, updateAgent_ok marked⟩
    · intro _ _
      exact serves_pure trivial
  · exact serves_pure trivial

theorem serves_register (admits : Admits incoming.auth id)
    (stands : Stands incoming.uid id incoming.auth.customerID st) (prev : Option AgentConn) :
    Serves (touchRules had replica incoming.auth incoming.uid id admits)
      (Stands incoming.uid id incoming.auth.customerID) (register env replica incoming prev st) := by
  have isSeen : Stands incoming.uid id incoming.auth.customerID (seen incoming st) :=
    ⟨stands.instanceUID, stands.agentID, stands.customerID⟩
  apply (serves_refreshDescription isSeen.agentID prev).bind
  intro _ _
  apply (serves_put admits isSeen).bind
  intro _ _
  apply (serves_markConnected admits isSeen.agentID prev).bind
  intro _ _ world bound
  apply (serves_handleReports isSeen.instanceUID isSeen.agentID (fun _ _ => trivial) world bound).imp
  intro reported now ends
  exact ⟨⟨ends.1.instanceUID.trans isSeen.instanceUID, ends.1.agentID.trans isSeen.agentID,
    ends.1.customerID.trans isSeen.customerID⟩, ends.2⟩

/-! ### Before the agent is known -/

def Resolved (incoming : Incoming) (resolution : Resolution) (world : World) : Prop :=
  match resolution with
  | .resolved st => Stands incoming.msg.instanceUID st.agentID incoming.auth.customerID st ∧
      Bound world.db incoming.msg.instanceUID st.agentID incoming.auth.customerID
  | _ => True

theorem resolved_resolveRow {world : World} (mem : agent ∈ world.db.agents)
    (isUID : agent.instanceUID = incoming.uid) : Resolved incoming (resolveRow incoming agent) world := by
  unfold resolveRow
  split
  · trivial
  · rename_i isCustomer
    exact ⟨⟨rfl, rfl, rfl⟩, agent, mem, isUID, rfl, not_not.mp isCustomer⟩

def Staged (incoming : Incoming) (stage : Stage) (world : World) : Prop :=
  match stage with
  | .answered resp => resp.remoteConfig = none
  | .admitted st _ => ∃ id, Admits incoming.auth id ∧
      Stands incoming.msg.instanceUID id incoming.auth.customerID st ∧
      Bound world.db incoming.msg.instanceUID id incoming.auth.customerID

theorem does_register {world : World} (isMatch : tokenMatches incoming st)
    (stands : Stands incoming.uid st.agentID incoming.auth.customerID st)
    (bound : Bound world.db incoming.uid st.agentID incoming.auth.customerID) (prev : Option AgentConn) :
    Does had replica incoming.auth incoming.uid (fun st now => Staged incoming (.admitted st true) now)
      (register env replica incoming prev st) world := by
  have admits : Admits incoming.auth st.agentID := by
    intro viaAgentToken own isOwn
    simpa [tokenMatches, viaAgentToken, Option.mem_def.mp isOwn] using isMatch
  exact (serves_register admits stands prev world bound).imp fun _ _ registered =>
    ⟨st.agentID, admits, registered.1, registered.2⟩

def touchReception (had : Uuid → String → Prop) (env : Env) (replica : Nat) (incoming : Incoming) :
    Reception env replica incoming where
  inv := Consistent had
  rely := KeysGrow
  guar := Touches replica incoming.auth incoming.uid
  known _ := True
  absent := True
  resolved := Resolved incoming
  answered _ := True
  served st world := Staged incoming (.admitted st true) world
  steady := steady_touches fun _ _ _ known => known
  steady_answered := steady_touches fun _ _ _ known => known
  answers _ known := known
  empty _ _ _ _ := trivial
  entry world st consistent _ found isCustomer isMatch := by
    obtain ⟨isUID, bound⟩ := consistent.entries replica incoming.uid st found
    rw [isCustomer] at bound
    exact does_register isMatch ⟨isUID, rfl, isCustomer⟩ bound (some st)
  unresolved _ _ _ := trivial
  row _ _ _ _ found :=
    resolved_resolveRow (List.mem_of_find?_eq_some found) (by simpa using List.find?_some found)
  enrolled world description freshID freshUID token _ consistent _ := by
    have touches : Touches replica incoming.auth incoming.uid world { world with
        calls := world.calls + 1
        db := world.db.enrolled (newAgent incoming description) incoming.now freshID freshUID token } :=
      .of_tables (.enrolled incoming.now rfl rfl rfl freshID freshUID token) rfl rfl
    refine ⟨touches, consistent.of_tables touches.keysGrow rfl rfl, fun st isUID isID isCustomer _ => ?_⟩
    exact ⟨⟨isUID, rfl, isCustomer⟩, _, List.mem_append_right _ (List.mem_singleton.mpr rfl), rfl, isID.symm, rfl⟩
  resolves _ _ _ := trivial
  admits _ _ resolved isMatch := does_register isMatch resolved.1 resolved.2 none

theorem does_receive :
    Does had replica incoming.auth incoming.uid (Staged incoming) (receive env replica incoming) world := by
  apply (@receives_receive world env replica incoming (touchReception had env replica incoming) trivial).imp
  intro stage now staged
  cases stage with
  | answered resp => exact staged.1
  | admitted st newConn => exact staged

/-- Every action of a message keeps to `Touches`, whatever others do in between, and
    its response offers only configs that the connection's customer had. -/
theorem handleMessage_meets :
    Does had replica incoming.auth incoming.uid
      (fun resp _ => OffersOwn had incoming.auth.customerID resp) (handleMessage env replica incoming) world := by
  apply Prog.Meets.bind (does_receive world)
  intro stage now staged
  cases stage with
  | answered resp =>
    apply Prog.meets_pure
    intro config offered
    have unoffered : resp.remoteConfig = none := staged
    rw [unoffered] at offered
    cases offered
  | admitted st newConn =>
    obtain ⟨id, admits, stands, bound⟩ := staged
    have offers := @serves_makeOffers env replica incoming id
      (touchRules had replica incoming.auth incoming.uid id admits) st stands.instanceUID stands.agentID
      (fun _ => trivial) newConn now bound
    rw [stands.customerID] at offers
    exact offers.imp fun _ _ holds => holds.1

end OtelFleet.Verified.MessageActions
