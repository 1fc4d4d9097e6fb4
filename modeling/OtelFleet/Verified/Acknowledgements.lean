import OtelFleet.OpAMP.Calls
import OtelFleet.Verified.MessageActions

/-! # Acknowledged hashes

The hash that an agent acknowledged last is kept in its row and, while the agent is in
the registry, in its entry.  Each accepted report brings both to what the report says;
everything else leaves them.
-/

namespace OtelFleet.Verified.Acknowledgements

open OpAMP Semantics Store Store.FleetTables
open Verified.MessageActions Verified.MessageRules

/-- What is acknowledged after a report.  One that names no hash counts only when it
    says that there is no remote config. -/
def acknowledgedBy (report : RemoteConfigReport) (acked : Option Bytes) : Option Bytes :=
  if report.lastRemoteConfigHash ≠ [] then some report.lastRemoteConfigHash
  else if mapRemoteConfigStatus report.status = .unset then none
  else acked

/-! ## Where it is kept -/

@[ext] structure Acks where
  row : Option (Uuid × Option Bytes)
  entry : Option (Bytes × Uuid × Bytes)

def entryAck (st : AgentConn) : Bytes × Uuid × Bytes := (st.instanceUID, st.agentID, st.lastAckedHash)

def acksOf (world : World) (uid : Bytes) : Acks where
  row := (world.db.agents.find? fun agent => agent.instanceUID = uid).map fun agent => (agent.id, agent.ackedConfigHash)
  entry := ((world.registries 0).get uid).map entryAck

def registered (uid : Bytes) (id : Uuid) (acked : Option Bytes) : Acks := ⟨some (id, acked), some (uid, id, acked.getD [])⟩

inductive Agrees (uid : Bytes) (acked : Option Bytes) : Acks → Prop where
  | unknown (isNone : acked = none) : Agrees uid acked ⟨none, none⟩
  | row (id : Uuid) : Agrees uid acked ⟨some (id, acked), none⟩
  | registered (id : Uuid) : Agrees uid acked (registered uid id acked)

variable {entry : Option (Bytes × Uuid × Bytes)}

theorem Agrees.dropped {uid : Bytes} {acked : Option Bytes} {kept : Acks} (agrees : Agrees uid acked kept)
    (isEntry : entry = kept.entry ∨ entry = none) : Agrees uid acked ⟨kept.row, entry⟩ := by
  rcases isEntry with rfl | rfl
  · exact agrees
  · cases agrees with
    | unknown isNone => exact .unknown isNone
    | row id | registered id => exact .row id

variable {change : AgentConn → AgentConn}

section

variable {world : World} {uid : Bytes}

theorem acksOf_congr {after : World} (agents : after.db.agents = world.db.agents)
    (registries : after.registries = world.registries) : acksOf after = acksOf world := by
  funext uid
  simp only [acksOf, agents, registries]

theorem acksOf_setStatus {id : Uuid} {change : AgentStatus → AgentStatus}
    (keeps : ∀ row, (change row).ackedConfigHash = row.ackedConfigHash) (events : List AgentEvent) (calls : Nat) :
    acksOf { world with calls := calls, db := world.db.setStatus id change events } = acksOf world := by
  funext uid
  simp only [acksOf, find_setStatus, Option.map_map]
  congr 2
  funext agent
  simp only [Function.comp_def, changed]
  split
  · simp only [keeps]
  · rfl

theorem acksOf_setAcked {id : Uuid} {old : Option Bytes} (row : (acksOf world uid).row = some (id, old))
    (acked : Option Bytes) (events : List AgentEvent) (calls : Nat) :
    acksOf { world with
        calls := calls
        db := world.db.setStatus id (fun agent => { agent with ackedConfigHash := acked }) events } =
      Function.update (acksOf world) uid { acksOf world uid with row := some (id, acked) } := by
  obtain ⟨agent, found, same⟩ := Option.map_eq_some_iff.mp row
  have isID : agent.id = id := congrArg Prod.fst same
  refine Function.eq_update_iff.mpr ⟨?_, fun other isUID => ?_⟩
  · simp only [acksOf, find_setStatus, found, Option.map_some, changed, isID, if_true]
  · -- The row of another UID has another ID.
    cases search : world.db.agents.find? fun row => row.instanceUID = other with
    | none => simp only [acksOf, find_setStatus, search, Option.map_none]
    | some agent' =>
      have notID : agent'.id ≠ id := fun sameID => isUID (uid_of_id found search (sameID.trans isID.symm))
      simp only [acksOf, find_setStatus, search, Option.map_some, changed, if_neg notID]

theorem acksOf_setRegistry {reg : Registry} :
    acksOf (world.setRegistry 0 reg) = fun uid => { acksOf world uid with entry := (reg.get uid).map entryAck } := by
  funext uid
  simp only [acksOf, World.setRegistry, Function.update_self]

theorem acksOf_update :
    acksOf (world.setRegistry 0 ((world.registries 0).update uid change)) =
      Function.update (acksOf world) uid { acksOf world uid with
        entry := ((world.registries 0).get uid).map fun st => entryAck (change st) } := by
  rw [acksOf_setRegistry]
  refine Function.eq_update_iff.mpr ⟨?_, fun other isUID => ?_⟩
  · rw [Registry.get_update, if_pos rfl, Option.map_map]
    rfl
  · rw [Registry.get_update, if_neg isUID]
    rfl

theorem acksOf_put {st : AgentConn} (isUID : st.instanceUID = uid) :
    acksOf (world.setRegistry 0 ((world.registries 0).put st)) =
      Function.update (acksOf world) uid { acksOf world uid with entry := some (entryAck st) } := by
  subst isUID
  rw [acksOf_setRegistry]
  refine Function.eq_update_iff.mpr ⟨?_, fun other distinct => ?_⟩
  · rw [Registry.get_put, if_pos rfl]
    rfl
  · rw [Registry.get_put, if_neg distinct]
    rfl

theorem acksOf_enrolled {agent : NewAgent} {now : Int} {freshID freshUID token} (calls : Nat) :
    acksOf { world with calls := calls, db := world.db.enrolled agent now freshID freshUID token } =
      Function.update (acksOf world) agent.instanceUID
        { acksOf world agent.instanceUID with row := some (agent.id, none) } := by
  refine Function.eq_update_iff.mpr ⟨?_, fun other isUID => ?_⟩
  · simp only [acksOf, find_enrolled]
    rfl
  · simp only [acksOf, find_enrolled, if_neg isUID]

end

/-! ## What leaves it -/

section

variable {α : Type} {env : Env} {uid : Bytes} {id : Uuid} {acks : Bytes → Acks}

def stillRules (uid : Bytes) (id : Uuid) (acks : Bytes → Acks) : Rules 0 uid id where
  inv _ := True
  rely := Eq
  guar _ _ := True
  known world := acksOf world = acks
  acks _ := False
  had _ _ := True
  allows change := ∀ row, (change row).ackedConfigHash = row.ackedConfigHash
  reports _ reporting row := (reporting.acked row).resolve_right fun never => never
  configs _ _ _ _ _ := trivial
  stable _ _ same known := same ▸ known
  silent _ _ silent _ known :=
    ⟨trivial, trivial, (acksOf_congr (by rw [silent.db]) silent.registries).trans known⟩
  status _ _ events allowed _ known := ⟨trivial, trivial, (acksOf_setStatus allowed events _).trans known⟩
  entry world change keeps _ known := by
    have same : ∀ st, entryAck (change st) = entryAck st := by
      intro st
      simp only [entryAck, (keeps st).instanceUID, (keeps st).agentID,
        (keeps st).acked.resolve_right fun never => never]
    refine ⟨trivial, trivial, ?_⟩
    rw [acksOf_update, ← known]
    simp only [same]
    exact Function.update_eq_self uid (acksOf world)

theorem triple_of_serves {post : α → Prop} {program : Prog World α} (serves : Serves (stillRules uid id acks) post program) :
    Prog.Triple (fun world => acksOf world = acks) program (fun value world => post value ∧ acksOf world = acks) :=
  ⟨fun world known => ((serves world known).run (fun _ => rfl) trivial).1⟩

def stillPushes (acks : Bytes → Acks) : PushRules where
  inv world := acksOf world = acks
  rely := Eq
  guar _ _ := True
  aside _ _ aside known := ⟨trivial, (acksOf_congr (by rw [aside.db]) aside.registries).trans known⟩
  assigned world id hash known :=
    ⟨trivial, (@acksOf_setStatus world id (fun agent => { agent with assignedConfigHash := some hash }) (fun _ => rfl) []
      (world.calls + 1)).trans known⟩

end

/-! ## A report -/

variable {own : Acks} {row : Option (Uuid × Option Bytes)}

section

variable {env : Env} {uid : Bytes} {id : Uuid} {acks : Bytes → Acks} {acked : Option Bytes} {st : AgentConn}

/-- The agent `id` is registered with `acked`; the others are as `acks` says. -/
abbrev Registered (uid : Bytes) (id : Uuid) (acks : Bytes → Acks) (acked : Option Bytes) (world : World) : Prop :=
  acksOf world = Function.update acks uid (registered uid id acked)

structure Follows (uid : Bytes) (id : Uuid) (acked : Option Bytes) (st : AgentConn) : Prop where
  instanceUID : st.instanceUID = uid
  agentID : st.agentID = id
  lastAckedHash : st.lastAckedHash = acked.getD []

abbrev Holding (uid : Bytes) (acks : Bytes → Acks) (own : Acks) (world : World) : Prop :=
  acksOf world = Function.update acks uid own

theorem triple_updateEntry {entry : Bytes × Uuid × Bytes} {hash : Bytes}
    (changes : ∀ found, entryAck found = entry → entryAck (change found) = (entry.1, entry.2.1, hash)) :
    Prog.Triple (Holding uid acks ⟨row, some entry⟩) (updateEntry 0 uid change)
      (fun _ => Holding uid acks ⟨row, some (entry.1, entry.2.1, hash)⟩) := by
  apply Prog.triple_atomically
  intro world known
  show acksOf (world.setRegistry 0 ((world.registries 0).update uid change)) = _
  have own : acksOf world uid = ⟨row, some entry⟩ := by rw [known, Function.update_self]
  obtain ⟨found, isFound, isEntry⟩ := Option.map_eq_some_iff.mp (congrArg Acks.entry own)
  rw [acksOf_update, isFound, Option.map_some, changes found isEntry, known, Function.update_idem,
    Function.update_self]

theorem triple_setAgentAckedConfig (succeeds : ∀ call, env.writeFaults call = none) (hash : Option Bytes) :
    Prog.Triple (Holding uid acks ⟨some (id, acked), entry⟩) (exec env fun db => db.setAgentAckedConfig id hash)
      (fun _ => Holding uid acks ⟨some (id, hash), entry⟩) := by
  apply Prog.triple_atomically
  intro world known
  have own : acksOf world uid = ⟨some (id, acked), entry⟩ := by rw [known, Function.update_self]
  have isRow := congrArg Acks.row own
  obtain ⟨agent, found, same⟩ := Option.map_eq_some_iff.mp isRow
  have exists' : ∃ agent ∈ world.db.agents, agent.id = id :=
    ⟨agent, List.mem_of_find?_eq_some found, congrArg Prod.fst same⟩
  rw [written_ok env (succeeds world.calls) (if_pos exists')]
  show acksOf { world with
    calls := world.calls + 1
    db := world.db.setStatus id (fun agent => { agent with ackedConfigHash := hash }) [] } = _
  rw [acksOf_setAcked isRow, own, known, Function.update_idem]

theorem triple_handleAcknowledgement (succeeds : ∀ call, env.writeFaults call = none)
    (follows : Follows uid id acked st) (report : RemoteConfigReport) :
    Prog.Triple (Registered uid id acks acked) (handleAcknowledgement env 0 st report)
      (fun st' world => Registered uid id acks (acknowledgedBy report acked) world ∧
        Follows uid id (acknowledgedBy report acked) st') := by
  obtain ⟨rfl, rfl, isLast⟩ := follows
  unfold handleAcknowledgement
  dsimp only
  -- A change of the entry's hash, before the row has it.
  have remembers : ∀ hash, Prog.Triple (Registered st.instanceUID st.agentID acks acked)
      (updateEntry 0 st.instanceUID fun entry => { entry with lastAckedHash := hash })
      (fun _ => Holding st.instanceUID acks ⟨some (st.agentID, acked), some (st.instanceUID, st.agentID, hash)⟩) := by
    intro hash
    apply triple_updateEntry
    intro found same
    simp only [entryAck, Prod.mk.injEq] at same ⊢
    exact ⟨same.1, same.2.1, trivial⟩
  split
  · rename_i named
    have isAck : acknowledgedBy report acked = some report.lastRemoteConfigHash := if_pos named
    rw [isAck]
    apply Prog.Triple.bind (remembers report.lastRemoteConfigHash)
    intro _
    split
    · apply (triple_setAgentAckedConfig succeeds (some report.lastRemoteConfigHash)).bind
      intro _
      exact Prog.triple_pure fun _ known => ⟨known, rfl, rfl, rfl⟩
    · -- The row has the hash already.
      rename_i isKnown
      have same : acked = some report.lastRemoteConfigHash := by
        rw [isLast, not_not] at isKnown
        cases acked with
        | none => exact absurd isKnown named
        | some hash => rw [isKnown]; rfl
      rw [same]
      exact Prog.triple_pure fun _ known => ⟨known, rfl, rfl, rfl⟩
  · rename_i unnamed
    split
    · rename_i isUnset
      have isAck : acknowledgedBy report acked = none := by
        simp only [acknowledgedBy, if_neg unnamed, if_pos isUnset]
      rw [isAck]
      apply Prog.Triple.bind (remembers [])
      intro _
      apply (triple_setAgentAckedConfig succeeds none).bind
      intro _
      exact Prog.triple_pure fun _ known => ⟨known, rfl, rfl, rfl⟩
    · rename_i isSet
      have isAck : acknowledgedBy report acked = acked := by
        simp only [acknowledgedBy, if_neg unnamed, if_neg isSet]
      rw [isAck]
      exact Prog.triple_pure fun _ known => ⟨known, rfl, rfl, isLast⟩

def reported (incoming : Incoming) (acked : Option Bytes) : Option Bytes :=
  match incoming.msg.remoteConfigStatus with
  | some report => acknowledgedBy report acked
  | none => acked

theorem Follows.kept {st' : AgentConn} (follows : Follows uid id acked st) (kept : Kept (fun _ => False) st st') :
    Follows uid id acked st' where
  instanceUID := kept.instanceUID.trans follows.instanceUID
  agentID := kept.agentID.trans follows.agentID
  lastAckedHash := (kept.acked.resolve_right fun never => never).trans follows.lastAckedHash

theorem triple_kept {program : Prog World AgentConn} (follows : Follows uid id acked st)
    (serves : Serves (stillRules uid id (Function.update acks uid own)) (Kept (fun _ => False) st) program) :
    Prog.Triple (Holding uid acks own) program (fun st' world => Holding uid acks own world ∧ Follows uid id acked st') :=
  (triple_of_serves serves).imp fun _ _ ends => ⟨ends.2, follows.kept ends.1⟩

section

variable (succeeds : ∀ call, env.writeFaults call = none) (incoming : Incoming) (follows : Follows uid id acked st)
include succeeds incoming follows

theorem triple_reportStatus :
    Prog.Triple (Registered uid id acks acked) (reportStatus env 0 incoming st)
      (fun st' world => Registered uid id acks (reported incoming acked) world ∧
        Follows uid id (reported incoming acked) st') := by
  unfold reportStatus reported
  cases incoming.msg.remoteConfigStatus with
  | none => exact Prog.triple_pure fun _ known => ⟨known, follows⟩
  | some report =>
    apply (triple_handleAcknowledgement succeeds follows report).bind
    intro acknowledged
    constructor
    intro world ⟨known, followsThen⟩
    exact (triple_kept followsThen
      (serves_recordTransition follows.instanceUID follows.agentID report acknowledged)).ends world known

theorem triple_handleReports :
    Prog.Triple (Registered uid id acks acked) (handleReports env 0 incoming st)
      (fun st' world => Registered uid id acks (reported incoming acked) world ∧
        Follows uid id (reported incoming acked) st') := by
  apply (triple_reportStatus succeeds incoming follows).bind
  intro st'
  constructor
  intro world ⟨known, followsThen⟩
  have configs : Serves (stillRules uid id (Function.update acks uid (registered uid id (reported incoming acked))))
      (fun _ => True) (reportConfig env incoming st') := by
    unfold reportConfig
    split
    · exact serves_handleEffectiveConfig followsThen.agentID _
    · exact serves_pure trivial
  have health : Serves (stillRules uid id (Function.update acks uid (registered uid id (reported incoming acked))))
      (Kept (fun _ => False) st') (reportHealth env 0 incoming st') := by
    unfold reportHealth
    split
    · exact serves_handleHealth followsThen.instanceUID followsThen.agentID _
    · exact serves_pure (Kept.refl st')
  have both : Prog.Triple (Registered uid id acks (reported incoming acked))
      (reportConfig env incoming st' >>= fun _ => reportHealth env 0 incoming st')
      (fun last world => Registered uid id acks (reported incoming acked) world ∧
        Follows uid id (reported incoming acked) last) := by
    apply Prog.Triple.bind (triple_of_serves configs)
    intro _
    constructor
    intro later ends
    exact (triple_kept followsThen health).ends later ends.2
  exact both.ends world known

end

end

/-! ## A message -/

variable {env : Env} {incoming : Incoming} {id : Uuid} {acks : Bytes → Acks} {acked : Option Bytes} {st : AgentConn}

abbrev Own (incoming : Incoming) (acks : Bytes → Acks) (own : Acks) (world : World) : Prop :=
  Holding incoming.msg.instanceUID acks own world

theorem triple_put (isUID : st.instanceUID = incoming.uid) :
    Prog.Triple (Own incoming acks ⟨row, entry⟩) (changeRegistry 0 fun reg => reg.put st)
      (fun _ => Own incoming acks ⟨row, some (entryAck st)⟩) := by
  apply Prog.triple_atomically
  intro world known
  show acksOf (world.setRegistry 0 ((world.registries 0).put st)) = _
  rw [acksOf_put isUID, known, Function.update_idem, Function.update_self]

theorem triple_register (succeeds : ∀ call, env.writeFaults call = none) (prev : Option AgentConn)
    (follows : Follows incoming.uid id acked st) :
    Prog.Triple (Own incoming acks ⟨some (id, acked), entry⟩) (register env 0 incoming prev st)
      (fun st' world => Registered incoming.uid id acks (reported incoming acked) world ∧
        Follows incoming.uid id (reported incoming acked) st') := by
  have isSeen : Follows incoming.uid id acked (seen incoming st) :=
    ⟨follows.instanceUID, follows.agentID, follows.lastAckedHash⟩
  have isEntry : entryAck (seen incoming st) = (incoming.uid, id, acked.getD []) := by
    simp only [entryAck, isSeen.instanceUID, isSeen.agentID, isSeen.lastAckedHash]
  apply Prog.Triple.bind
  · have refreshes : Serves (stillRules incoming.uid id
        (Function.update acks incoming.uid ⟨some (id, acked), entry⟩)) (fun _ => True)
        (refreshDescription env incoming prev (seen incoming st)) := serves_refreshDescription isSeen.agentID prev
    exact (triple_of_serves refreshes).imp fun _ _ ends => ends.2
  · intro _
    apply (triple_put isSeen.instanceUID).bind
    intro _
    rw [isEntry]
    apply Prog.Triple.bind
    · have marks : Serves (stillRules incoming.uid id
          (Function.update acks incoming.uid (registered incoming.uid id acked)))
          (fun _ => True) (markConnected env incoming prev (seen incoming st)) := by
        unfold markConnected
        split
        · apply Serves.bind
          · rw [isSeen.agentID]
            apply serves_exec
            intro db value db' marked
            refine ⟨_, _, ?_, updateAgent_ok marked⟩
            exact fun _ => rfl
          · intro _ _
            exact serves_pure trivial
        · exact serves_pure trivial
      exact (triple_of_serves marks).imp fun _ _ ends => ends.2
    · intro _
      exact triple_handleReports succeeds incoming isSeen

def Received (incoming : Incoming) (acks : Bytes → Acks) (acked : Option Bytes) (stage : Stage) (world : World) : Prop :=
  match stage with
  | .answered _ => ∃ own, Own incoming acks own world ∧ Agrees incoming.msg.instanceUID acked own
  | .admitted st _ => ∃ id, Registered incoming.msg.instanceUID id acks (reported incoming acked) world ∧
      Follows incoming.msg.instanceUID id (reported incoming acked) st

def Resolves (incoming : Incoming) (acks : Bytes → Acks) (acked : Option Bytes) (resolution : Resolution) (world : World) :
    Prop :=
  match resolution with
  | .resolved st => ∃ id, Own incoming acks ⟨some (id, acked), none⟩ world ∧ Follows incoming.msg.instanceUID id acked st
  | _ => ∃ own, Own incoming acks own world ∧ Agrees incoming.msg.instanceUID acked own

theorem acksOf_of_own {world : World} (known : Own incoming acks own world) : acksOf world incoming.uid = own := by
  rw [known, Function.update_self]

def ackReception (succeeds : ∀ call, env.writeFaults call = none) (agrees : Agrees incoming.uid acked own) :
    Reception env 0 incoming where
  inv _ := True
  rely := Eq
  guar _ _ := True
  known := Own incoming acks own
  absent := own.entry = none
  resolved := Resolves incoming acks acked
  answered world := ∃ own, Own incoming acks own world ∧ Agrees incoming.uid acked own
  served st world := Received incoming acks acked (.admitted st true) world
  steady := ⟨(stillRules incoming.uid Uuid.nil _).stable, (stillRules incoming.uid Uuid.nil _).silent⟩
  steady_answered :=
    { stable := fun _ _ same known => same ▸ known
      silent := fun _ _ silent _ ⟨own, known, agrees⟩ =>
        ⟨trivial, trivial, own, ((stillRules incoming.uid Uuid.nil _).silent _ _ silent trivial known).2.2, agrees⟩ }
  answers _ known := ⟨own, known, agrees⟩
  empty world _ known isNone := by
    rw [← acksOf_of_own known]
    simp only [acksOf, isNone, Option.map_none]
  entry world st _ known found _ _ := by
    have isEntry : own.entry = some (entryAck st) := by
      rw [← acksOf_of_own known]
      simp only [acksOf, found, Option.map_some]
    cases agrees with
    | unknown | row => cases isEntry
    | registered id =>
      -- The entry is what the row says.
      have follows : Follows incoming.uid id acked st := by
        simp only [registered, Option.some.injEq, entryAck, Prod.mk.injEq] at isEntry
        exact ⟨isEntry.1.symm, isEntry.2.1.symm, isEntry.2.2.symm⟩
      exact Prog.meets_of_run ⟨id, (triple_register succeeds (some st) follows).ends world known⟩
  unresolved _ _ known := ⟨own, known, agrees⟩
  row world agent absent known found := by
    obtain ⟨row, entry⟩ := own
    have hasRow : row = some (agent.id, agent.ackedConfigHash) := by
      rw [show row = (acksOf world incoming.uid).row by rw [acksOf_of_own known]]
      simp only [acksOf, found, Option.map_some]
    subst absent hasRow
    unfold resolveRow
    split
    · exact ⟨_, known, agrees⟩
    · cases agrees
      exact ⟨agent.id, known, rfl, rfl, rfl⟩
  enrolled world description freshID freshUID token absent _ known := by
    refine ⟨trivial, trivial, fun st isUID isID _ unacknowledged => ?_⟩
    -- There was no row, so nothing was acknowledged.
    have isNew : own.row = none := by
      have fresh : incoming.uid ∉ world.db.agents.map fun agent => agent.instanceUID := freshUID
      rw [← acksOf_of_own known]
      simp only [acksOf, find_fresh fresh, Option.map_none]
    cases agrees with
    | row | registered => cases isNew
    | unknown isNone =>
      subst isNone
      refine ⟨_, ?_, isUID, rfl, unacknowledged⟩
      show acksOf { world with calls := _, db := _ } = _
      rw [acksOf_enrolled]
      show Function.update (acksOf world) incoming.uid { acksOf world incoming.uid with row := _ } = _
      rw [acksOf_of_own known, known, Function.update_idem, isID]
  resolves world resolution resolved := by
    cases resolution with
    | reject | askFullState => exact resolved
    | resolved st =>
      obtain ⟨id, known, _⟩ := resolved
      exact ⟨_, known, .row id⟩
  admits world st resolved _ := by
    obtain ⟨id, known, follows⟩ := resolved
    exact Prog.meets_of_run ⟨id, (triple_register succeeds none follows).ends world known⟩

theorem triple_receive (succeeds : ∀ call, env.writeFaults call = none)
    (agrees : Agrees incoming.uid acked own) :
    Prog.Triple (Own incoming acks own) (receive env 0 incoming) (Received incoming acks acked) := by
  constructor
  intro world known
  have received := ((@receives_receive world env 0 incoming (ackReception succeeds agrees) known).run (fun _ => rfl) trivial).1
  revert received
  cases ((receive env 0 incoming).run world).1 with
  | answered resp => exact fun received => received.2
  | admitted st newConn => exact fun received => received

end OtelFleet.Verified.Acknowledgements
