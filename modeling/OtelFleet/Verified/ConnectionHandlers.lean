import OtelFleet.Verified.AgentPresence

/-! # Handlers settle the agent they are for

A message brings its agent to the replica on the connection of the message, a close
takes it away again.  Either handler ends with the agent's row, entries and bindings
in agreement, if it began so and no other handler was at work for the agent.
-/

namespace OtelFleet.Verified.ConnectionHandlers

open OpAMP Semantics Store Store.FleetTables
open Verified.AgentPresence Verified.MessageActions Verified.MessageRules

/-! ## The flag -/

section

variable {env : Env} {uid : Bytes} {replica : Nat} {conn : Conn} {held : Presence} {id : Uuid} {flag : Bool}
  {world : World}

theorem row_mem (row : (presence uid world).row = some (id, flag)) : ∃ agent ∈ world.db.agents, agent.id = id := by
  obtain ⟨agent, found, same⟩ := Option.map_eq_some_iff.mp row
  exact ⟨agent, List.mem_of_find?_eq_some found, congrArg Prod.fst same⟩

theorem attends_setAgentConnected (succeeds : ∀ call, env.writeFaults call = none) (row : held.row = some (id, flag))
    (holds : Holds uid replica conn held world) (connected : Bool) (at' : Int) :
    Attends (some uid) replica conn
      (fun _ now => Holds uid replica conn (held.flagged id fun _ => connected) now)
      (exec env fun db => db.setAgentConnected id connected at') world := by
  apply attends_atomically holds
  intro now holdsNow
  rw [← holdsNow.same] at row ⊢
  rw [written_ok env (succeeds now.calls) (if_pos (row_mem row))]
  have flagged := fun key => @presence_setStatus now key id
    (fun agent => { agent with connected, lastSeenAt := latest agent.lastSeenAt at' }) (fun _ => connected)
    (fun _ => rfl) [⟨id, if connected then .connected else .disconnected, none⟩] (now.calls + 1)
  have others : ∀ other, other ≠ uid → presence other _ = presence other now :=
    fun other different => (flagged other).trans (flagged_other row different)
  refine ⟨⟨fun other isOther => others other fun same => isOther (congrArg some same.symm),
    fun key _ somewhere bound isBound => ?_⟩, flagged uid, fun other bound => ?_⟩
  · rw [flagged] at isBound
    exact Or.inl isBound
  · rw [flagged] at bound
    exact holdsNow.own other bound

end

/-! ## A message -/

section

variable {env : Env} {replica : Nat} {incoming : Incoming} {conn : Conn} {held : Presence} {st : AgentConn}
  {world : World} {uid : Bytes}

theorem attends_put (settled : Settled uid held) (isUID : st.instanceUID = uid)
    (isConn : st.conn = some conn) (holds : Holds uid replica conn held world) :
    Attends (some uid) replica conn
      (fun _ now => Holds uid replica conn (held.entered replica conn (entryKey st)) now)
      (changeRegistry replica fun reg => reg.put st) world := by
  apply attends_atomically holds
  intro now holdsNow
  have settledNow : Settled uid (presence uid now) := by rwa [holdsNow.same]
  have own := @presence_put conn now uid st settledNow isUID isConn replica
  have others : ∀ other, other ≠ uid →
      presence other (now.setRegistry replica ((now.registries replica).put st)) = presence other now := by
    intro other different
    exact presence_put_other settledNow isUID isConn different fun bound => different (holdsNow.own other bound)
  refine ⟨⟨fun other isOther => others other fun same => isOther (congrArg some same.symm),
    fun key isKey somewhere other bound => ?_⟩, own.trans (by rw [holdsNow.same]), fun other bound => ?_⟩
  · cases isKey
    rw [own] at bound
    by_cases here : somewhere = replica
    · simp only [Presence.entered, if_pos here] at bound
      exact Or.inr ⟨here, bound⟩
    · simp only [Presence.entered, if_neg here] at bound
      exact Or.inl bound
  · by_contra different
    rw [others other different] at bound
    exact different (holdsNow.own other bound)

def online (held : Presence) (replica : Nat) (conn : Conn) (key : EntryKey) : Presence where
  row := some (key.agentID, true)
  entry := (held.entered replica conn key).entry
  bound := (held.entered replica conn key).bound

theorem settled_online {key : EntryKey} {flag : Bool} (settled : Settled uid held)
    (isUID : key.instanceUID = uid) (isConn : key.conn = some conn) (row : held.row = some (key.agentID, flag)) :
    Settled uid (online held replica conn key) where
  entries somewhere found isFound := by
    by_cases here : somewhere = replica
    · subst here
      simp only [online, Presence.entered, Function.update_self, Option.some.injEq] at isFound
      subst isFound
      exact ⟨isUID, ⟨conn, isConn, by simp [online, Presence.entered]⟩, true, rfl⟩
    · simp only [online, Presence.entered, Function.update_of_ne here] at isFound
      obtain ⟨isOwn, ⟨other, isOther, bound⟩, known, isRow⟩ := settled.entries somewhere found isFound
      have sameID : found.agentID = key.agentID :=
        congrArg Prod.fst (Option.some.inj (isRow.symm.trans row))
      exact ⟨isOwn, ⟨other, isOther, by simpa [online, Presence.entered, here] using bound⟩, true, by rw [sameID]; rfl⟩
  bindings somewhere other bound := by
    by_cases here : somewhere = replica
    · simp only [online, Presence.entered, if_pos here] at bound
      subst here bound
      exact ⟨key, Function.update_self _ _ _, isConn⟩
    · simp only [online, Presence.entered, if_neg here] at bound
      obtain ⟨found, isFound, isOther⟩ := settled.bindings somewhere other bound
      exact ⟨found, (Function.update_of_ne here _ _).trans isFound, isOther⟩
  connected id known isRow := by
    cases isRow
    refine ⟨fun _ => ⟨replica, ?_⟩, fun _ => rfl⟩
    simp only [online, Presence.entered, Function.update_self, Option.isSome_some]
  named id known isRow := by
    cases isRow
    exact settled.named key.agentID flag row

structure OfRow (uid : Bytes) (held : Presence) (st : AgentConn) : Prop where
  instanceUID : st.instanceUID = uid
  row : ∃ flag, held.row = some (st.agentID, flag)

def Served (uid : Bytes) (replica : Nat) (conn : Conn) (st : AgentConn) (now : World) : Prop :=
  ∃ held, Settled uid held ∧ Holds uid replica conn held now ∧ OfRow uid held st

variable {prev : Option AgentConn}

theorem attends_markConnected {key : EntryKey} (succeeds : ∀ call, env.writeFaults call = none)
    (settled : Settled uid held) (isPrev : held.entry replica = prev.map entryKey) (isID : st.agentID = key.agentID)
    {flag : Bool} (row : held.row = some (key.agentID, flag))
    (holds : Holds uid replica conn (held.entered replica conn key) world) : Attends (some uid) replica conn
      (fun _ now => Holds uid replica conn (online held replica conn key) now)
      (markConnected env incoming prev st) world := by
  unfold markConnected
  split
  · rw [isID]
    apply Prog.Meets.bind
    · have isRow : (held.entered replica conn key).row = some (key.agentID, flag) := row
      exact attends_setAgentConnected succeeds isRow holds true incoming.now
    · intro _ now marked
      apply Prog.meets_pure
      have isOnline : (held.entered replica conn key).flagged key.agentID (fun _ => true) =
          online held replica conn key := by
        simp only [Presence.flagged, Presence.entered, online, row, Option.map_some, if_true]
      rwa [isOnline] at marked
  · rename_i isOld
    apply Prog.meets_pure
    have isConnected : flag = true := by
      apply (settled.connected key.agentID flag row).mpr
      refine ⟨replica, ?_⟩
      cases prev with
      | none => exact absurd rfl isOld
      | some former => rw [isPrev]; rfl
    have isOnline : online held replica conn key = held.entered replica conn key := by
      rw [isConnected] at row
      simp only [online, Presence.entered, row]
    rwa [isOnline]

theorem attends_register (succeeds : ∀ call, env.writeFaults call = none) (isConn : incoming.conn = some conn)
    (settled : Settled incoming.uid held) (isPrev : held.entry replica = prev.map entryKey)
    (ofRow : OfRow incoming.uid held st) (holds : Holds incoming.uid replica conn held world) :
    Attends (some incoming.uid) replica conn (Served incoming.uid replica conn)
      (register env replica incoming prev st) world := by
  obtain ⟨flag, row⟩ := ofRow.row
  have settledAfter := @settled_online replica conn held _ (entryKey (seen incoming st)) flag settled
    ofRow.instanceUID isConn row
  have refreshes : Serves (gentleRules incoming.uid replica conn held st.agentID) (fun _ => True)
      (refreshDescription env incoming prev (seen incoming st)) := serves_refreshDescription rfl prev
  have reports : Serves (gentleRules incoming.uid replica conn
      (online held replica conn (entryKey (seen incoming st))) st.agentID) (Kept (fun _ => True) (seen incoming st))
      (handleReports env replica incoming (seen incoming st)) :=
    serves_handleReports ofRow.instanceUID rfl fun _ _ => trivial
  apply (refreshes world holds).bind
  intro _ refreshed holdsThen
  apply Prog.Meets.bind
  · exact attends_put settled ofRow.instanceUID isConn holdsThen.2
  · intro _ entered holdsEntered
    apply (attends_markConnected succeeds settled isPrev rfl row holdsEntered).bind
    intro _ marked holdsMarked
    apply (reports marked holdsMarked).imp
    intro reported now ends
    refine ⟨_, settledAfter, ends.2, ends.1.instanceUID.trans ofRow.instanceUID, true, ?_⟩
    rw [ends.1.agentID]
    rfl

def Staged (uid : Bytes) (replica : Nat) (conn : Conn) (stage : Stage) (now : World) : Prop :=
  match stage with
  | .answered _ => Settled uid (presence uid now)
  | .admitted st _ => Served uid replica conn st now

/-! ### Resolving the agent -/

def Found (uid : Bytes) (replica : Nat) (conn : Conn) (resolution : Resolution) (now : World) : Prop :=
  ∃ held, Settled uid held ∧ Holds uid replica conn held now ∧ held.entry replica = none ∧
    ∀ st, resolution = .resolved st → OfRow uid held st

theorem found_of_unresolved {resolution : Resolution} (settled : Settled uid held)
    (holds : Holds uid replica conn held world) (absent : held.entry replica = none)
    (unresolved : ∀ st, resolution ≠ .resolved st) : Found uid replica conn resolution world :=
  ⟨held, settled, holds, absent, fun st isResolved => absurd isResolved (unresolved st)⟩

structure Nowhere (held : Presence) : Prop where
  entries : ∀ replica, held.entry replica = none
  bindings : ∀ replica conn, ¬ held.bound replica conn

theorem Nowhere.settled (nowhere : Nowhere held)
    (row : ∀ id flag, held.row = some (id, flag) → flag = false ∧ id ≠ Uuid.nil) : Settled uid held where
  entries replica key isEntry := by
    rw [nowhere.entries] at isEntry
    cases isEntry
  bindings replica conn bound := absurd bound (nowhere.bindings replica conn)
  connected id flag isRow := by simp [(row id flag isRow).1, nowhere.entries]
  named id flag isRow := (row id flag isRow).2

theorem settled_enrolled {id : Uuid} (settled : Settled uid held) (isNew : held.row = none)
    (isID : id ≠ Uuid.nil) : Settled uid { held with row := some (id, false) } := by
  have noEntry : ∀ somewhere key, held.entry somewhere ≠ some key := by
    intro somewhere key isEntry
    obtain ⟨_, _, flag, isRow⟩ := settled.entries somewhere key isEntry
    rw [isNew] at isRow
    cases isRow
  refine Nowhere.settled ⟨fun somewhere => Option.eq_none_iff_forall_ne_some.mpr (noEntry somewhere), ?_⟩ ?_
  · intro somewhere conn bound
    obtain ⟨key, isEntry, _⟩ := settled.bindings somewhere conn bound
    exact noEntry somewhere key isEntry
  · intro id' flag isRow
    cases isRow
    exact ⟨rfl, isID⟩

def Enrolled (uid : Bytes) (replica : Nat) (conn : Conn) (held : Presence) (res : Except StoreError Agent)
    (now : World) : Prop :=
  match res with
  | .ok agent => held.row = none ∧ agent.id ≠ Uuid.nil ∧
      Holds uid replica conn { held with row := some (agent.id, false) } now
  | .error _ => Holds uid replica conn held now

theorem leaves_enrolled (holds : Holds incoming.uid replica conn held world) {description : AgentDescription}
    {freshID freshUID token} : let agent := newAgent incoming description
    let after := { world with
      calls := world.calls + 1
      db := world.db.enrolled agent incoming.now freshID freshUID token }
    Leaves (some incoming.uid) replica conn world after ∧
      Enrolled incoming.uid replica conn held (.ok (agent.row incoming.now)) after := by
  have enrolled := fun key => @presence_enrolled world key (newAgent incoming description) incoming.now freshID
    freshUID token (world.calls + 1)
  have isUID : incoming.uid = (newAgent incoming description).instanceUID := rfl
  refine ⟨⟨fun other isOther => ?_, fun _ _ _ _ bound => Or.inl bound⟩, ?_, incoming.newID.property, ?_,
    fun other bound => holds.own other bound⟩
  · rw [enrolled, if_neg fun same => isOther (congrArg some same.symm)]
  · rw [← holds.same]
    exact congrArg (Option.map _) (find_fresh freshUID)
  · rw [enrolled, if_pos isUID, holds.same]
    rfl

/-! ### The whole message -/

section

variable (succeeds : ∀ call, env.writeFaults call = none) (isConn : incoming.conn = some conn)
  (settled : Settled incoming.uid held)

def settledReception : Reception env replica incoming where
  inv _ := True
  rely := Undisturbed (some incoming.uid) replica conn
  guar := Leaves (some incoming.uid) replica conn
  known := Holds incoming.uid replica conn held
  absent := held.entry replica = none
  resolved := Found incoming.uid replica conn
  answered now := Settled incoming.uid (presence incoming.uid now)
  served := Served incoming.uid replica conn
  steady := ⟨(gentleRules _ replica conn held Uuid.nil).stable, (gentleRules _ replica conn held Uuid.nil).silent⟩
  steady_answered :=
    { stable := fun _ _ undisturbed isSettled => by rwa [undisturbed.same _ rfl]
      silent := fun before after silent _ isSettled => by
        have same : ∀ uid, presence uid after = presence uid before :=
          fun _ => presence_congr (by rw [silent.db]) silent.registries
        exact ⟨.of_same same, trivial, by rwa [same]⟩ }
  answers _ holds := by rwa [holds.same]
  empty _ _ holds isNone := by
    rw [← holds.same]
    simp only [presence, isNone, Option.map_none]
  entry _ st _ holds found _ _ := by
    have isEntry : held.entry replica = some (entryKey st) := by
      rw [← holds.same]
      simp only [presence, found, Option.map_some]
    obtain ⟨isUID, _, hasRow⟩ := settled.entries replica (entryKey st) isEntry
    exact attends_register succeeds isConn settled isEntry ⟨isUID, hasRow⟩ holds
  unresolved _ absent holds := found_of_unresolved settled holds absent fun _ same => nomatch same
  row _ agent absent holds found := by
    refine ⟨held, settled, holds, absent, fun st isResolved => ?_⟩
    unfold resolveRow at isResolved
    split at isResolved
    · cases isResolved
    · cases isResolved
      refine ⟨rfl, agent.connected, ?_⟩
      rw [← holds.same]
      simp only [presence, found, Option.map_some]
  enrolled _ _ _ _ _ absent _ holds := by
    obtain ⟨leaves, isNew, isNamed, holdsLater⟩ := leaves_enrolled holds
    refine ⟨leaves, trivial, fun st isUID isID _ _ => ?_⟩
    refine ⟨_, settled_enrolled settled isNew isNamed, holdsLater, absent, fun _ isResolved => ?_⟩
    cases isResolved
    exact ⟨isUID, false, by rw [isID]; rfl⟩
  resolves _ _ found := by
    obtain ⟨_, isSettled, holds, _⟩ := found
    rwa [holds.same]
  admits _ st found _ := by
    obtain ⟨_, isSettled, holds, absent, ofRow⟩ := found
    exact attends_register succeeds isConn isSettled absent (ofRow st rfl) holds

variable (holds : Holds incoming.uid replica conn held world)
include succeeds isConn settled holds

theorem attends_receive :
    Attends (some incoming.uid) replica conn (Staged incoming.uid replica conn)
      (receive env replica incoming) world := by
  apply (@receives_receive world env replica incoming (settledReception succeeds isConn settled) holds).imp
  intro stage now staged
  cases stage with
  | answered resp => exact staged.2
  | admitted st newConn => exact staged

theorem attends_handleMessage :
    Attends (some incoming.uid) replica conn
      (fun _ now => Settled incoming.uid (presence incoming.uid now))
      (handleMessage env replica incoming) world := by
  apply (attends_receive succeeds isConn settled holds).bind
  intro stage now staged
  cases stage with
  | answered resp => exact Prog.meets_pure staged
  | admitted st newConn =>
    obtain ⟨held', settled', holds', ofRow⟩ := staged
    have offers : Serves (gentleRules incoming.uid replica conn held' st.agentID)
        (OffersOwn (fun _ _ => True) st.customerID) (makeOffers env replica incoming st newConn) :=
      serves_makeOffers ofRow.instanceUID rfl (fun _ _ => rfl) newConn
    apply (offers now holds').imp
    intro resp later ends
    rw [ends.2.same]
    exact settled'

end

end

/-! ## A closed connection -/

variable {env : Env} {agent : Option Bytes} {replica : Nat} {conn : Conn} {world : World}

structure Released (agent : Option Bytes) (replica : Nat) (conn : Conn) (now : World) : Prop where
  settled : ∀ uid ∈ agent, Settled uid (presence uid now)
  unbound : ∀ uid, ¬ (presence uid now).bound replica conn

def Dropped (agent : Option Bytes) (replica : Nat) (conn : Conn) (removed : Option AgentConn) (now : World) : Prop :=
  match removed with
  | none => Released agent replica conn now
  | some st => ∃ uid held flag, agent = some uid ∧ Holds uid replica conn held now ∧ Nowhere held ∧
      held.row = some (st.agentID, flag) ∧ st.agentID ≠ Uuid.nil

theorem removeConn_drops (settled : ∀ uid ∈ agent, Settled uid (presence uid world))
    (own : ∀ uid, (presence uid world).bound replica conn → uid ∈ agent)
    (alone : ∀ uid ∈ agent, ∀ somewhere, somewhere ≠ replica → (presence uid world).entry somewhere = none) :
    Leaves agent replica conn world (world.setRegistry replica ((world.registries replica).removeConn conn).2) ∧
      Dropped agent replica conn ((world.registries replica).removeConn conn).1
        (world.setRegistry replica ((world.registries replica).removeConn conn).2) := by
  rcases @Registry.removeConn_cases (world.registries replica) conn with
    ⟨unbound, removed⟩ | ⟨uid, st, bound, found, isConn, removed⟩ | ⟨uid, bound, replaced, _⟩
  · rw [removed, World.setRegistry, Function.update_eq_self]
    refine ⟨.of_same fun _ => rfl, settled, fun uid bound => ?_⟩
    have isBound : (world.registries replica).byConn.lookup conn = some uid := bound
    rw [unbound] at isBound
    cases isBound
  · have isAgent : agent = some uid := own uid bound
    subst isAgent
    have isSettled := settled uid rfl
    have left := presence_remove isSettled found isConn
    have others := fun other => @presence_remove_other conn world uid other replica bound
    obtain ⟨_, _, flag, row⟩ := isSettled.entries replica (entryKey st) (by simp only [presence, found, Option.map_some])
    rw [removed]
    refine ⟨⟨fun other isOther => others other fun same => isOther (congrArg some same.symm),
      fun key isKey somewhere other isBound => ?_⟩, uid, _, flag, rfl, ⟨left, fun other isBound => ?_⟩, ⟨?_, ?_⟩, row,
      isSettled.named _ flag row⟩
    · cases isKey
      rw [left] at isBound
      exact Or.inl isBound.2
    · by_contra different
      rw [others other different] at isBound
      exact different (Option.some.inj (own other isBound)).symm
    · intro somewhere
      by_cases here : somewhere = replica
      · subst here
        exact Function.update_self _ _ _
      · exact (Function.update_of_ne here _ _).trans (alone uid rfl somewhere here)
    · -- A binding elsewhere would have its entry there.
      intro somewhere other isBound
      obtain ⟨key, isEntry, _⟩ := isSettled.bindings somewhere other isBound.2
      rw [alone uid rfl somewhere isBound.1] at isEntry
      cases isEntry
  · have isAgent : agent = some uid := own uid bound
    subst isAgent
    obtain ⟨key, isEntry, isConn⟩ := (settled uid rfl).bindings replica conn bound
    obtain ⟨st, found, rfl⟩ := Option.map_eq_some_iff.mp isEntry
    exact absurd isConn (replaced st found)

/-- A close ends with the agent of the connection settled and the connection released,
    if no other replica held the agent. -/
theorem attends_handleConnectionClose (succeeds : ∀ call, env.writeFaults call = none)
    (settled : ∀ uid ∈ agent, Settled uid (presence uid world))
    (own : ∀ uid, (presence uid world).bound replica conn → uid ∈ agent)
    (alone : ∀ uid ∈ agent, ∀ somewhere, somewhere ≠ replica → (presence uid world).entry somewhere = none) (now : Int) :
    Attends agent replica conn (fun _ => Released agent replica conn) (handleConnectionClose env replica conn now)
      world := by
  apply Prog.Meets.bind
  · show Attends agent replica conn (Dropped agent replica conn) _ _
    apply Prog.meets_atomically
    intro before undisturbed _
    have drops : Leaves agent replica conn before _ ∧ Dropped agent replica conn _ _ :=
      @removeConn_drops agent replica conn before
        (fun uid isAgent => by rw [undisturbed.same uid isAgent]; exact settled uid isAgent)
        (fun uid bound => own uid (undisturbed.bindings uid bound))
        (fun uid isAgent => by rw [undisturbed.same uid isAgent]; exact alone uid isAgent)
    exact ⟨drops.1, trivial, drops.2⟩
  · intro removed later dropped
    cases removed with
    | none => exact Prog.meets_pure dropped
    | some st =>
      obtain ⟨uid, held, flag, rfl, holds, nowhere, row, isID⟩ := dropped
      dsimp only
      rw [if_neg isID]
      apply (attends_setAgentConnected succeeds row holds false (st.lastSeen.getD now)).bind
      intro _ marked holdsMarked
      have offline : Nowhere (held.flagged st.agentID fun _ => false) := ⟨nowhere.entries, nowhere.bindings⟩
      have isRow : (held.flagged st.agentID fun _ => false).row = some (st.agentID, false) := by
        simp only [Presence.flagged, row, Option.map_some, if_true]
      have emits : Attends (some uid) replica conn
          (fun _ last => True ∧ Holds uid replica conn (held.flagged st.agentID fun _ => false) last)
          (emitEvent ⟨"agent_offline", st.agentID, st.customerID, []⟩) marked :=
        attends_same holdsMarked (fun _ _ => rfl) fun _ _ => trivial
      apply emits.imp
      intro _ last holdsLast
      refine ⟨fun key isKey => ?_, fun key bound => ?_⟩
      · cases isKey
        rw [holdsLast.2.same]
        refine offline.settled fun id' flag' isRow' => ?_
        cases isRow.symm.trans isRow'
        exact ⟨rfl, isID⟩
      · have isUID := holdsLast.2.own key bound
        subst isUID
        rw [holdsLast.2.same] at bound
        exact offline.bindings replica conn bound

end OtelFleet.Verified.ConnectionHandlers
