import OtelFleet.Verified.MessageActions

/-! # The presence of an agent

What the tier holds of one agent's connection: its row with the `connected` flag,
its entry in each registry, and the connections that are bound to its UID.  Between
two handlers of the agent the three agree (`Settled`).  A handler of the agent gets
from one such presence to another, and leaves the presence of all other agents.
-/

namespace OtelFleet.Verified.AgentPresence

open OpAMP Semantics Store Store.FleetTables
open Verified.MessageActions Verified.MessageRules

/-! ## Presences -/

structure EntryKey where
  conn : Option Conn
  instanceUID : Bytes
  agentID : Uuid

def entryKey (st : AgentConn) : EntryKey := ⟨st.conn, st.instanceUID, st.agentID⟩

@[ext] structure Presence where
  row : Option (Uuid × Bool)
  entry : Nat → Option EntryKey
  bound : Nat → Conn → Prop

def presence (uid : Bytes) (world : World) : Presence where
  row := (world.db.agents.find? fun agent => agent.instanceUID = uid).map fun agent => (agent.id, agent.connected)
  entry replica := ((world.registries replica).get uid).map entryKey
  bound replica conn := (world.registries replica).byConn.lookup conn = some uid

structure Settled (uid : Bytes) (held : Presence) : Prop where
  entries : ∀ replica key, held.entry replica = some key → key.instanceUID = uid ∧
    (∃ conn, key.conn = some conn ∧ held.bound replica conn) ∧ ∃ flag, held.row = some (key.agentID, flag)
  bindings : ∀ replica conn, held.bound replica conn → ∃ key, held.entry replica = some key ∧ key.conn = some conn
  connected : ∀ id flag, held.row = some (id, flag) → (flag = true ↔ ∃ replica, (held.entry replica).isSome = true)
  named : ∀ id flag, held.row = some (id, flag) → id ≠ Uuid.nil

/-! ## How actions change it -/

variable {conn : Conn}

section

variable {world : World} {uid : Bytes}

theorem presence_congr {after : World} (agents : after.db.agents = world.db.agents)
    (registries : after.registries = world.registries) : presence uid after = presence uid world := by
  unfold presence
  rw [agents, registries]

def Presence.flagged (held : Presence) (id : Uuid) (set : Bool → Bool) : Presence :=
  { held with row := held.row.map fun row => (row.1, if row.1 = id then set row.2 else row.2) }

variable {id : Uuid} {change : AgentStatus → AgentStatus} {set : Bool → Bool}

theorem presence_setStatus (sets : ∀ row, (change row).connected = set row.connected) (events : List AgentEvent)
    (calls : Nat) :
    presence uid { world with calls := calls, db := world.db.setStatus id change events } =
      (presence uid world).flagged id set := by
  unfold presence Presence.flagged
  rw [find_setStatus, Option.map_map, Option.map_map]
  congr 2
  funext agent
  simp only [Function.comp_def, changed]
  split
  · simp only [sets]
  · rfl

theorem presence_setStatus_same (keeps : ∀ row, (change row).connected = row.connected) (events : List AgentEvent)
    (calls : Nat) :
    presence uid { world with calls := calls, db := world.db.setStatus id change events } = presence uid world := by
  have flagged := @presence_setStatus world uid id change (fun flag => flag) keeps events calls
  rw [flagged]
  simp [Presence.flagged]

variable {other : Bytes}

theorem row_unique {flag flag' : Bool} (row : (presence uid world).row = some (id, flag))
    (otherRow : (presence other world).row = some (id, flag')) : other = uid := by
  obtain ⟨agent, isAgent, same⟩ := Option.map_eq_some_iff.mp row
  obtain ⟨agent', isAgent', same'⟩ := Option.map_eq_some_iff.mp otherRow
  exact uid_of_id isAgent isAgent' ((congrArg Prod.fst same').trans (congrArg Prod.fst same).symm)

theorem flagged_other {flag : Bool} (row : (presence uid world).row = some (id, flag)) (different : other ≠ uid) :
    (presence other world).flagged id set = presence other world := by
  unfold Presence.flagged
  cases otherRow : (presence other world).row with
  | none => simp [Presence.ext_iff, otherRow]
  | some found =>
    obtain ⟨id', flag'⟩ := found
    have notID : id' ≠ id := by
      rintro rfl
      exact different (row_unique row otherRow)
    simp [Presence.ext_iff, otherRow, notID]

theorem presence_enrolled {agent : NewAgent} {now : Int} {freshID freshUID token} (calls : Nat) :
    presence uid { world with calls := calls, db := world.db.enrolled agent now freshID freshUID token } =
      if uid = agent.instanceUID then { presence uid world with row := some (agent.id, false) }
      else presence uid world := by
  unfold presence
  rw [find_enrolled]
  split
  · rfl
  · rfl

@[simp] theorem setRegistry_self (replica : Nat) (reg : Registry) :
    (world.setRegistry replica reg).registries replica = reg := Function.update_self _ _ _

theorem setRegistry_ne {replica somewhere : Nat} (reg : Registry) (elsewhere : somewhere ≠ replica) :
    (world.setRegistry replica reg).registries somewhere = world.registries somewhere :=
  Function.update_of_ne elsewhere _ _

variable {replica : Nat}

theorem presence_setRegistry {reg : Registry} {held : Presence}
    (row : held.row = (presence uid world).row)
    (entry : held.entry replica = (reg.get uid).map entryKey)
    (bound : ∀ conn, held.bound replica conn ↔ reg.byConn.lookup conn = some uid)
    (elsewhere : ∀ somewhere, somewhere ≠ replica → held.entry somewhere = (presence uid world).entry somewhere ∧
      ∀ conn, held.bound somewhere conn ↔ (presence uid world).bound somewhere conn) :
    presence uid (world.setRegistry replica reg) = held := by
  ext
  · rw [row]
    rfl
  · rename_i somewhere key
    by_cases here : somewhere = replica
    · subst here
      rw [entry]
      simp only [presence, setRegistry_self]
    · rw [(elsewhere somewhere here).1]
      simp only [presence, setRegistry_ne reg here]
  · rename_i somewhere conn
    by_cases here : somewhere = replica
    · subst here
      rw [bound]
      simp only [presence, setRegistry_self]
    · rw [(elsewhere somewhere here).2]
      simp only [presence, setRegistry_ne reg here]

theorem presence_update {key : Bytes} {change : AgentConn → AgentConn}
    (keeps : ∀ st, entryKey (change st) = entryKey st) :
    presence uid (world.setRegistry replica ((world.registries replica).update key change)) = presence uid world := by
  apply presence_setRegistry rfl
  · rw [Registry.get_update]
    by_cases isKey : uid = key
    · subst isKey
      rw [if_pos rfl, Option.map_map]
      simp only [presence, Function.comp_def, keeps]
    · rw [if_neg isKey]
      rfl
  · intro conn
    rw [Registry.byConn_update]
    rfl
  · exact fun _ _ => ⟨rfl, fun _ => Iff.rfl⟩

def Presence.entered (held : Presence) (replica : Nat) (conn : Conn) (key : EntryKey) : Presence :=
  { held with
    entry := Function.update held.entry replica (some key)
    bound := fun somewhere other => if somewhere = replica then other = conn else held.bound somewhere other }

section

variable {st : AgentConn} (settled : Settled uid (presence uid world)) (isUID : st.instanceUID = uid)
  (isConn : st.conn = some conn)
include settled isUID isConn

theorem presence_put {replica : Nat} :
    presence uid (world.setRegistry replica ((world.registries replica).put st)) =
      (presence uid world).entered replica conn (entryKey st) := by
  apply presence_setRegistry
  · rfl
  · rw [Registry.get_put, if_pos isUID.symm]
    exact Function.update_self _ _ _
  · intro other
    rw [Registry.lookup_put, isConn, isUID]
    simp only [Presence.entered, Option.some.injEq]
    constructor
    · rintro rfl
      rw [if_pos rfl]
    · intro bound
      by_cases same : conn = other
      · exact same.symm
      · -- Another connection that was bound is that of the former entry.
        rw [if_neg same] at bound
        split at bound
        · cases bound
        · rename_i notFormer
          obtain ⟨key, isEntry, isOther⟩ := settled.bindings replica other bound
          obtain ⟨former, found, rfl⟩ := Option.map_eq_some_iff.mp isEntry
          rw [found] at notFormer
          exact absurd isOther notFormer
  · intro somewhere elsewhere
    refine ⟨Function.update_of_ne elsewhere _ _, fun other => ?_⟩
    simp only [Presence.entered, if_neg elsewhere]

theorem presence_put_other {replica : Nat} (different : other ≠ uid)
    (unbound : (world.registries replica).byConn.lookup conn ≠ some other) :
    presence other (world.setRegistry replica ((world.registries replica).put st)) = presence other world := by
  apply presence_setRegistry rfl
  · rw [Registry.get_put, if_neg (by rw [isUID]; exact different)]
    rfl
  · intro bound
    rw [Registry.lookup_put, isConn, isUID]
    change _ = _ ↔ _
    split
    · rename_i same
      cases same
      exact ⟨fun isBound => absurd isBound unbound, fun isOther => absurd (Option.some.inj isOther).symm different⟩
    · split
      · rename_i isFormer
        obtain ⟨former, found, ofFormer⟩ := Option.bind_eq_some_iff.mp isFormer
        -- The connection of the former entry is bound to the agent itself.
        obtain ⟨_, ⟨bound', isBound', isBound⟩, _⟩ := settled.entries replica (entryKey former)
          (by simp only [presence, found, Option.map_some])
        have sameConn : bound' = bound := Option.some.inj (isBound'.symm.trans ofFormer)
        subst sameConn
        rw [show (world.registries replica).byConn.lookup bound' = some uid from isBound]
        exact ⟨fun isOther => absurd (Option.some.inj isOther).symm different, fun isNone => nomatch isNone⟩
      · rfl
  · exact fun _ _ => ⟨rfl, fun _ => Iff.rfl⟩

end

def Presence.left (held : Presence) (replica : Nat) : Presence :=
  { held with
    entry := Function.update held.entry replica none
    bound := fun somewhere other => somewhere ≠ replica ∧ held.bound somewhere other }

theorem presence_remove {st : AgentConn} (settled : Settled uid (presence uid world))
    (found : (world.registries replica).get uid = some st) (isConn : st.conn = some conn) :
    presence uid (world.setRegistry replica
      ⟨(world.registries replica).byUID.erase uid, (world.registries replica).byConn.erase conn⟩) =
      (presence uid world).left replica := by
  apply presence_setRegistry
  · rfl
  · dsimp only [Registry.get]
    rw [AList.lookup_erase]
    exact Function.update_self _ _ _
  · intro other
    simp only [Presence.left, ne_eq, not_true_eq_false, false_and, false_iff]
    by_cases same : other = conn
    · subst same
      rw [AList.lookup_erase]
      exact fun isSome => nomatch isSome
    · rw [AList.lookup_erase_ne same]
      intro bound
      -- The agent's connection to the replica is the one that is dropped.
      obtain ⟨key, isEntry, isOther⟩ := settled.bindings replica other bound
      simp only [presence, found, Option.map_some, Option.some.injEq] at isEntry
      subst isEntry
      exact same (Option.some.inj (isOther.symm.trans isConn))
  · intro somewhere elsewhere
    refine ⟨Function.update_of_ne elsewhere _ _, fun other => ?_⟩
    simp only [Presence.left, ne_eq, elsewhere, not_false_eq_true, true_and]

theorem presence_remove_other (bound : (world.registries replica).byConn.lookup conn = some uid)
    (different : other ≠ uid) :
    presence other (world.setRegistry replica
      ⟨(world.registries replica).byUID.erase uid, (world.registries replica).byConn.erase conn⟩) =
      presence other world := by
  apply presence_setRegistry rfl
  · dsimp only [Registry.get]
    rw [AList.lookup_erase_ne different]
    rfl
  · intro key
    by_cases same : key = conn
    · subst same
      rw [AList.lookup_erase]
      change (world.registries replica).byConn.lookup key = some other ↔ _
      rw [bound]
      exact ⟨fun isOther => absurd (Option.some.inj isOther).symm different, fun isNone => nomatch isNone⟩
    · rw [AList.lookup_erase_ne same]
      rfl
  · exact fun _ _ => ⟨rfl, fun _ => Iff.rfl⟩

end

/-! ## Handlers of one agent -/

/-- What an action of a handler on the connection may do, if the handler is for the
    agent of this UID; that of a connection which carried no message is for none. -/
structure Leaves (agent : Option Bytes) (replica : Nat) (conn : Conn) (before after : World) : Prop where
  others : ∀ uid, uid ∉ agent → presence uid after = presence uid before
  bindings : ∀ uid ∈ agent, ∀ somewhere other, (presence uid after).bound somewhere other →
    (presence uid before).bound somewhere other ∨ (somewhere = replica ∧ other = conn)

structure Undisturbed (agent : Option Bytes) (replica : Nat) (conn : Conn) (before after : World) : Prop where
  same : ∀ uid ∈ agent, presence uid after = presence uid before
  bindings : ∀ uid, (presence uid after).bound replica conn → (presence uid before).bound replica conn

theorem Leaves.of_same {agent : Option Bytes} {replica : Nat} {before after : World}
    (same : ∀ uid, presence uid after = presence uid before) : Leaves agent replica conn before after where
  others uid _ := same uid
  bindings uid _ somewhere other bound := Or.inl (by rwa [same] at bound)

abbrev Attends {α : Type} (agent : Option Bytes) (replica : Nat) (conn : Conn) (post : α → World → Prop)
    (program : Prog World α) (world : World) : Prop :=
  Prog.Meets (fun _ => True) (Undisturbed agent replica conn) (Leaves agent replica conn) post program world

structure Holds (uid : Bytes) (replica : Nat) (conn : Conn) (held : Presence) (world : World) : Prop where
  same : presence uid world = held
  own : ∀ other, (presence other world).bound replica conn → other = uid

variable {α : Type} {uid : Bytes} {replica : Nat} {conn : Conn} {held : Presence} {before after : World}

theorem Holds.undisturbed (holds : Holds uid replica conn held before)
    (undisturbed : Undisturbed (some uid) replica conn before after) : Holds uid replica conn held after where
  same := (undisturbed.same uid rfl).trans holds.same
  own other bound := holds.own other (undisturbed.bindings other bound)

section

variable (holds : Holds uid replica conn held before)
include holds

theorem Holds.of_same (same : ∀ uid, presence uid after = presence uid before) : Holds uid replica conn held after where
  same := (same uid).trans holds.same
  own other bound := holds.own other (by rwa [same] at bound)

variable {action : World → α × World}

theorem attends_atomically {post : α → World → Prop}
    (follows : ∀ now, Holds uid replica conn held now →
      Leaves (some uid) replica conn now (action now).2 ∧ post (action now).1 (action now).2) :
    Attends (some uid) replica conn post (Prog.atomically action) before := by
  apply Prog.meets_atomically
  intro now undisturbed _
  obtain ⟨leaves, holdsAfter⟩ := follows now (holds.undisturbed undisturbed)
  exact ⟨leaves, trivial, holdsAfter⟩

theorem attends_same {post : α → Prop} (same : ∀ now uid, presence uid (action now).2 = presence uid now)
    (res : ∀ now, presence uid now = held → post (action now).1) :
    Attends (some uid) replica conn (fun value now => post value ∧ Holds uid replica conn held now)
      (Prog.atomically action) before := by
  apply attends_atomically holds
  intro now holdsNow
  exact ⟨.of_same (same now), res now holdsNow.same, holdsNow.of_same (same now)⟩

end

def gentleRules (uid : Bytes) (replica : Nat) (conn : Conn) (held : Presence) (id : Uuid) : Rules replica uid id where
  inv _ := True
  rely := Undisturbed (some uid) replica conn
  guar := Leaves (some uid) replica conn
  known := Holds uid replica conn held
  acks _ := True
  had _ _ := True
  allows change := ∀ row, (change row).connected = row.connected
  reports _ reporting := reporting.connected
  configs _ _ _ _ _ := trivial
  stable _ _ undisturbed holds := holds.undisturbed undisturbed
  silent before after silent _ holds := by
    have same : ∀ uid, presence uid after = presence uid before :=
      fun _ => presence_congr (by rw [silent.db]) silent.registries
    exact ⟨.of_same same, trivial, holds.of_same same⟩
  status world change events allowed _ holds := by
    have same := fun uid => @presence_setStatus_same world uid id change allowed events (world.calls + 1)
    exact ⟨.of_same same, trivial, holds.of_same same⟩
  entry world change keeps _ holds := by
    have isKept : ∀ st, entryKey (change st) = entryKey st := by
      intro st
      simp only [entryKey, (keeps st).conn, (keeps st).instanceUID, (keeps st).agentID]
    have same := fun key => @presence_update world key replica uid change isKept
    exact ⟨.of_same same, trivial, holds.of_same same⟩

end OtelFleet.Verified.AgentPresence
