import Mathlib.Data.List.AList
import OtelFleet.Store.Fleet

/-! # The registry of live connections

One replica of the OpAMP tier keeps the state of each connected agent by its
instance UID, and for each connection the UID that it spoke for last.
-/

namespace OtelFleet.OpAMP

open Store

structure Conn where
  id : Nat
deriving DecidableEq

structure AgentConn where
  conn : Option Conn
  instanceUID : Bytes
  agentID : Uuid
  customerID : Uuid
  capabilities : UInt64 := 0
  /-- Empty when the agent has acknowledged no config. -/
  lastAckedHash : Bytes := []
  remoteConfigStatus : RemoteConfigStatus
  healthy : Option Bool := none
  /-- `none` is the zero time. -/
  lastSeen : Option Int := none
  /-- `lastSeen` is not yet written to the row. -/
  dirtySeen : Bool := false
  /-- A token was offered on this connection already. -/
  tokenOffered : Bool := false
deriving DecidableEq

structure Registry where
  byUID : AList fun _ : Bytes => AgentConn
  byConn : AList fun _ : Conn => Bytes

namespace Registry

def empty : Registry := ⟨∅, ∅⟩

variable (reg : Registry)

def get (uid : Bytes) : Option AgentConn := reg.byUID.lookup uid

def unbind (conn : Option Conn) : AList fun _ : Conn => Bytes :=
  match conn with
  | some conn => reg.byConn.erase conn
  | none => reg.byConn

def unbindPrevious (st : AgentConn) : AList fun _ : Conn => Bytes :=
  match reg.get st.instanceUID with
  | some prev => if prev.conn ≠ st.conn then reg.unbind prev.conn else reg.byConn
  | none => reg.byConn

def put (st : AgentConn) : Registry where
  byUID := reg.byUID.insert st.instanceUID st
  byConn :=
    match st.conn with
    | some conn => (reg.unbindPrevious st).insert conn st.instanceUID
    | none => reg.unbindPrevious st

def update (uid : Bytes) (change : AgentConn → AgentConn) : Registry :=
  match reg.get uid with
  | some st => { reg with byUID := reg.byUID.insert uid (change st) }
  | none => reg

/-- `removeConn` drops a closed connection.  The agent is forgotten, and returned,
    when the connection is still its current one. -/
def removeConn (conn : Conn) : Option AgentConn × Registry :=
  match reg.byConn.lookup conn with
  | none => (none, reg)
  | some uid =>
    match reg.get uid with
    | some st =>
      if st.conn = some conn then (some st, ⟨reg.byUID.erase uid, reg.byConn.erase conn⟩)
      else (none, { reg with byConn := reg.byConn.erase conn })
    | none => (none, { reg with byConn := reg.byConn.erase conn })

def connsForCustomer (customerID : Uuid) : List AgentConn :=
  (reg.byUID.entries.map Sigma.snd).filter fun st => st.customerID = customerID ∧ st.agentID ≠ Uuid.nil

variable {reg}

theorem get_put (st : AgentConn) (uid : Bytes) :
    (reg.put st).get uid = if uid = st.instanceUID then some st else reg.get uid := by
  unfold put get
  by_cases same : uid = st.instanceUID
  · rw [if_pos same, same, AList.lookup_insert]
  · rw [if_neg same, AList.lookup_insert_ne same]

theorem get_update (uid other : Bytes) (change : AgentConn → AgentConn) :
    (reg.update uid change).get other = if other = uid then (reg.get uid).map change else reg.get other := by
  unfold update
  cases found : reg.get uid with
  | none =>
    by_cases same : other = uid
    · rw [if_pos same, same]
      exact found
    · rw [if_neg same]
  | some st =>
    dsimp only [get]
    by_cases same : other = uid
    · rw [if_pos same, same, AList.lookup_insert]
      rfl
    · rw [if_neg same, AList.lookup_insert_ne same]

@[simp] theorem byConn_update (uid : Bytes) (change : AgentConn → AgentConn) :
    (reg.update uid change).byConn = reg.byConn := by
  unfold update
  split <;> rfl

theorem lookup_unbind (former : Option Conn) (conn : Conn) :
    (reg.unbind former).lookup conn = if former = some conn then none else reg.byConn.lookup conn := by
  cases former with
  | none => rfl
  | some other =>
    by_cases same : other = conn
    · subst same
      rw [if_pos rfl]
      exact AList.lookup_erase _ _
    · rw [if_neg fun isConn => same (Option.some.inj isConn)]
      exact AList.lookup_erase_ne fun isConn => same isConn.symm

theorem lookup_put (st : AgentConn) (conn : Conn) :
    (reg.put st).byConn.lookup conn =
      if st.conn = some conn then some st.instanceUID
      else if (reg.get st.instanceUID).bind AgentConn.conn = some conn then none
      else reg.byConn.lookup conn := by
  -- Without the new binding.
  have former : st.conn ≠ some conn → (reg.unbindPrevious st).lookup conn =
      if (reg.get st.instanceUID).bind AgentConn.conn = some conn then none
      else reg.byConn.lookup conn := by
    intro other
    unfold unbindPrevious
    cases reg.get st.instanceUID with
    | none => rfl
    | some prev =>
      by_cases same : prev.conn = st.conn
      · simp [same, other]
      · simp only [ne_eq, same, not_false_eq_true, if_true, Option.bind_some, lookup_unbind]
  by_cases isConn : st.conn = some conn
  · rw [if_pos isConn]
    simp only [put, isConn]
    exact AList.lookup_insert _
  · rw [if_neg isConn, ← former isConn]
    unfold put
    cases hasConn : st.conn with
    | none => rfl
    | some other =>
      apply AList.lookup_insert_ne
      intro same
      rw [hasConn, same] at isConn
      exact isConn rfl

section

variable {conn : Conn} {uid : Bytes}

theorem removeConn_replaced (bound : reg.byConn.lookup conn = some uid)
    (replaced : ∀ st, reg.get uid = some st → st.conn ≠ some conn) :
    reg.removeConn conn = (none, { reg with byConn := reg.byConn.erase conn }) := by
  unfold removeConn
  rw [bound]
  dsimp only
  cases found : reg.get uid with
  | none => rfl
  | some st => simp only [if_neg (replaced st found)]

theorem removeConn_cases (conn : Conn) :
    (reg.byConn.lookup conn = none ∧ reg.removeConn conn = (none, reg)) ∨
    (∃ uid st, reg.byConn.lookup conn = some uid ∧ reg.get uid = some st ∧ st.conn = some conn ∧
      reg.removeConn conn = (some st, ⟨reg.byUID.erase uid, reg.byConn.erase conn⟩)) ∨
    (∃ uid, reg.byConn.lookup conn = some uid ∧ (∀ st, reg.get uid = some st → st.conn ≠ some conn) ∧
      reg.removeConn conn = (none, { reg with byConn := reg.byConn.erase conn })) := by
  cases bound : reg.byConn.lookup conn with
  | none => exact Or.inl ⟨rfl, by simp only [removeConn, bound]⟩
  | some uid =>
    by_cases current : ∃ st, reg.get uid = some st ∧ st.conn = some conn
    · obtain ⟨st, found, isCurrent⟩ := current
      refine Or.inr (Or.inl ⟨uid, st, rfl, found, isCurrent, ?_⟩)
      simp only [removeConn, bound, found, isCurrent, if_true]
    · have replaced : ∀ st, reg.get uid = some st → st.conn ≠ some conn :=
        fun st found isCurrent => current ⟨st, found, isCurrent⟩
      exact Or.inr (Or.inr ⟨uid, rfl, replaced, removeConn_replaced bound replaced⟩)

theorem get_of_removeConn {st : AgentConn} (found : (reg.removeConn conn).2.get uid = some st) :
    reg.get uid = some st := by
  rcases removeConn_cases conn with
    ⟨_, unbound⟩ | ⟨key, current, _, _, _, removed⟩ | ⟨key, _, _, replaced⟩
  · rw [unbound] at found
    exact found
  · rw [removed] at found
    by_cases same : uid = key
    · subst same
      rw [get, AList.lookup_erase] at found
      cases found
    · rwa [get, AList.lookup_erase_ne same] at found
  · rw [replaced] at found
    exact found

end

end Registry

end OtelFleet.OpAMP
