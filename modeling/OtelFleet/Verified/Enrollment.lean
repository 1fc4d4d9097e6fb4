import OtelFleet.Verified.Confinement

/-! # Enrollment and the limits of a bootstrap token

A token is checked when a connection opens, and enrolls agents later, message by
message.  `Careful` says which steps keep that apart from harm: then every
enrollment meets a token that is usable and not exhausted.  Without it, one
connection enrolls as many agents as it names UIDs.
-/

namespace OtelFleet.Verified.Enrollment

open OpAMP Semantics Store Store.FleetTables
open Verified.MessageActions Verified.TierRuns Verified.Confinement

variable (db : FleetTables)

def enrolledUIDs : List Bytes := db.agents.map fun agent => agent.instanceUID

/-- The connection may still enroll an agent: it has sent no message yet, or one
    with the UID of an agent that is not enrolled. -/
def mayEnroll (session : Session) : Prop :=
  session.auth.agentID = none ∧ (session.uids = [] ∨ ∃ uid ∈ session.uids, uid ∉ enrolledUIDs db)

instance (session : Session) : Decidable (mayEnroll db session) :=
  inferInstanceAs (Decidable (_ ∧ _))

def pending (sessions : List Session) (db : FleetTables) (tokenID : Uuid) : Nat :=
  (sessions.filter fun session => session.auth.tokenID = tokenID ∧ mayEnroll db session).length

/-- The UID is no second one of the connection that is not enrolled. -/
def Repeats (session : Session) (uid : Bytes) : Prop := ∀ old ∈ session.uids, uid = old ∨ uid ∈ enrolledUIDs db

/-- The steps that keep to a token's limits: a connection is accepted only while the
    token has a use left beyond those of the connections that may still enroll; with a
    token for a limited number of agents, a connection brings at most one that is not
    enrolled; a token ends, in whatever way, only while no connection may still enroll
    with it. -/
def Careful (env : Env) (tier : Tier) : Event → Prop
  | .connect _ _ authorization => ∀ text ∈ bearerToken authorization, ∀ token ∈ tier.world.db.tokens,
      token.tokenHash = env.sha256 text → Usable tier.world.db tier.now token → token.usedCount < token.maxUses →
      token.usedCount + pending tier.sessions tier.world.db token.id < token.maxUses
  | .message conn msg _ _ => ∀ session ∈ tier.sessions, session.conn = conn → session.auth.agentID = none →
      Repeats tier.world.db session msg.instanceUID ∨ ∃ token ∈ tier.world.db.tokens,
        token.id = session.auth.tokenID ∧ token.maxUses = 0 ∧ Usable tier.world.db tier.now token
  | .revoke _ tokenID => pending tier.sessions tier.world.db tokenID = 0
  | .setStatus customerID status => status = .active ∨ ∀ token ∈ tier.world.db.tokens,
      token.customerID = customerID → pending tier.sessions tier.world.db token.id = 0
  | .tick later => ∀ token ∈ tier.world.db.tokens,
      pending tier.sessions tier.world.db token.id = 0 ∨ later < token.expiresAt
  | _ => True

/-- An agent that the step enrolls comes with a token that is usable then and has a
    use left. -/
def EnrollsProperly (before after : Tier) : Prop :=
  ∀ agent ∈ after.world.db.agents, agent.instanceUID ∉ enrolledUIDs before.world.db →
    ∃ token ∈ before.world.db.tokens, agent.enrolledVia = some token.id ∧
      Usable before.world.db before.now token ∧ (token.maxUses = 0 ∨ token.usedCount < token.maxUses)

def WithinLimits : Prop := ∀ token ∈ db.tokens, token.maxUses = 0 ∨ token.usedCount ≤ token.maxUses

instance : Decidable (WithinLimits db) := inferInstanceAs (Decidable (∀ token ∈ db.tokens, _))

/-! ## Connections that may still enroll -/

section

variable {sessions sessions' : List Session} {db db' : FleetTables} {tokenID : Uuid} {session : Session}

theorem pending_eq_zero_iff :
    pending sessions db tokenID = 0 ↔ ∀ session ∈ sessions, mayEnroll db session → session.auth.tokenID ≠ tokenID := by
  unfold pending
  rw [List.length_eq_zero_iff, List.filter_eq_nil_iff]
  constructor
  · intro none session mem may isToken
    exact none session mem (decide_eq_true ⟨isToken, may⟩)
  · intro none session mem isPending
    obtain ⟨isToken, may⟩ := of_decide_eq_true isPending
    exact none session mem may isToken

section

variable (grows : ∀ uid, uid ∈ enrolledUIDs db → uid ∈ enrolledUIDs db')
include grows

theorem mayEnroll.earlier (may : mayEnroll db' session) : mayEnroll db session := by
  refine ⟨may.1, ?_⟩
  rcases may.2 with none | ⟨uid, mem, fresh⟩
  · exact Or.inl none
  · exact Or.inr ⟨uid, mem, fun enrolled => fresh (grows uid enrolled)⟩

theorem pending_mono : pending sessions db' tokenID ≤ pending sessions db tokenID := by
  unfold pending
  rw [← List.countP_eq_length_filter, ← List.countP_eq_length_filter]
  apply List.countP_mono_left
  intro session _ isPending
  obtain ⟨isToken, may⟩ := of_decide_eq_true isPending
  exact decide_eq_true ⟨isToken, may.earlier grows⟩

theorem pending_lt (mem : session ∈ sessions) (may : mayEnroll db session)
    (isToken : session.auth.tokenID = tokenID) (done : ¬ mayEnroll db' session) :
    pending sessions db' tokenID < pending sessions db tokenID := by
  have nested : (sessions.filter fun other => other.auth.tokenID = tokenID ∧ mayEnroll db' other) =
      (sessions.filter fun other => other.auth.tokenID = tokenID ∧ mayEnroll db other).filter
        fun other => mayEnroll db' other := by
    rw [List.filter_filter]
    apply List.filter_congr
    intro other _
    by_cases later : mayEnroll db' other
    · simp [later, later.earlier grows]
    · simp [later]
  unfold pending
  rw [nested]
  apply List.length_filter_lt_length_iff_exists.mpr
  refine ⟨session, List.mem_filter.mpr ⟨mem, decide_eq_true ⟨isToken, may⟩⟩, ?_⟩
  simpa using done

end

end

/-! ## The invariant -/

def limits : List (Uuid × Nat) := db.tokens.map fun token => (token.id, token.maxUses)

/-- Every connection that may still enroll has a usable token with a use left for
    it, and brings one agent at most if the token is limited. -/
structure Budgeted (sessions : List Session) (db : FleetTables) (now : Int) : Prop where
  usable : ∀ session ∈ sessions, mayEnroll db session →
    ∃ token ∈ db.tokens, token.id = session.auth.tokenID ∧ Usable db now token
  budget : ∀ token ∈ db.tokens, token.maxUses = 0 ∨ token.usedCount + pending sessions db token.id ≤ token.maxUses
  single : ∀ session ∈ sessions, session.auth.agentID = none → (session.auth.tokenID, 0) ∉ limits db →
    ∀ uid ∈ session.uids, ∀ other ∈ session.uids, uid ∉ enrolledUIDs db → other ∉ enrolledUIDs db → uid = other

def Attended (tier : Tier) : Prop :=
  ∀ replica incoming change next, (Purpose.message replica incoming, Prog.act change next) ∈ tier.handlers.jobs →
    ∃ session ∈ tier.sessions, incoming.conn = some session.conn ∧ incoming.auth = session.auth ∧
      incoming.msg.instanceUID ∈ session.uids

structure Ready (tier : Tier) : Prop where
  orderly : Orderly (fun _ _ => True) tier
  budgeted : Budgeted tier.sessions tier.world.db tier.now
  attended : Attended tier

variable {session : Session}

section

variable {sessions sessions' : List Session} {db db' : FleetTables} {now : Int}

theorem usable_congr {token : BootstrapToken} (customers : db'.customers = db.customers) (usable : Usable db now token) :
    Usable db' now token := by
  refine ⟨usable.notRevoked, usable.notExpired, ?_⟩
  rw [← usable.active]
  unfold customerStatus
  rw [customers]

theorem mayEnroll_congr (uids : enrolledUIDs db' = enrolledUIDs db) (session : Session) :
    mayEnroll db' session ↔ mayEnroll db session := by
  unfold mayEnroll
  rw [uids]

theorem eq_of_id {token other : BootstrapToken} (mem : token ∈ db.tokens) (isOther : other ∈ db.tokens)
    (same : token.id = other.id) : token = other :=
  List.inj_on_of_nodup_map db.tokens_id mem isOther same

section

variable (budgeted : Budgeted sessions db now)
include budgeted

/-- What leaves the enrolled UIDs and the uses, and keeps the tokens usable that
    connections still need, keeps the budget. -/
theorem Budgeted.adapted {later : Int} (uids : enrolledUIDs db' = enrolledUIDs db)
    (fit : ∀ token ∈ db.tokens, pending sessions db token.id ≠ 0 → Usable db now token →
      ∃ token' ∈ db'.tokens, token'.id = token.id ∧ Usable db' later token')
    (same : limits db' = limits db)
    (uses : ∀ token' ∈ db'.tokens, ∃ token ∈ db.tokens, token'.id = token.id ∧ token'.maxUses = token.maxUses ∧
      token'.usedCount = token.usedCount) : Budgeted sessions db' later := by
  have sameMay := mayEnroll_congr uids
  refine ⟨fun session mem may => ?_, fun token' mem => ?_, fun session mem => ?_⟩
  · have earlier := (sameMay session).mp may
    obtain ⟨token, isToken, isID, usable⟩ := budgeted.usable session mem earlier
    have needed : pending sessions db token.id ≠ 0 :=
      fun unused => pending_eq_zero_iff.mp unused session mem earlier isID.symm
    obtain ⟨token', isToken', sameID, usable'⟩ := fit token isToken needed usable
    exact ⟨token', isToken', sameID.trans isID, usable'⟩
  · obtain ⟨token, isToken, sameID, sameMax, sameUsed⟩ := uses token' mem
    have samePending : pending sessions db' token.id = pending sessions db token.id := by simp only [pending, sameMay]
    rw [sameID, sameMax, sameUsed, samePending]
    exact budgeted.budget token isToken
  · rw [uids, same]
    exact budgeted.single session mem

theorem Budgeted.same (tokens : db'.tokens = db.tokens) (customers : db'.customers = db.customers)
    (uids : enrolledUIDs db' = enrolledUIDs db) : Budgeted sessions db' now := by
  apply budgeted.adapted uids <;> simp only [limits, tokens]
  · exact fun token isToken _ usable => ⟨token, isToken, rfl, usable_congr customers usable⟩
  · exact fun token isToken => ⟨token, isToken, rfl, rfl, rfl⟩

theorem Budgeted.closed (sublist : sessions'.Sublist sessions) :
    Budgeted sessions' db now where
  usable session mem := budgeted.usable session (sublist.subset mem)
  budget token mem := by
    have fewer : pending sessions' db token.id ≤ pending sessions db token.id := (sublist.filter _).length_le
    exact (budgeted.budget token mem).imp_right fun within => by omega
  single session mem := budgeted.single session (sublist.subset mem)

theorem Budgeted.opened (fresh : session.uids = [])
    (usable : mayEnroll db session → ∃ token ∈ db.tokens, token.id = session.auth.tokenID ∧ Usable db now token ∧
      (token.maxUses = 0 ∨ token.usedCount + pending sessions db token.id < token.maxUses)) :
    Budgeted (sessions ++ [session]) db now := by
  refine ⟨Data.forall_mem_append_row budgeted.usable fun may => ?_, fun token mem => ?_,
    Data.forall_mem_append_row budgeted.single fun _ _ uid isUID => ?_⟩
  · obtain ⟨token, isToken, isID, isUsable, _⟩ := usable may
    exact ⟨token, isToken, isID, isUsable⟩
  · have counted : pending (sessions ++ [session]) db token.id = pending sessions db token.id +
        if session.auth.tokenID = token.id ∧ mayEnroll db session then 1 else 0 := by
      simp only [pending, ← List.countP_eq_length_filter, List.countP_append, List.countP_singleton,
        decide_eq_true_eq]
    rw [counted]
    split
    · rename_i isPending
      -- The token with this ID is the one that the connection presented.
      obtain ⟨presented, isToken, isID, _, spare⟩ := usable isPending.2
      cases eq_of_id isToken mem (isID.trans isPending.1)
      exact (spare).imp_right fun within => by omega
    · exact budgeted.budget token mem
  · rw [fresh] at isUID
    cases isUID

end

theorem mayEnroll_carry {uid : Bytes} (careful : Repeats db session uid)
    (may : mayEnroll db { session with uids := session.uids ++ [uid] }) : mayEnroll db session := by
  refine ⟨may.1, ?_⟩
  rcases may.2 with none | ⟨other, mem, fresh⟩
  · exact absurd none (by simp)
  · rcases List.mem_append.mp mem with old | new
    · exact Or.inr ⟨other, old, fresh⟩
    · cases List.mem_singleton.mp new
      cases uids : session.uids with
      | nil => exact Or.inl rfl
      | cons first rest =>
        -- The new UID is one that the connection brought before.
        rcases careful first (by rw [uids]; exact List.mem_cons_self) with same | enrolled
        · exact Or.inr ⟨first, List.mem_cons_self, by rw [← same]; exact fresh⟩
        · exact absurd enrolled fresh

theorem Budgeted.carried (budgeted : Budgeted sessions db now) {conn : Conn} {uid : Bytes}
    (careful : ∀ session ∈ sessions, session.conn = conn → session.auth.agentID = none → Repeats db session uid ∨
      ∃ token ∈ db.tokens, token.id = session.auth.tokenID ∧ token.maxUses = 0 ∧ Usable db now token) :
    Budgeted (carry conn uid sessions) db now := by
  have earlier : ∀ session ∈ sessions,
      mayEnroll db (if session.conn = conn then { session with uids := session.uids ++ [uid] } else session) →
        mayEnroll db session ∨
          ∃ token ∈ db.tokens, token.id = session.auth.tokenID ∧ token.maxUses = 0 ∧ Usable db now token := by
    intro session mem may
    split at may
    · exact (careful session mem ‹_› may.1).imp_left fun repeats => mayEnroll_carry repeats may
    · exact Or.inl may
  have sameAuth : ∀ session : Session,
      (if session.conn = conn then { session with uids := session.uids ++ [uid] } else session).auth = session.auth := by
    intro session
    split <;> rfl
  refine ⟨fun session mem may => ?_, fun token mem => ?_, fun session mem => ?_⟩
  · obtain ⟨old, isOld, rfl⟩ := List.mem_map.mp mem
    rw [sameAuth]
    rcases earlier old isOld may with before | ⟨token, isToken, isID, _, usable⟩
    · exact budgeted.usable old isOld before
    · exact ⟨token, isToken, isID, usable⟩
  · refine or_iff_not_imp_left.mpr fun limited => ?_
    have fewer : pending (carry conn uid sessions) db token.id ≤ pending sessions db token.id := by
      unfold pending carry
      rw [← List.countP_eq_length_filter, ← List.countP_eq_length_filter, List.countP_map]
      apply List.countP_mono_left
      intro session isSession isPending
      obtain ⟨isToken, may⟩ := of_decide_eq_true isPending
      rw [sameAuth] at isToken
      rcases earlier session isSession may with before | ⟨other, isOther, isID, unlimited, _⟩
      · exact decide_eq_true ⟨isToken, before⟩
      · rw [eq_of_id isOther mem (isID.trans isToken)] at unlimited
        exact absurd unlimited limited
    exact ((budgeted.budget token mem).resolve_left limited).trans' (by omega)
  · obtain ⟨old, isOld, rfl⟩ := List.mem_map.mp mem
    split
    · rename_i isConn
      intro unbound limited first isFirst second isSecond firstFresh secondFresh
      have allowed : Repeats db old uid := by
        refine (careful old isOld isConn unbound).resolve_right ?_
        rintro ⟨token, isToken, isID, unlimited, _⟩
        exact limited (List.mem_map.mpr ⟨token, isToken, Prod.ext isID unlimited⟩)
      simp only [List.mem_append, List.mem_singleton] at isFirst isSecond
      rcases isFirst with oldFirst | rfl
      · rcases isSecond with oldSecond | rfl
        · exact budgeted.single old isOld unbound limited first oldFirst second oldSecond firstFresh secondFresh
        · exact ((allowed first oldFirst).resolve_right secondFresh).symm
      · rcases isSecond with oldSecond | rfl
        · exact (allowed second oldSecond).resolve_right firstFresh
        · rfl
    · exact budgeted.single old isOld

theorem Budgeted.revoked (budgeted : Budgeted sessions db now) {customerID tokenID : Uuid} {at' : Int}
    (unused : pending sessions db tokenID = 0) (tokens : db'.tokens = db.tokens.map (revoked customerID tokenID at'))
    (agents : db'.agents = db.agents) (customers : db'.customers = db.customers) : Budgeted sessions db' now := by
  have uids : enrolledUIDs db' = enrolledUIDs db := by rw [enrolledUIDs, agents, enrolledUIDs]
  apply budgeted.adapted uids <;> simp only [limits, tokens]
  · intro token isToken needed usable
    have kept : FleetTables.revoked customerID tokenID at' token = token :=
      if_neg fun selected => needed (by rw [selected.1, unused])
    exact ⟨token, List.mem_map.mpr ⟨token, isToken, kept⟩, rfl, usable_congr customers usable⟩
  · rw [List.map_map]
    refine List.map_congr_left fun token _ => Prod.ext (revoked_id ..) ?_
    dsimp only [Function.comp_apply, FleetTables.revoked]
    split <;> rfl
  · intro token' mem
    obtain ⟨old, isOld, rfl⟩ := List.mem_map.mp mem
    refine ⟨old, isOld, revoked_id .., ?_⟩
    unfold FleetTables.revoked
    split <;> exact ⟨rfl, rfl⟩

variable {status : CustomerStatus}

theorem customerStatus_setStatus {id customerID : Uuid}
    (customers : db'.customers = db.customers.map fun customer =>
      if customer.id = id ∧ customer.status ≠ .deleted then { customer with status := status } else customer)
    (other : customerID ≠ id ∨ status = .active) (active : db.customerStatus customerID = some .active) :
    db'.customerStatus customerID = some .active := by
  unfold customerStatus at active ⊢
  rw [customers, List.find?_map]
  have sameID : ((fun customer : Customer => decide (customer.id = customerID)) ∘ fun customer =>
      if customer.id = id ∧ customer.status ≠ .deleted then { customer with status := status } else customer) =
      fun customer => decide (customer.id = customerID) := by
    funext customer
    dsimp only [Function.comp_apply]
    split <;> rfl
  rw [sameID]
  obtain ⟨customer, found, isActive⟩ := Option.map_eq_some_iff.mp active
  have isCustomer : customer.id = customerID := by simpa using List.find?_some found
  rw [found]
  simp only [Option.map_some, Option.some.injEq]
  split
  · rename_i selected
    rcases other with different | isActiveStatus
    · exact absurd (isCustomer.symm.trans selected.1) different
    · exact isActiveStatus
  · exact isActive

theorem Budgeted.statusSet (budgeted : Budgeted sessions db now) {id : Uuid}
    (unused : status = .active ∨ ∀ token ∈ db.tokens, token.customerID = id → pending sessions db token.id = 0)
    (tokens : db'.tokens = db.tokens) (agents : db'.agents = db.agents)
    (customers : db'.customers = db.customers.map fun customer =>
      if customer.id = id ∧ customer.status ≠ .deleted then { customer with status := status } else customer) :
    Budgeted sessions db' now := by
  have uids : enrolledUIDs db' = enrolledUIDs db := by rw [enrolledUIDs, agents, enrolledUIDs]
  apply budgeted.adapted uids <;> simp only [limits, tokens]
  · intro token isToken needed usable
    refine ⟨token, isToken, rfl, usable.notRevoked, usable.notExpired, ?_⟩
    apply customerStatus_setStatus customers _ usable.active
    rcases unused with active | none
    · exact Or.inr active
    · exact Or.inl fun isCustomer => needed (none token isToken isCustomer)
  · exact fun token isToken => ⟨token, isToken, rfl, rfl, rfl⟩

theorem Budgeted.ticked (budgeted : Budgeted sessions db now) {later : Int}
    (unexpired : ∀ token ∈ db.tokens, pending sessions db token.id = 0 ∨ later < token.expiresAt) :
    Budgeted sessions db later := by
  apply budgeted.adapted rfl _ rfl
  · exact fun token isToken => ⟨token, isToken, rfl, rfl, rfl⟩
  · intro token isToken needed usable
    exact ⟨token, isToken, rfl, usable.notRevoked, (unexpired token isToken).resolve_left needed, usable.active⟩

/-! ### Enrollment itself -/

section

variable {agent : NewAgent} {at' : Int} {freshID : agent.id ∉ db.agents.map fun agent => agent.id}
  {freshUID : agent.instanceUID ∉ db.agents.map fun agent => agent.instanceUID}
  {token : ∃ token ∈ db.tokens, token.id = agent.enrolledVia}

theorem enrolledUIDs_enrolled :
    enrolledUIDs (db.enrolled agent at' freshID freshUID token) = enrolledUIDs db ++ [agent.instanceUID] := by
  simp [enrolledUIDs, FleetTables.enrolled, NewAgent.row]

theorem limits_enrolled : limits (db.enrolled agent at' freshID freshUID token) = limits db := by
  refine (List.map_map ..).trans (List.map_congr_left fun row _ => Prod.ext (counted_id ..) ?_)
  dsimp only [Function.comp_apply, counted]
  split <;> rfl

theorem mem_enrolled (uid : Bytes) (old : uid ∈ enrolledUIDs db) :
    uid ∈ enrolledUIDs (db.enrolled agent at' freshID freshUID token) := by
  rw [enrolledUIDs_enrolled]
  exact List.mem_append_left _ old

section

variable (budgeted : Budgeted sessions db now) (mem : session ∈ sessions) (unbound : session.auth.agentID = none)
  (isUID : agent.instanceUID ∈ session.uids)
include budgeted mem unbound isUID

theorem Budgeted.spent (limited : (session.auth.tokenID, 0) ∉ limits db) :
    ¬ mayEnroll (db.enrolled agent at' freshID freshUID token) session := by
  rintro ⟨_, none | ⟨uid, isCarried, fresh⟩⟩
  · rw [none] at isUID
    cases isUID
  · have fresh' : uid ∉ enrolledUIDs db := fun enrolled => fresh (mem_enrolled uid enrolled)
    -- all UIDs of the connection that were not enrolled are the one that is now
    have same := budgeted.single session mem unbound limited uid isCarried agent.instanceUID isUID fresh' freshUID
    apply fresh
    rw [enrolledUIDs_enrolled, same]
    exact List.mem_append_right _ (List.mem_singleton.mpr rfl)

variable (viaToken : agent.enrolledVia = session.auth.tokenID)
include viaToken

theorem Budgeted.usedOnce {row : BootstrapToken} (isRow : row ∈ db.tokens) :
    (counted agent.enrolledVia row).maxUses = 0 ∨ (counted agent.enrolledVia row).usedCount +
      pending sessions (db.enrolled agent at' freshID freshUID token) row.id ≤ (counted agent.enrolledVia row).maxUses := by
  have fewer : pending sessions (db.enrolled agent at' freshID freshUID token) row.id ≤ pending sessions db row.id :=
    pending_mono mem_enrolled
  by_cases isPresented : row.id = agent.enrolledVia
  · -- One use more, and one connection fewer that may enroll.
    have isTokenID := viaToken.symm.trans isPresented.symm
    have one : counted agent.enrolledVia row = { row with usedCount := row.usedCount + 1 } := if_pos isPresented
    rw [one]
    refine or_iff_not_imp_left.mpr fun limited => ?_
    have limitedID : (session.auth.tokenID, 0) ∉ limits db := by
      intro unlimited
      obtain ⟨other, isOther, same⟩ := List.mem_map.mp unlimited
      rw [Prod.mk.injEq] at same
      exact limited (eq_of_id isRow isOther (isTokenID.symm.trans same.1.symm) ▸ same.2)
    have spent := @Budgeted.spent _ _ _ _ _ at' freshID freshUID token budgeted mem unbound isUID limitedID
    have strictly := pending_lt mem_enrolled mem ⟨unbound, Or.inr ⟨_, isUID, freshUID⟩⟩ isTokenID spent
    have within := (budgeted.budget row isRow).resolve_left limited
    dsimp only
    omega
  · have none : counted agent.enrolledVia row = row := if_neg isPresented
    rw [none]
    exact (budgeted.budget row isRow).imp_right fun within => by omega

theorem Budgeted.enrolled :
    (∃ presented ∈ db.tokens, agent.enrolledVia = presented.id ∧ Usable db now presented ∧
      (presented.maxUses = 0 ∨ presented.usedCount < presented.maxUses)) ∧
    Budgeted sessions (db.enrolled agent at' freshID freshUID token) now := by
  have may : mayEnroll db session := ⟨unbound, Or.inr ⟨_, isUID, freshUID⟩⟩
  obtain ⟨presented, isToken, isID, usable⟩ := budgeted.usable session mem may
  have positive : 0 < pending sessions db presented.id :=
    List.length_pos_of_mem (List.mem_filter.mpr ⟨mem, decide_eq_true ⟨isID.symm, may⟩⟩)
  refine ⟨⟨presented, isToken, viaToken.trans isID.symm, usable, ?_⟩, ?_, ?_, ?_⟩
  · rcases budgeted.budget presented isToken with unlimited | within
    · exact Or.inl unlimited
    · exact Or.inr (by omega)
  · intro other isOther mayOther
    obtain ⟨row, isRow, rowID, rowUsable⟩ := budgeted.usable other isOther (mayOther.earlier mem_enrolled)
    refine ⟨counted agent.enrolledVia row, List.mem_map_of_mem isRow, by rw [counted_id, rowID], ?_⟩
    have customers : (db.enrolled agent at' freshID freshUID token).customers = db.customers := rfl
    have kept := usable_congr customers rowUsable
    unfold counted
    split
    · exact ⟨kept.notRevoked, kept.notExpired, kept.active⟩
    · exact kept
  · intro updated isUpdated
    obtain ⟨row, isRow, rfl⟩ := List.mem_map.mp isUpdated
    rw [counted_id]
    exact budgeted.usedOnce mem unbound isUID viaToken isRow
  · intro other isOther unboundOther limited first isFirst second isSecond firstFresh secondFresh
    rw [limits_enrolled] at limited
    exact budgeted.single other isOther unboundOther limited first isFirst second isSecond
      (fun old => firstFresh (mem_enrolled first old)) fun old => secondFresh (mem_enrolled second old)

end

end

end

/-! ## Steps -/

section

variable {env : Env} {tier next : Tier} {event : Event}

theorem enrolledUIDs_setStatus {db : FleetTables} {id : Uuid} {change : AgentStatus → AgentStatus}
    {events : List AgentEvent} : enrolledUIDs (db.setStatus id change events) = enrolledUIDs db := by
  simp [enrolledUIDs, setStatus]

theorem Budgeted.quiet {sessions : List Session} {now : Int} {before after : World} (quiet : Quiet before after)
    (budgeted : Budgeted sessions before.db now) : Budgeted sessions after.db now := by
  rcases quiet.tables with same | ⟨id, change, events, updated⟩
  · rw [same]
    exact budgeted
  · rw [updated]
    exact budgeted.same rfl rfl enrolledUIDs_setStatus

variable {handlers : Handlers}

theorem attended_advanced {job : Nat} (attended : Attended tier)
    (advanced : tier.handlers.advance job = some handlers) : Attended { tier with handlers := handlers } := by
  intro replica incoming change rest mem
  obtain ⟨purpose, change', rest', isJob, rfl⟩ := Pool.advance_cases advanced
  rcases List.mem_or_eq_of_mem_set mem with old | isNext
  · exact attended replica incoming change rest old
  · rw [Prod.mk.injEq] at isNext
    obtain ⟨rfl, _⟩ := isNext
    exact attended replica incoming change' rest' (List.mem_of_getElem? isJob)

theorem budgeted_advanced {job : Nat} (ready : Ready tier) (advanced : tier.handlers.advance job = some handlers) :
    Budgeted tier.sessions handlers.shared.db tier.now ∧ EnrollsProperly tier { tier with handlers := handlers } := by
  obtain ⟨_, purpose, rest, isJob, guarantee⟩ := promising_advanced ready.orderly.promising advanced
  obtain ⟨purpose', change, rest', isJob', _⟩ := Pool.advance_cases advanced
  rw [isJob] at isJob'
  cases isJob'
  -- An action that keeps the UIDs enrolls no one.
  have none : enrolledUIDs handlers.shared.db = enrolledUIDs tier.world.db →
      EnrollsProperly tier { tier with handlers := handlers } := by
    intro uids agent mem fresh
    have enrolled : agent.instanceUID ∈ enrolledUIDs handlers.shared.db := List.mem_map_of_mem mem
    rw [uids] at enrolled
    exact absurd enrolled fresh
  have quietly : Quiet tier.world handlers.shared →
      Budgeted tier.sessions handlers.shared.db tier.now ∧ EnrollsProperly tier { tier with handlers := handlers } := by
    intro quiet
    refine ⟨ready.budgeted.quiet quiet, none ?_⟩
    rcases quiet.tables with same | ⟨id, change, events, updated⟩
    · rw [same]
    · rw [updated]
      exact enrolledUIDs_setStatus
  cases purpose with
  | close replica conn | push replica customerID => exact quietly guarantee
  | message replica incoming =>
    have genuine := ready.orderly.messages replica incoming _ (List.mem_of_getElem? isJob)
    obtain ⟨session, isOpen, _, sameAuth, isCarried⟩ :=
      ready.attended replica incoming change rest' (List.mem_of_getElem? isJob)
    have tables := Touches.tables guarantee
    generalize isAfter : handlers.shared.db = after at tables
    cases tables with
    | same => exact ⟨ready.budgeted, none (by rw [isAfter])⟩
    | status bound admits change events =>
      exact ⟨ready.budgeted.same rfl rfl enrolledUIDs_setStatus, none (by rw [isAfter, enrolledUIDs_setStatus])⟩
    | @enrolled agent at' isUID isCustomer viaToken freshID freshUID token =>
      have unbound : session.auth.agentID = Option.none := by
        cases isOwn : session.auth.agentID with
        | none => rfl
        | some own =>
          -- The nil UUID is no token's.
          obtain ⟨row, mem, isToken⟩ := token
          refine absurd (List.mem_map.mpr ⟨row, mem, ?_⟩) ready.orderly.tokens
          rw [isToken, viaToken]
          exact (genuine own (by rw [sameAuth, isOwn])).2
      obtain ⟨⟨presented, isToken, isID, usable, spare⟩, budgeted⟩ :=
        @Budgeted.enrolled session tier.sessions tier.world.db tier.now agent at' freshID freshUID token ready.budgeted
          isOpen unbound (by rw [isUID]; exact isCarried) (by rw [viaToken, sameAuth])
      refine ⟨budgeted, fun new mem fresh => ?_⟩
      change new ∈ handlers.shared.db.agents at mem
      rw [isAfter] at mem
      rcases List.mem_append.mp mem with old | isNew
      · exact absurd (List.mem_map_of_mem old) fresh
      · cases List.mem_singleton.mp isNew
        exact ⟨presented, isToken, by rw [← isID]; rfl, usable, spare⟩

variable {sessions : List Session}

theorem attended_started (attended : Attended tier) {purpose : Purpose} {program : Prog World (Option ServerToAgent)}
    (kept : ∀ session ∈ tier.sessions, ∃ later ∈ sessions, later.conn = session.conn ∧ later.auth = session.auth ∧
      ∀ uid ∈ session.uids, uid ∈ later.uids)
    (new : ∀ replica incoming, purpose = .message replica incoming → ∃ session ∈ sessions,
      incoming.conn = some session.conn ∧ incoming.auth = session.auth ∧ incoming.msg.instanceUID ∈ session.uids) :
    Attended { tier.start purpose program with sessions := sessions } := by
  intro replica incoming change rest mem
  rcases List.mem_append.mp mem with old | isNew
  · obtain ⟨session, isOpen, isConn, isAuth, isCarried⟩ := attended replica incoming change rest old
    obtain ⟨later, isLater, sameConn, sameAuth, carries⟩ := kept session isOpen
    exact ⟨later, isLater, by rw [isConn, sameConn], by rw [isAuth, sameAuth], carries _ isCarried⟩
  · rw [List.mem_singleton, Prod.mk.injEq] at isNew
    exact new replica incoming isNew.1.symm

theorem mem_carry (mem : session ∈ sessions) (conn : Conn) (uid : Bytes) :
    ∃ later ∈ carry conn uid sessions, later.conn = session.conn ∧ later.auth = session.auth ∧
      (∀ old ∈ session.uids, old ∈ later.uids) ∧ (session.conn = conn → uid ∈ later.uids) := by
  refine ⟨_, List.mem_map_of_mem mem, ?_⟩
  split
  · exact ⟨rfl, rfl, fun old isOld => List.mem_append_left _ isOld,
      fun _ => List.mem_append_right _ (List.mem_singleton.mpr rfl)⟩
  · rename_i other
    exact ⟨rfl, rfl, fun old isOld => isOld, fun isConn => absurd isConn other⟩

theorem attended_closed (attended : Attended tier) (idle : tier.busy session.conn = false)
    (program : Prog World (Option ServerToAgent)) :
    Attended { tier.start (.close session.replica session.conn) program with
      sessions := tier.sessions.filter fun other => other.conn ≠ session.conn } := by
  intro replica incoming change rest mem
  rcases List.mem_append.mp mem with old | isNew
  · obtain ⟨other, isOpen, isConn, isAuth, isCarried⟩ := attended replica incoming change rest old
    refine ⟨other, List.mem_filter.mpr ⟨isOpen, decide_eq_true fun same => ?_⟩, isConn, isAuth, isCarried⟩
    have pending : tier.busy session.conn = true :=
      List.any_eq_true.mpr ⟨_, old, by simp [isPending, isConn, same]⟩
    rw [idle] at pending
    cases pending
  · rw [List.mem_singleton, Prod.mk.injEq] at isNew
    cases isNew.1

theorem ready_step (careful : Careful env tier event) (step : Tier.Step env tier event next) (ready : Ready tier) :
    Ready next := by
  have orderly : Orderly (fun _ _ => True) next := by
    refine orderly_step ?_ step ready.orderly
    cases event <;> first | trivial | exact fun _ _ _ => trivial
  cases step with
  | @accepted replica conn authorization auth world fresh isAuth =>
    obtain ⟨_, _, spec⟩ := @authenticate_spec env tier.now tier.world authorization
    have bound := spec auth (by rw [isAuth])
    obtain ⟨calls, rfl⟩ := authenticate_world isAuth
    refine ⟨orderly, ?_, fun somewhere incoming change rest mem => ?_⟩
    · apply ready.budgeted.opened rfl
      intro may
      rcases bound with viaAgent | ⟨text, token, isText, via⟩
      · exact absurd may.1 (Option.isSome_iff_ne_none.mp viaAgent.agentID)
      · exact ⟨token, via.member, via.tokenID, via.usable, via.unexhausted.imp_right
          (careful text isText token via.member via.tokenHash via.usable)⟩
    · obtain ⟨session, isOpen, facts⟩ := ready.attended somewhere incoming change rest mem
      exact ⟨session, List.mem_append_left _ isOpen, facts⟩
  | @refused replica conn authorization err world isRefused =>
    obtain ⟨calls, rfl⟩ := authenticate_world isRefused
    exact ⟨orderly, ready.budgeted, ready.attended⟩
  | @message session msg newID token isOpen =>
    refine ⟨orderly, ready.budgeted.carried careful, attended_started ready.attended ?_ ?_⟩
    · intro other isOther
      obtain ⟨later, isLater, sameConn, sameAuth, carries, _⟩ := mem_carry isOther session.conn msg.instanceUID
      exact ⟨later, isLater, sameConn, sameAuth, carries⟩
    · intro replica incoming same
      cases same
      obtain ⟨later, isLater, sameConn, sameAuth, _, carried⟩ := mem_carry isOpen session.conn msg.instanceUID
      exact ⟨later, isLater, by rw [sameConn]; rfl, by rw [sameAuth]; rfl, carried rfl⟩
  | @close session isOpen idle =>
    exact ⟨orderly, ready.budgeted.closed List.filter_sublist, attended_closed ready.attended idle _⟩
  | push replica customerID =>
    refine ⟨orderly, ready.budgeted, attended_started ready.attended (fun session isOpen => ?_) fun _ _ same => ?_⟩
    · exact ⟨session, isOpen, rfl, rfl, fun _ isUID => isUID⟩
    · cases same
  | commit edgeConfig => exact ⟨orderly, ready.budgeted, ready.attended⟩
  | @revoke customerID tokenID db isRevoked =>
    obtain ⟨tokens, agents, customers⟩ := revokeBootstrapToken_ok isRevoked
    exact ⟨orderly, ready.budgeted.revoked careful tokens agents customers, ready.attended⟩
  | @setStatus customerID status db changed =>
    obtain ⟨tokens, agents, customers⟩ := setCustomerStatus_ok changed
    exact ⟨orderly, ready.budgeted.statusSet careful tokens agents customers, ready.attended⟩
  | tick later isLater => exact ⟨orderly, ready.budgeted.ticked careful, ready.attended⟩
  | @advance job handlers advanced =>
    exact ⟨orderly, (budgeted_advanced ready advanced).1, attended_advanced ready.attended advanced⟩

theorem enrollsProperly_step (step : Tier.Step env tier event next) (ready : Ready tier) :
    EnrollsProperly tier next := by
  have none : next.world.db.agents = tier.world.db.agents → EnrollsProperly tier next := by
    intro same agent mem fresh
    rw [same] at mem
    exact absurd (List.mem_map_of_mem mem) fresh
  cases step with
  | @accepted replica conn authorization auth world fresh isAuth =>
    obtain ⟨calls, rfl⟩ := authenticate_world isAuth
    exact none rfl
  | @refused replica conn authorization err world isRefused =>
    obtain ⟨calls, rfl⟩ := authenticate_world isRefused
    exact none rfl
  | message msg newID token isOpen | close isOpen idle | push replica customerID | commit edgeConfig => exact none rfl
  | revoke isRevoked => exact none (revokeBootstrapToken_ok isRevoked).2.1
  | setStatus changed => exact none (setCustomerStatus_ok changed).2.1
  | tick later isLater => exact none rfl
  | advance advanced => exact (budgeted_advanced ready advanced).2

end

/-! ## Runs -/

theorem Begins.ready {tier : Tier} (begins : Begins tier) (within : WithinLimits tier.world.db) : Ready tier where
  orderly := begins.orderly fun _ _ _ => trivial
  budgeted := by
    rw [begins.disconnected]
    refine ⟨fun session mem => ?_, fun token mem => ?_, fun session mem => ?_⟩
    · cases mem
    · exact within token mem
    · cases mem
  attended replica incoming change rest mem := by
    rw [begins.idle] at mem
    cases mem

/-- In every run of careful steps no token is used more often than it may be, and
    whatever step comes next, an agent that it enrolls has a usable token with a use
    left. -/
theorem enrollment_respects_token {env : Env} {start tier : Tier} {events : List Event} (begins : Begins start)
    (within : WithinLimits start.world.db)
    (run : Run (Restricted (Careful env) (Tier.Step env)) start events tier) :
    WithinLimits tier.world.db ∧ ∀ event next, Tier.Step env tier event next → EnrollsProperly tier next := by
  have ready : Ready tier := by
    apply run.invariant
    · intro state event next step ready
      exact ready_step step.1 step.2 ready
    · exact Begins.ready begins within
  refine ⟨fun token mem => ?_, fun event next step => enrollsProperly_step step ready⟩
  exact (ready.budgeted.budget token mem).imp_right fun fits => by omega

def contact (count : Nat) : Tier := (acmeTier.performAll acmeEnv (firstContact.take count)).getD acmeTier

theorem firstContact_careful : Run (Restricted (Careful acmeEnv) (Tier.Step acmeEnv)) acmeTier firstContact enrolling := by
  have connects : Careful acmeEnv acmeTier (.connect 0 ⟨1⟩ acmeHeader) := by
    intro text _ token mem _
    cases List.mem_singleton.mp mem
    exact fun _ _ => by decide
  have greets : Careful acmeEnv (contact 1) (.message ⟨1⟩ (hello [5]) firstID (.error "")) := by
    intro session mem _ _
    cases List.mem_singleton.mp mem
    exact Or.inl fun uid isUID => absurd isUID List.not_mem_nil
  have first : Tier.Step acmeEnv acmeTier (.connect 0 ⟨1⟩ acmeHeader) (contact 1) := Tier.step_of_perform rfl
  have second : Tier.Step acmeEnv (contact 1) (.message ⟨1⟩ (hello [5]) firstID (.error "")) (contact 2) :=
    Tier.step_of_perform rfl
  have third : Tier.Step acmeEnv (contact 2) (.advance 0) (contact 3) := Tier.step_of_perform rfl
  have fourth : Tier.Step acmeEnv (contact 3) (.advance 0) enrolling := Tier.step_of_perform rfl
  exact .step ⟨connects, first⟩ (.step ⟨greets, second⟩ (.step ⟨trivial, third⟩ (.step ⟨trivial, fourth⟩ (.refl _))))

theorem acme_enrollment_proper : ∃ next, Tier.Step acmeEnv enrolling (.advance 0) next ∧
    next.world.db.agents.length = 1 ∧ EnrollsProperly enrolling next := by
  have proper := (enrollment_respects_token acmeTier_begins (by decide) firstContact_careful).2
  have step : Tier.Step acmeEnv enrolling (.advance 0) ((enrolling.perform acmeEnv (.advance 0)).getD enrolling) :=
    Tier.step_of_perform rfl
  exact ⟨_, step, rfl, proper _ _ step⟩

def twoAgents : List Event :=
  firstContact ++ [.advance 0, .advance 0, .advance 0, .message ⟨1⟩ (hello [6]) secondID (.error ""),
    .advance 1, .advance 1, .advance 1]

def overused : Tier := (acmeTier.performAll acmeEnv twoAgents).getD acmeTier

/-- A token for one agent enrolls two. -/
theorem acmeToken_overused : Begins acmeTier ∧ WithinLimits acmeTier.world.db ∧
    Run (Tier.Step acmeEnv) acmeTier twoAgents overused ∧ ¬ WithinLimits overused.world.db :=
  ⟨acmeTier_begins, by decide, Tier.run_of_performAll rfl, by decide⟩

end OtelFleet.Verified.Enrollment
