import OtelFleet.Data.Rows
import OtelFleet.OpAMP.Tier
import OtelFleet.Verified.MessageActions

/-! # Runs of the OpAMP tier

What every handler promises to the others, and what holds in every state that the
tier can reach because they keep their promises.
-/

namespace OtelFleet.Verified.TierRuns

open OpAMP Semantics Store Store.FleetTables
open Verified.MessageActions Verified.MessageRules

/-! ## The other handlers -/

/-- What an action of the other handlers may do: update status columns and drop
    entries. -/
structure Quiet (before after : World) : Prop where
  tables : after.db = before.db ∨ ∃ id change events, after.db = before.db.setStatus id change events
  entries : ∀ replica uid st, (after.registries replica).get uid = some st →
    (before.registries replica).get uid = some st
  edgeConfig : after.edgeConfig = before.edgeConfig

variable {after before : World}

theorem Quiet.keysGrow (quiet : Quiet before after) : KeysGrow before after := by
  intro agent mem
  rcases quiet.tables with same | ⟨id, change, events, updated⟩
  · rw [same]
    exact ⟨agent, mem, rfl⟩
  · rw [updated]
    exact mem_setStatus mem

theorem Quiet.consistent {had : Uuid → String → Prop} {before after : World} (quiet : Quiet before after)
    (consistent : Consistent had before) : Consistent had after where
  entries replica uid st found := by
    obtain ⟨isUID, bound⟩ := consistent.entries replica uid st (quiet.entries replica uid st found)
    exact ⟨isUID, bound.grow quiet.keysGrow⟩
  configs customerID text rendered := consistent.configs customerID text (by rw [← quiet.edgeConfig]; exact rendered)

section

variable {α β : Type} {had : Uuid → String → Prop} {env : Env} {world : World}

abbrev Quietly (had : Uuid → String → Prop) (program : Prog World α) (world : World) : Prop :=
  Prog.Meets (Consistent had) KeysGrow Quiet (fun _ _ => True) program world

theorem quietly_pure (value : α) : Quietly had (pure value) world := Prog.meets_pure trivial

theorem Quietly.bind {program : Prog World β} {following : β → Prog World α} (first : Quietly had program world)
    (rest : ∀ value now, Quietly had (following value) now) : Quietly had (program >>= following) world :=
  Prog.Meets.bind first fun value now _ => rest value now

theorem quietly_atomically {action : World → α × World} (quiet : ∀ now, Quiet now (action now).2) :
    Quietly had (Prog.atomically action) world := by
  apply Prog.meets_atomically
  intro now _ consistent
  exact ⟨quiet now, (quiet now).consistent consistent, trivial⟩

theorem quiet_of_same (db : after.db = before.db) (registries : after.registries = before.registries)
    (edgeConfig : after.edgeConfig = before.edgeConfig) : Quiet before after where
  tables := Or.inl db
  entries replica uid st found := by rwa [registries] at found
  edgeConfig := edgeConfig

theorem quietly_exec {call : FleetTables → Except StoreError (α × FleetTables)}
    (updates : ∀ db value db', call db = .ok (value, db') → ∃ id change events, db' = db.setStatus id change events) :
    Quietly had (exec env call) world := by
  apply quietly_atomically
  intro now
  rcases written_cases env call now with ⟨err, failed⟩ | ⟨value, db, called, succeeded⟩
  · rw [failed]
    exact quiet_of_same rfl rfl rfl
  · rw [succeeded]
    exact ⟨Or.inr (updates now.db value db called), fun _ _ _ found => found, rfl⟩

theorem quietly_handleConnectionClose (replica : Nat) (conn : Conn) (now : Int) :
    Quietly had (handleConnectionClose env replica conn now) world := by
  apply Quietly.bind
  · apply quietly_atomically
    intro before
    refine ⟨Or.inl rfl, fun somewhere uid st found => ?_, rfl⟩
    by_cases here : somewhere = replica
    · subst here
      dsimp only [World.setRegistry] at found
      rw [Function.update_self] at found
      exact Registry.get_of_removeConn found
    · dsimp only [World.setRegistry] at found
      rwa [Function.update_of_ne here] at found
  · intro removed later
    cases removed with
    | none => exact quietly_pure ()
    | some st =>
      dsimp only
      split
      · exact quietly_pure ()
      · apply Quietly.bind
        · apply quietly_exec
          intro db value db' marked
          exact ⟨_, _, _, updateAgent_ok marked⟩
        · intro _ _
          exact quietly_atomically fun _ => quiet_of_same rfl rfl rfl

def quietPushes (had : Uuid → String → Prop) : PushRules where
  inv := Consistent had
  rely := KeysGrow
  guar := Quiet
  aside before after aside consistent := by
    have quiet : Quiet before after := quiet_of_same aside.db aside.registries aside.edgeConfig
    exact ⟨quiet, quiet.consistent consistent⟩
  assigned world id hash consistent := by
    have quiet : Quiet world { world with
        calls := world.calls + 1
        db := world.db.setStatus id (fun agent => { agent with assignedConfigHash := some hash }) [] } :=
      ⟨Or.inr ⟨id, _, [], rfl⟩, fun _ _ _ found => found, rfl⟩
    exact ⟨quiet, quiet.consistent consistent⟩

end

/-! ## All handlers together -/

def Guarantee : Purpose → World → World → Prop
  | .message replica incoming => Touches replica incoming.auth incoming.msg.instanceUID
  | .close _ _ => Quiet
  | .push _ _ => Quiet

variable (had : Uuid → String → Prop)

def Outcome : Purpose → Option ServerToAgent → World → Prop
  | .message _ incoming, some resp, _ => OffersOwn had incoming.auth.customerID resp
  | _, _, _ => True

theorem Guarantee.keysGrow {purpose : Purpose} (guarantee : Guarantee purpose before after) : KeysGrow before after := by
  cases purpose with
  | message replica incoming => exact Touches.keysGrow guarantee
  | close replica conn | push replica customerID => exact Quiet.keysGrow guarantee

theorem program_meets {had : Uuid → String → Prop} (env : Env) (purpose : Purpose) (now : Int) (world : World) :
    Prog.Meets (Consistent had) KeysGrow (Guarantee purpose) (Outcome had purpose) (program env purpose now) world := by
  cases purpose with
  | message replica incoming =>
    apply Prog.Meets.bind (handleMessage_meets world)
    intro resp later own
    exact Prog.meets_pure own
  | close replica conn =>
    apply Prog.Meets.bind (quietly_handleConnectionClose replica conn now)
    intro _ later _
    exact Prog.meets_pure trivial
  | push replica customerID =>
    apply Prog.Meets.bind (@pushes_edgeConfigChanged (quietPushes had) env world replica customerID)
    intro _ later _
    exact Prog.meets_pure trivial

abbrev Promising (handlers : Handlers) : Prop :=
  Pool.Promising (Consistent had) KeysGrow Guarantee (Outcome had) handlers

variable {world : World}

section

variable {had : Uuid → String → Prop} {tier : Tier}

theorem outcome_stable (purpose : Purpose) (value : Option ServerToAgent) (before after : World)
    (_ : KeysGrow before after) (holds : Outcome had purpose value before) : Outcome had purpose value after := by
  cases purpose with
  | message replica incoming =>
    cases value with
    | none => trivial
    | some resp => exact holds
  | close replica conn | push replica customerID => trivial

section

variable (promising : Promising had tier.handlers)
include promising

theorem promising_moved (grows : KeysGrow tier.world world) (consistent : Consistent had world) :
    Promising had (tier.setWorld world).handlers :=
  Pool.Promising.moved keysGrow_trans outcome_stable promising grows consistent

theorem promising_aside (agents : world.db.agents = tier.world.db.agents)
    (registries : world.registries = tier.world.registries) (edgeConfig : world.edgeConfig = tier.world.edgeConfig) :
    Promising had (tier.setWorld world).handlers := by
  have grows : KeysGrow tier.world world := by
    intro agent mem
    rw [agents]
    exact ⟨agent, mem, rfl⟩
  have consistent : Consistent had tier.world := promising.1
  exact promising_moved promising grows (consistent.of_tables grows registries edgeConfig)

theorem promising_advanced {job : Nat} {handlers : Handlers} (advanced : tier.handlers.advance job = some handlers) :
    Promising had handlers ∧ ∃ purpose rest, tier.handlers.jobs[job]? = some (purpose, rest) ∧
      Guarantee purpose tier.world handlers.shared :=
  Pool.Promising.advanced keysGrow_refl keysGrow_trans outcome_stable
    (fun _ _ _ _ guarantee => guarantee.keysGrow) promising advanced

end

end

/-! ## Authentication -/

variable {db : FleetTables}

section

variable {env : Env} {authorization : String} {now : Int} {world : World}

/-- The binding of an agent's own token, which names no bootstrap token. -/
structure ViaAgent (auth : ConnAuth) : Prop where
  agentID : auth.agentID.isSome = true
  viaAgentToken : auth.viaAgentToken = true
  tokenID : auth.tokenID = Uuid.nil

/-- The token may enroll agents of its customer now. -/
structure Usable (db : FleetTables) (now : Int) (token : BootstrapToken) : Prop where
  notRevoked : token.revokedAt = none
  notExpired : now < token.expiresAt
  active : db.customerStatus token.customerID = some .active

/-- The binding of a bootstrap token: the token was usable and not exhausted. -/
structure ViaBootstrap (db : FleetTables) (now : Int) (hash : Bytes) (auth : ConnAuth) (token : BootstrapToken) :
    Prop where
  member : token ∈ db.tokens
  tokenID : token.id = auth.tokenID
  tokenHash : token.tokenHash = hash
  usable : Usable db now token
  unexhausted : token.maxUses = 0 ∨ token.usedCount < token.maxUses
  agentID : auth.agentID = none

variable (tokenPrefix token : String)

theorem authenticateAgentToken_spec :
    ∃ calls, ((authenticateAgentToken env tokenPrefix token).run world).2 = { world with calls := calls } ∧
      ∀ auth, ((authenticateAgentToken env tokenPrefix token).run world).1 = .ok auth → ViaAgent auth := by
  unfold authenticateAgentToken
  rw [Prog.run_bind]
  dsimp only [query, Prog.run_atomically]
  use world.calls + 1
  cases env.queryFaults world.calls with
  | some err => exact ⟨rfl, fun _ isAuth => nomatch isAuth⟩
  | none =>
    dsimp only
    split
    · exact ⟨rfl, fun _ isAuth => nomatch isAuth⟩
    · split
      · exact ⟨rfl, fun _ isAuth => nomatch isAuth⟩
      · refine ⟨rfl, fun auth isAuth => ?_⟩
        cases isAuth
        exact ⟨rfl, rfl, rfl⟩

theorem mem_activeBootstrapTokens {tokenPrefix : String} {found : EnrollToken}
    (mem : found ∈ db.activeBootstrapTokensByPrefix tokenPrefix) :
    ∃ token ∈ db.tokens, token.revokedAt = none ∧ ∃ status, db.customerStatus token.customerID = some status ∧
      found = ⟨token.id, token.customerID, token.tokenHash, token.maxUses, token.usedCount, token.expiresAt, status⟩ := by
  obtain ⟨token, isToken, isRow⟩ := List.mem_filterMap.mp mem
  obtain ⟨isMember, selected⟩ := List.mem_filter.mp isToken
  obtain ⟨status, isStatus, same⟩ := Option.map_eq_some_iff.mp isRow
  exact ⟨token, isMember, (of_decide_eq_true selected).2, status, isStatus, same.symm⟩

theorem authenticateBootstrapToken_spec :
    ∃ calls, ((authenticateBootstrapToken env tokenPrefix token now).run world).2 = { world with calls := calls } ∧
      ∀ auth, ((authenticateBootstrapToken env tokenPrefix token now).run world).1 = .ok auth →
        ∃ row, ViaBootstrap world.db now (env.sha256 token) auth row := by
  unfold authenticateBootstrapToken
  rw [Prog.run_bind]
  dsimp only [query, Prog.run_atomically]
  use world.calls + 1
  cases env.queryFaults world.calls with
  | some err => exact ⟨rfl, fun _ isAuth => nomatch isAuth⟩
  | none =>
    dsimp only
    split
    · exact ⟨rfl, fun _ isAuth => nomatch isAuth⟩
    · rename_i found isFound
      split
      · exact ⟨rfl, fun _ isAuth => nomatch isAuth⟩
      · rename_i isUsable
        refine ⟨rfl, fun auth isAuth => ?_⟩
        cases isAuth
        obtain ⟨row, mem, notRevoked, status, isStatus, rfl⟩ :=
          mem_activeBootstrapTokens (List.mem_of_find?_eq_some isFound)
        have sameHash : row.tokenHash = env.sha256 token := by simpa using List.find?_some isFound
        obtain ⟨notExpired, unexhausted, active⟩ := Tenants.tokenUsable_ok_iff.mp isUsable
        dsimp only at notExpired unexhausted active
        exact ⟨row, mem, rfl, sameHash, ⟨notRevoked, notExpired, by rw [isStatus, active]⟩, unexhausted, rfl⟩

/-- Authentication only counts its calls, and binds a connection to an agent's own
    token or to a bootstrap token that is usable then. -/
theorem authenticate_spec (authorization : String) :
    ∃ calls, ((authenticate env authorization now).run world).2 = { world with calls := calls } ∧
      ∀ auth, ((authenticate env authorization now).run world).1 = .ok auth →
        ViaAgent auth ∨ ∃ token row, bearerToken authorization = some token ∧
          ViaBootstrap world.db now (env.sha256 token) auth row := by
  unfold authenticate
  split
  · exact ⟨world.calls, rfl, fun _ isAuth => nomatch isAuth⟩
  · rename_i token isToken
    split
    · obtain ⟨calls, isWorld, spec⟩ := @authenticateAgentToken_spec env world ‹String› token
      exact ⟨calls, isWorld, fun auth isAuth => Or.inl (spec auth isAuth)⟩
    · rename_i tokenPrefix _ _
      obtain ⟨calls, isWorld, spec⟩ := @authenticateBootstrapToken_spec env now world tokenPrefix token
      refine ⟨calls, isWorld, fun auth isAuth => ?_⟩
      obtain ⟨row, via⟩ := spec auth isAuth
      exact Or.inr ⟨token, row, isToken, via⟩
    · exact ⟨world.calls, rfl, fun _ isAuth => nomatch isAuth⟩

theorem authenticate_world {res : Except AuthError ConnAuth}
    (ran : (authenticate env authorization now).run world = (res, after)) : ∃ calls, after = { world with calls := calls } := by
  obtain ⟨calls, isWorld, _⟩ := @authenticate_spec env now world authorization
  rw [ran] at isWorld
  exact ⟨calls, isWorld⟩

end

/-! ## States of a run -/

/-- A connection that is bound to an agent names no bootstrap token. -/
def Genuine (auth : ConnAuth) : Prop :=
  ∀ own, auth.agentID = some own → auth.viaAgentToken = true ∧ auth.tokenID = Uuid.nil

theorem authenticate_genuine {env : Env} {authorization : String} {now : Int} {auth : ConnAuth}
    (isAuth : (authenticate env authorization now).run world = (.ok auth, after)) : Genuine auth := by
  obtain ⟨_, _, spec⟩ := @authenticate_spec env now world authorization
  rcases spec auth (by rw [isAuth]) with viaAgent | ⟨_, _, _, viaBootstrap⟩
  · exact fun own _ => ⟨viaAgent.viaAgentToken, viaAgent.tokenID⟩
  · intro own isOwn
    rw [viaBootstrap.agentID] at isOwn
    cases isOwn

/-- What holds in every state of a run.  No token has the nil UUID. -/
structure Orderly (had : Uuid → String → Prop) (tier : Tier) : Prop where
  promising : Promising had tier.handlers
  tokens : Uuid.nil ∉ tier.world.db.tokens.map BootstrapToken.id
  sessions : ∀ session ∈ tier.sessions, Genuine session.auth
  messages : ∀ replica incoming rest, (Purpose.message replica incoming, rest) ∈ tier.handlers.jobs →
    Genuine incoming.auth

variable {db' : FleetTables}

theorem TableChange.tokenIDs {auth : ConnAuth} {uid : Bytes} (changed : TableChange auth uid db db') :
    db'.tokens.map BootstrapToken.id = db.tokens.map BootstrapToken.id := by
  cases changed with
  | same | status => rfl
  | enrolled => simp [FleetTables.enrolled]

theorem Quiet.tokens (quiet : Quiet before after) : after.db.tokens = before.db.tokens := by
  rcases quiet.tables with same | ⟨id, change, events, updated⟩
  · rw [same]
  · rw [updated]
    rfl

theorem Guarantee.tokenIDs {purpose : Purpose} (guarantee : Guarantee purpose before after) :
    after.db.tokens.map BootstrapToken.id = before.db.tokens.map BootstrapToken.id := by
  cases purpose with
  | message replica incoming => exact TableChange.tokenIDs (Touches.tables guarantee)
  | close replica conn | push replica customerID => rw [Quiet.tokens guarantee]

theorem revokeBootstrapToken_ok {customerID tokenID : Uuid} {now : Int}
    (isRevoked : db.revokeBootstrapToken customerID tokenID now = .ok ((), db')) :
    db'.tokens = db.tokens.map (revoked customerID tokenID now) ∧ db'.agents = db.agents ∧
      db'.customers = db.customers := by
  unfold revokeBootstrapToken at isRevoked
  split at isRevoked
  · cases isRevoked
    exact ⟨rfl, rfl, rfl⟩
  · cases isRevoked

theorem setCustomerStatus_ok {id : Uuid} {status : CustomerStatus}
    (changed : db.setCustomerStatus id status = .ok ((), db')) :
    db'.tokens = db.tokens ∧ db'.agents = db.agents ∧ db'.customers = db.customers.map fun customer =>
      if customer.id = id ∧ customer.status ≠ .deleted then { customer with status := status } else customer := by
  unfold setCustomerStatus at changed
  split at changed
  · cases changed
    exact ⟨rfl, rfl, rfl⟩
  · cases changed

def CommitsHad : Event → Prop
  | .commit edgeConfig => ∀ customerID text, edgeConfig customerID = .ok text → had customerID text
  | _ => True

section

variable {had : Uuid → String → Prop} {env : Env} {tier next : Tier} {event : Event}

theorem Orderly.started (orderly : Orderly had tier) (purpose : Purpose)
    (genuine : ∀ replica incoming, purpose = .message replica incoming → Genuine incoming.auth) :
    Orderly had (tier.start purpose (program env purpose tier.now)) where
  promising := orderly.promising.started (program_meets env purpose tier.now tier.world)
  tokens := orderly.tokens
  sessions := orderly.sessions
  messages replica incoming rest mem := by
    rcases List.mem_append.mp mem with old | new
    · exact orderly.messages replica incoming rest old
    · rw [List.mem_singleton] at new
      cases new
      exact genuine replica incoming rfl

theorem Orderly.aside (orderly : Orderly had tier) (agents : world.db.agents = tier.world.db.agents)
    (tokens : world.db.tokens.map BootstrapToken.id = tier.world.db.tokens.map BootstrapToken.id)
    (registries : world.registries = tier.world.registries) (edgeConfig : world.edgeConfig = tier.world.edgeConfig) :
    Orderly had (tier.setWorld world) where
  promising := promising_aside orderly.promising agents registries edgeConfig
  tokens := by
    change Uuid.nil ∉ world.db.tokens.map BootstrapToken.id
    rw [tokens]
    exact orderly.tokens
  sessions := orderly.sessions
  messages := orderly.messages

theorem orderly_step (commits : CommitsHad had event) (step : Tier.Step env tier event next)
    (orderly : Orderly had tier) : Orderly had next := by
  cases step with
  | @accepted replica conn authorization auth world fresh isAuth =>
    obtain ⟨calls, rfl⟩ := authenticate_world isAuth
    have aside : Orderly had (tier.setWorld { tier.world with calls := calls }) := orderly.aside rfl rfl rfl rfl
    exact ⟨aside.promising, aside.tokens, Data.forall_mem_append_row orderly.sessions (authenticate_genuine isAuth),
      aside.messages⟩
  | @refused replica conn authorization err world isRefused =>
    obtain ⟨calls, rfl⟩ := authenticate_world isRefused
    exact orderly.aside rfl rfl rfl rfl
  | @message session msg newID token isOpen =>
    have genuine : Genuine session.auth := orderly.sessions session isOpen
    have started : Orderly had (tier.start _ _) :=
      @Orderly.started had env tier orderly (.message session.replica (session.incoming msg tier.now newID token))
        fun replica incoming same => by cases same; exact genuine
    refine ⟨started.promising, started.tokens, fun other mem => ?_, started.messages⟩
    obtain ⟨old, isOld, rfl⟩ := List.mem_map.mp mem
    split <;> exact orderly.sessions old isOld
  | @close session isOpen idle =>
    have started : Orderly had (tier.start _ _) :=
      @Orderly.started had env tier orderly (.close session.replica session.conn) fun _ _ same => nomatch same
    exact ⟨started.promising, started.tokens,
      fun other mem => orderly.sessions other (List.mem_filter.mp mem).1, started.messages⟩
  | push replica customerID => exact orderly.started (.push replica customerID) fun _ _ same => nomatch same
  | commit edgeConfig =>
    have consistent : Consistent had tier.world := orderly.promising.1
    exact ⟨promising_moved orderly.promising (keysGrow_refl _) ⟨consistent.entries, commits⟩, orderly.tokens,
      orderly.sessions, orderly.messages⟩
  | @revoke customerID tokenID db isRevoked =>
    obtain ⟨tokens, agents, _⟩ := revokeBootstrapToken_ok isRevoked
    refine orderly.aside agents ?_ rfl rfl
    rw [tokens]
    simp [Function.comp_def]
  | @setStatus customerID status db changed =>
    obtain ⟨tokens, agents, _⟩ := setCustomerStatus_ok changed
    exact orderly.aside agents (by rw [tokens]) rfl rfl
  | tick later isLater => exact ⟨orderly.promising, orderly.tokens, orderly.sessions, orderly.messages⟩
  | @advance job handlers advanced =>
    obtain ⟨promising, purpose, rest, isJob, guarantee⟩ := promising_advanced orderly.promising advanced
    refine ⟨promising, ?_, orderly.sessions, fun replica incoming remaining mem => ?_⟩
    · change Uuid.nil ∉ handlers.shared.db.tokens.map BootstrapToken.id
      rw [guarantee.tokenIDs]
      exact orderly.tokens
    · obtain ⟨before, isBefore⟩ := Pool.advance_purpose advanced mem
      exact orderly.messages replica incoming before isBefore

end

/-! ## A small tier -/

def acme : Customer := ⟨⟨1⟩, "acme", "Acme", "acme-client", .active⟩

def acmeToken : BootstrapToken where
  id := ⟨2⟩
  customerID := ⟨1⟩
  name := "edge"
  tokenPrefix := "otm_bt_00000000"
  tokenHash := [7]
  maxUses := 1
  usedCount := 0
  expiresAt := 100
  revokedAt := none

def acmeTables : FleetTables where
  customers := [acme]
  tokens := [acmeToken]
  agents := []
  events := []
  tokens_id := by simp
  agents_id := by simp
  agents_uid := by simp
  agents_token := by simp

def acmeEnv : Env where
  sha256 _ := [7]
  formatTime _ := ""

def acmeTier : Tier where
  handlers := ⟨{ db := acmeTables, edgeConfig := fun _ => .ok "receivers" }, []⟩
  now := 10

def acmeAuth : ConnAuth where
  tokenID := ⟨2⟩
  customerID := ⟨1⟩

def acmeHeader : String := "Bearer otm_bt_00000000_s"

def hello (uid : Bytes) : AgentToServer where
  instanceUID := uid
  agentDescription := some {}

def firstID : NewUuid := ⟨⟨11⟩, by decide⟩

def secondID : NewUuid := ⟨⟨12⟩, by decide⟩

end OtelFleet.Verified.TierRuns
