import OtelFleet.Verified.Confinement
import OtelFleet.Verified.SteadyTier

/-! # Connected agents

Which runs of the tier keep the registries and the `connected` flags right.  On one
replica that handles one call after the other, it is enough that a connection speaks
for one agent.  With several replicas and handlers in turns, the handlers of one agent
must not overlap, and a connection may be reported closed only while no other replica
holds its agent.
-/

namespace OtelFleet.Verified.Connections

open OpAMP Semantics Store Store.FleetTables
open Verified.AgentPresence Verified.MessageRules Verified.SteadyTier
open Verified.TierRuns

/-! ## Steps -/

def oneUID (watched : Watched) : Event → Bool
  | .message conn msg _ _ =>
    ∀ session ∈ watched.tier.sessions, session.conn = conn → ∀ uid ∈ session.uids, uid = msg.instanceUID
  | _ => true

/-- The handlers of one agent do not overlap, and a connection is reported closed only
    while no other replica holds its agent. -/
def Exclusive (watched : Watched) : Event → Prop
  | .message _ msg _ _ => working watched msg.instanceUID = false
  | .close conn => ∀ session ∈ watched.tier.sessions, session.conn = conn → ∀ uid ∈ session.uids,
      working watched uid = false ∧
      ∀ replica, replica ≠ session.replica → (watched.tier.world.registries replica).get uid = none
  | _ => True

/-- The tier at its start: no connection, no handler, and no agent marked connected. -/
structure Offline (tier : Tier) : Prop where
  idle : tier.handlers.jobs = []
  disconnected : tier.sessions = []
  empty : ∀ replica, tier.world.registries replica = .empty
  agents : ∀ agent ∈ tier.world.db.agents, agent.connected = false ∧ agent.id ≠ Uuid.nil

structure Regular (watched : Watched) : Prop where
  steady : Steady watched
  unbound : Unbound watched

section

variable {env : Env} {watched next : Watched} {event : Event}

theorem Regular.setWorld (regular : Regular watched) {world : World} (agents : world.db.agents = watched.tier.world.db.agents)
    (registries : world.registries = watched.tier.world.registries) :
    Regular ⟨watched.tier.setWorld world, watched.ended⟩ :=
  ⟨regular.steady.setWorld fun _ => presence_congr agents registries,
    regular.unbound.setWorld fun _ => presence_congr agents registries⟩

theorem regular_step (succeeds : ∀ call, env.writeFaults call = none) (single : oneUID watched event = true)
    (exclusive : Exclusive watched event) (step : Watched.Step env watched event next) (regular : Regular watched) :
    Regular next := by
  obtain ⟨taken, fresh⟩ := step
  cases taken with
  | @accepted replica conn authorization auth world unused isAuth =>
    obtain ⟨calls, rfl⟩ := authenticate_world isAuth
    have aside : Regular ⟨watched.tier.setWorld { watched.tier.world with calls := calls }, watched.ended⟩ :=
      regular.setWorld rfl rfl
    have notEnded : ∀ other ∈ watched.ended, other.conn ≠ conn := by simpa [isFresh] using fresh
    exact ⟨@Steady.connect ⟨conn, replica, auth, []⟩ _ aside.steady rfl unused notEnded, aside.unbound⟩
  | @refused replica conn authorization err world isRefused =>
    obtain ⟨calls, rfl⟩ := authenticate_world isRefused
    exact regular.setWorld rfl rfl
  | @message session msg newID token isOpen =>
    have alone : ∀ other ∈ watched.tier.sessions, other.conn = session.conn → ∀ uid ∈ other.uids,
        uid = msg.instanceUID := by simpa [oneUID] using single
    exact ⟨steady_message succeeds regular.steady isOpen msg newID token exclusive alone, regular.unbound.start _ _⟩
  | @close session isOpen idle =>
    exact ⟨steady_close succeeds regular.steady isOpen idle (exclusive session isOpen rfl),
      unbound_close regular.steady regular.unbound isOpen watched.tier.now⟩
  | push replica customerID =>
    refine ⟨regular.steady.start ?_ ?_ ?_, regular.unbound.start _ _⟩
    · have pushes := @pushes_edgeConfigChanged gentlePushes env watched.tier.world replica customerID
      apply (pushes.weaken (fun _ _ _ => trivial) (fun _ _ same => same) fun _ _ ends => ends).bind
      intro _ now _
      apply Prog.meets_pure
      intro v isVisit
      cases isVisit
    · intro v isVisit
      cases isVisit
    · intro job _ _ v _ v' isVisit
      cases isVisit
  | commit edgeConfig => exact regular.setWorld rfl rfl
  | @revoke customerID tokenID db isRevoked => exact regular.setWorld (revokeBootstrapToken_ok isRevoked).2.1 rfl
  | @setStatus customerID status db changed => exact regular.setWorld (setCustomerStatus_ok changed).2.1 rfl
  | tick later isLater => exact ⟨regular.steady.tick later, regular.unbound⟩
  | @advance job handlers advanced =>
    exact ⟨steady_advance regular.steady advanced, unbound_advance regular.steady regular.unbound advanced⟩

theorem Offline.regular {start : Tier} (offline : Offline start) : Regular ⟨start, []⟩ := by
  have noEntry : ∀ uid replica, (presence uid start.world).entry replica = none := by
    intro uid replica
    simp only [presence, offline.empty]
    rfl
  have noBinding : ∀ uid replica conn, ¬ (presence uid start.world).bound replica conn := by
    intro uid replica conn bound
    simp only [presence, offline.empty] at bound
    cases bound
  have noJob : ∀ job, job ∉ start.handlers.jobs := by
    intro job mem
    rw [offline.idle] at mem
    cases mem
  have noSession : ∀ session, session ∉ Watched.sessions ⟨start, []⟩ := by
    intro session mem
    simp only [Watched.sessions, offline.disconnected, List.append_nil, List.not_mem_nil] at mem
  refine ⟨⟨?_, ?_, ?_, ?_, ?_, ?_, ?_⟩, fun session isEnded => nomatch isEnded⟩
  · simp [offline.disconnected]
  · exact fun session mem => absurd mem (noSession session)
  · exact fun replica conn uid bound => absurd bound (noBinding uid replica conn)
  · exact fun job mem => absurd mem (noJob job)
  · exact fun job mem => absurd mem (noJob job)
  · exact fun i j job job' _ isJob => absurd (List.mem_of_getElem? isJob) (noJob job)
  · intro uid _
    refine ConnectionHandlers.Nowhere.settled ⟨noEntry uid, noBinding uid⟩ fun id flag isRow => ?_
    obtain ⟨agent, found, same⟩ := Option.map_eq_some_iff.mp isRow
    cases same
    exact offline.agents agent (List.mem_of_find?_eq_some found)

end

/-! ## Reading a settled tier -/

section

variable {watched : Watched}

theorem Regular.open_of_bound (regular : Regular watched) {uid : Bytes} (idle : working watched uid = false)
    {replica : Nat} {conn : Conn} (bound : (presence uid watched.tier.world).bound replica conn) :
    ∃ session ∈ watched.tier.sessions, session.conn = conn ∧ session.replica = replica := by
  obtain ⟨session, mem, rfl, rfl, isAgent⟩ := regular.steady.bindings replica conn uid bound
  rcases List.mem_append.mp mem with isOpen | isEnded
  · exact ⟨session, isOpen, rfl, rfl⟩
  · -- Its close would be under way for the agent.
    refine absurd bound (regular.unbound session isEnded ?_ uid)
    intro job isJob underWay isClose
    obtain ⟨host, hosts⟩ := regular.steady.hosted job isJob underWay
      ⟨(watched.ended.find? fun other => other.conn = session.conn).bind Session.agent, session.replica, session.conn,
        true⟩ (by rw [isClose]; rfl)
    have same := regular.steady.unique hosts.mem_sessions mem hosts.conn
    subst same
    exact idle_iff.mp idle job isJob underWay _ (by rw [isClose]; rfl) (hosts.agent.symm.trans isAgent)

def Held (watched : Watched) (uid : Bytes) : Prop :=
  ∃ session ∈ watched.tier.sessions, ∃ st, (watched.tier.world.registries session.replica).get uid = some st ∧
    st.conn = some session.conn

theorem Regular.connected_iff (regular : Regular watched) {agent : Agent}
    (mem : agent ∈ watched.tier.world.db.agents) (idle : working watched agent.instanceUID = false) :
    agent.connected = true ↔ Held watched agent.instanceUID := by
  have settled := regular.steady.settled agent.instanceUID idle
  rw [settled.connected agent.id agent.connected (by simp only [presence, find_of_mem mem, Option.map_some])]
  constructor
  · rintro ⟨replica, hasEntry⟩
    obtain ⟨key, isEntry⟩ := Option.isSome_iff_exists.mp hasEntry
    obtain ⟨_, ⟨conn, isConn, bound⟩, _⟩ := settled.entries replica key isEntry
    obtain ⟨session, isOpen, rfl, rfl⟩ := regular.open_of_bound idle bound
    obtain ⟨st, found, rfl⟩ := Option.map_eq_some_iff.mp isEntry
    exact ⟨session, isOpen, st, found, isConn⟩
  · rintro ⟨session, _, st, found, _⟩
    refine ⟨session.replica, ?_⟩
    simp only [presence, found, Option.map_some, Option.isSome_some]

end

/-! ## One call after the other on one replica -/

def underWay (watched : Watched) : Bool :=
  watched.tier.handlers.jobs.any fun job => !job.2.isDone && (visit watched.ended job.1).isSome

/-- All connections go to one replica, and it handles one call after the other. -/
def oneCall (watched : Watched) : Event → Bool
  | .connect replica _ _ => replica = 0
  | .message _ _ _ _ => !underWay watched
  | .close _ => !underWay watched
  | _ => true

abbrev Called (env : Env) : Watched → Event → Watched → Prop :=
  Restricted (fun watched event => oneCall watched event = true) (Watched.Step env)

structure CleanedUp (watched : Watched) : Prop where
  reachable : ∀ uid st, (watched.tier.world.registries 0).get uid = some st →
    ∃ conn, st.conn = some conn ∧ (watched.tier.world.registries 0).byConn.lookup conn = some uid
  registered : ∀ conn uid, (watched.tier.world.registries 0).byConn.lookup conn = some uid →
    ∃ st, (watched.tier.world.registries 0).get uid = some st ∧ st.conn = some conn
  closed : ∀ session ∈ watched.ended, ∀ uid st, (watched.tier.world.registries 0).get uid = some st →
    st.conn ≠ some session.conn
  empty : watched.tier.sessions = [] → watched.tier.world.registries 0 = .empty ∧
    ∀ agent ∈ watched.tier.world.db.agents, agent.connected = false

variable {events : List Event}

section

variable {env : Env} {watched next : Watched} {event : Event}

theorem not_working (between : underWay watched = false) (uid : Bytes) : working watched uid = false := by
  refine idle_iff.mpr fun job mem notDone v isVisit _ => ?_
  unfold underWay at between
  rw [List.any_eq_false] at between
  apply between job mem
  simp [notDone, Option.mem_def.mp isVisit]

def AtHome (watched : Watched) : Prop := ∀ session ∈ Watched.sessions watched, session.replica = 0

theorem atHome_step (home : AtHome watched) (step : Called env watched event next) : AtHome next := by
  obtain ⟨calls, ⟨taken, _⟩⟩ := step
  cases taken with
  | @accepted replica conn authorization auth world unused isAuth =>
    obtain ⟨opened, ended⟩ := List.forall_mem_append.mp home
    have isHome : replica = 0 := by simpa [oneCall] using calls
    exact List.forall_mem_append.mpr ⟨List.forall_mem_append.mpr ⟨opened, List.forall_mem_singleton.mpr isHome⟩, ended⟩
  | refused => exact home
  | @message session msg newID token isOpen =>
    obtain ⟨opened, ended⟩ := List.forall_mem_append.mp home
    refine List.forall_mem_append.mpr ⟨List.forall_mem_map.mpr fun old isOld => ?_, ended⟩
    exact (carried_replica old).trans (opened old isOld)
  | @close session isOpen idle =>
    intro other mem
    exact home other (@mem_sessions_ending watched session other |>.mp mem)
  | push | commit | revoke | setStatus | tick | advance => exact home

theorem Regular.entry_elsewhere (regular : Regular watched) (home : AtHome watched) {uid : Bytes}
    (idle : working watched uid = false) {replica : Nat} (elsewhere : replica ≠ 0) :
    (watched.tier.world.registries replica).get uid = none := by
  refine Option.eq_none_iff_forall_ne_some.mpr fun st found => elsewhere ?_
  obtain ⟨_, ⟨conn, _, bound⟩, _⟩ := (regular.steady.settled uid idle).entries replica (entryKey st)
    (by simp only [presence, found, Option.map_some])
  obtain ⟨session, mem, _, isReplica, _⟩ := regular.steady.bindings replica conn uid bound
  exact isReplica.symm.trans (home session mem)

theorem exclusive_of_oneCall (regular : Regular watched) (home : AtHome watched) (calls : oneCall watched event = true) :
    Exclusive watched event := by
  cases event with
  | message conn msg newID token =>
    have between : underWay watched = false := by simpa [oneCall] using calls
    exact not_working between msg.instanceUID
  | close conn =>
    have between : underWay watched = false := by simpa [oneCall] using calls
    intro session isOpen _ uid _
    refine ⟨not_working between uid, fun replica elsewhere => ?_⟩
    rw [home session (List.mem_append_left _ isOpen)] at elsewhere
    exact regular.entry_elsewhere home (not_working between uid) elsewhere
  | _ => trivial

theorem called_regular (succeeds : ∀ call, env.writeFaults call = none) {start : Tier} (offline : Offline start)
    (run : Run (Restricted (fun watched event => oneUID watched event = true) (Called env)) ⟨start, []⟩ events watched) :
    Regular watched ∧ AtHome watched := by
  apply run.invariant
  · rintro state event next ⟨single, step⟩ ⟨regular, home⟩
    exact ⟨regular_step succeeds single (exclusive_of_oneCall regular home step.1) step.2 regular, atHome_step home step⟩
  · refine ⟨offline.regular, fun session mem => ?_⟩
    simp only [Watched.sessions, offline.disconnected, List.append_nil, List.not_mem_nil] at mem

theorem alist_eq_empty {α : Type} {β : α → Type} [DecidableEq α] {list : AList β} (none : ∀ key, list.lookup key = none) :
    list = ∅ := by
  apply AList.ext
  apply List.eq_nil_iff_forall_not_mem.mpr
  intro entry mem
  have isKey : entry.1 ∈ list := AList.mem_keys.mp (List.mem_map_of_mem mem)
  exact absurd isKey (AList.lookup_eq_none.mp (none entry.1))

/-- In every run of calls on one replica in which each connection speaks for one
    agent, registry and rows are cleaned up between two calls. -/
theorem connections_cleaned_up (succeeds : ∀ call, env.writeFaults call = none) {start : Tier} (offline : Offline start)
    {events : List Event}
    (run : Run (Restricted (fun watched event => oneUID watched event = true) (Called env)) ⟨start, []⟩ events watched)
    (between : underWay watched = false) : CleanedUp watched := by
  obtain ⟨regular, _⟩ := called_regular succeeds offline run
  have idle := not_working between
  have entries : ∀ uid st, (watched.tier.world.registries 0).get uid = some st →
      ∃ session ∈ watched.tier.sessions, st.conn = some session.conn ∧
        (watched.tier.world.registries 0).byConn.lookup session.conn = some uid := by
    intro uid st found
    obtain ⟨_, ⟨conn, isConn, bound⟩, _⟩ := (regular.steady.settled uid (idle uid)).entries 0 (entryKey st)
      (by simp only [presence, found, Option.map_some])
    obtain ⟨session, isOpen, rfl, _⟩ := regular.open_of_bound (idle uid) bound
    exact ⟨session, isOpen, isConn, bound⟩
  constructor
  · intro uid st found
    obtain ⟨session, _, isConn, bound⟩ := entries uid st found
    exact ⟨session.conn, isConn, bound⟩
  · intro conn uid bound
    obtain ⟨key, isEntry, isConn⟩ := (regular.steady.settled uid (idle uid)).bindings 0 conn bound
    obtain ⟨st, found, rfl⟩ := Option.map_eq_some_iff.mp isEntry
    exact ⟨st, found, isConn⟩
  · intro session isEnded uid st found isConn
    obtain ⟨current, isOpen, isCurrent, _⟩ := entries uid st found
    exact regular.steady.open_ne_ended isOpen isEnded (Option.some.inj (isCurrent.symm.trans isConn))
  · intro disconnected
    have noSession : ∀ session, session ∉ watched.tier.sessions := by
      intro session mem
      rw [disconnected] at mem
      cases mem
    constructor
    · have noEntry : ∀ uid, (watched.tier.world.registries 0).byUID.lookup uid = none := by
        refine fun uid => Option.eq_none_iff_forall_ne_some.mpr fun st found => ?_
        obtain ⟨session, isOpen, _⟩ := entries uid st found
        exact noSession session isOpen
      have noBinding : ∀ conn, (watched.tier.world.registries 0).byConn.lookup conn = none := by
        refine fun conn => Option.eq_none_iff_forall_ne_some.mpr fun uid bound => ?_
        obtain ⟨session, isOpen, _⟩ := regular.open_of_bound (idle uid) bound
        exact noSession session isOpen
      cases isRegistry : watched.tier.world.registries 0 with
      | mk byUID byConn =>
        rw [isRegistry] at noEntry noBinding
        dsimp only at noEntry noBinding
        rw [alist_eq_empty noEntry, alist_eq_empty noBinding]
        rfl
    · intro agent mem
      by_contra isConnected
      obtain ⟨session, isOpen, _⟩ :=
        (regular.connected_iff mem (idle agent.instanceUID)).mp (by simpa using isConnected)
      exact noSession session isOpen

end

def openTier : Tier where
  handlers := ⟨{ db := { acmeTables with
                         tokens := [{ acmeToken with maxUses := 0 }]
                         tokens_id := by simp
                         agents_token := by simp [acmeTables] },
                 edgeConfig := fun _ => .ok "receivers" }, []⟩
  now := 10

theorem openTier_offline : Offline openTier where
  idle := rfl
  disconnected := rfl
  empty _ := rfl
  agents agent mem := by cases mem

def go (job count : Nat) : List Event := List.replicate count (.advance job)

def visitOnce : List Event :=
  [.connect 0 ⟨1⟩ acmeHeader, .message ⟨1⟩ (hello [5]) firstID (.error "")] ++ go 0 5 ++ [.close ⟨1⟩] ++ go 1 3

def visitedOnce : Watched :=
  (Watched.performAll acmeEnv (fun watched event => oneUID watched event && oneCall watched event) ⟨openTier, []⟩
    visitOnce).getD ⟨openTier, []⟩

variable {watched last : Watched}

theorem performed_called {env : Env}
    (performed : watched.performAll env (fun watched event => oneUID watched event && oneCall watched event) events = some last) :
    Run (Restricted (fun watched event => oneUID watched event = true) (Called env)) watched events last := by
  apply (Watched.run_of_performAll performed).weaken
  rintro state event next ⟨allowed, step⟩
  rw [Bool.and_eq_true] at allowed
  exact ⟨allowed.1, allowed.2, step⟩

theorem visitedOnce_cleaned_up : visitedOnce.ended.length = 1 ∧ visitedOnce.tier.world.db.agents.length = 1 ∧
    CleanedUp visitedOnce :=
  ⟨rfl, rfl, connections_cleaned_up (fun _ => rfl) openTier_offline (@performed_called visitOnce _ _ acmeEnv rfl) rfl⟩

def shareConnection : List Event :=
  [.connect 0 ⟨1⟩ acmeHeader, .message ⟨1⟩ (hello [5]) firstID (.error "")] ++ go 0 5 ++
    [.message ⟨1⟩ (hello [6]) secondID (.error "")] ++ go 1 5 ++ [.close ⟨1⟩] ++ go 2 3

def shared : Watched := (Watched.performAll acmeEnv oneCall ⟨openTier, []⟩ shareConnection).getD ⟨openTier, []⟩

/-- The first agent stays in the registry, with the closed connection, and is shown as
    connected. -/
theorem shared_connection_lingers :
    Run (Called acmeEnv) ⟨openTier, []⟩ shareConnection shared ∧ underWay shared = false ∧ shared.tier.sessions = [] ∧
      (∃ st, (shared.tier.world.registries 0).get [5] = some st ∧ st.conn = some ⟨1⟩ ∧
        (shared.tier.world.registries 0).byConn.lookup ⟨1⟩ = none) ∧
      shared.ended.map Session.conn = [⟨1⟩] ∧
      (shared.tier.world.db.agents.map fun agent => agent.connected) = [true, false] :=
  ⟨Watched.run_of_performAll rfl, rfl, rfl, ⟨_, rfl, rfl, rfl⟩, rfl, rfl⟩

/-! ## Several replicas -/

/-- In every run in which each connection speaks for one agent, the handlers of an
    agent do not overlap and a connection is reported closed only while no other replica
    holds its agent: a row says that its agent is connected if and only if some replica
    holds an open connection of it, once the handlers of the agent are done. -/
theorem connected_iff_held {env : Env} (succeeds : ∀ call, env.writeFaults call = none) {start : Tier}
    (offline : Offline start) {events : List Event} {watched : Watched}
    (run : Run (Restricted (fun watched event => oneUID watched event = true ∧ Exclusive watched event)
      (Watched.Step env)) ⟨start, []⟩ events watched) {agent : Agent} (mem : agent ∈ watched.tier.world.db.agents)
    (processed : working watched agent.instanceUID = false) :
    agent.connected = true ↔ Held watched agent.instanceUID := by
  have regular : Regular watched := by
    apply run.invariant
    · rintro state event next ⟨⟨single, exclusive⟩, step⟩ regular
      exact regular_step succeeds single exclusive step regular
    · exact offline.regular
  exact regular.connected_iff mem processed

theorem exclusive_run {env : Env} (succeeds : ∀ call, env.writeFaults call = none) (regular : Regular watched)
    (home : AtHome watched)
    (run : Run (Restricted (fun watched event => oneUID watched event = true) (Called env)) watched events last) :
    Run (Restricted (fun watched event => oneUID watched event = true ∧ Exclusive watched event) (Watched.Step env))
      watched events last := by
  induction run with
  | refl state => exact .refl state
  | step first _ ih =>
    obtain ⟨single, called⟩ := first
    have exclusive := exclusive_of_oneCall regular home called.1
    exact .step ⟨⟨single, exclusive⟩, called.2⟩
      (ih (regular_step succeeds single exclusive called.2 regular) (atHome_step home called))

def turn : List Event := [.connect 1 ⟨2⟩ acmeHeader, .message ⟨2⟩ (hello [5]) secondID (.error "")] ++ go 2 4

def opens (watched : Watched) : Event → Bool
  | .message _ msg _ _ => !working watched msg.instanceUID
  | .close _ => false
  | _ => true

theorem exclusive_of_opens {event : Event} (isOpening : opens watched event = true) : Exclusive watched event := by
  cases event <;> simp_all [opens, Exclusive]

def visitedAgain : Watched :=
  (Watched.performAll acmeEnv (fun watched event => oneUID watched event && opens watched event) visitedOnce turn).getD
    visitedOnce

theorem visitedAgain_connected : visitedOnce.tier.sessions = [] ∧
    ∃ agent ∈ visitedAgain.tier.world.db.agents, agent.connected = true ∧ Held visitedAgain agent.instanceUID := by
  have called : Run (Restricted (fun watched event => oneUID watched event = true) (Called acmeEnv)) ⟨openTier, []⟩
      visitOnce visitedOnce := performed_called rfl
  have first := exclusive_run (fun _ => rfl) openTier_offline.regular (fun _ mem => nomatch mem) called
  have turned : Run (Restricted (fun watched event => (oneUID watched event && opens watched event) = true)
      (Watched.Step acmeEnv)) visitedOnce turn visitedAgain := Watched.run_of_performAll rfl
  have run := first.append (turned.weaken fun _ _ _ step =>
    ⟨((Bool.and_eq_true ..).mp step.1).imp_right exclusive_of_opens, step.2⟩)
  exact ⟨rfl, _, List.mem_singleton.mpr rfl, rfl,
    (connected_iff_held (fun _ => rfl) openTier_offline run (List.mem_singleton.mpr rfl) rfl).mp rfl⟩

/-- The agent connects to a second replica, and then the close of its old connection
    is reported to the first. -/
def changeReplica : List Event :=
  [.connect 0 ⟨1⟩ acmeHeader, .message ⟨1⟩ (hello [5]) firstID (.error "")] ++ go 0 5 ++
    [.connect 1 ⟨2⟩ acmeHeader, .message ⟨2⟩ (hello [5]) secondID (.error "")] ++ go 1 4 ++ [.close ⟨1⟩] ++ go 2 3

def changedReplica : Watched :=
  (Watched.performAll acmeEnv oneUID ⟨openTier, []⟩ changeReplica).getD ⟨openTier, []⟩

/-- The row says that the agent is not connected, though the second replica holds its
    open connection. -/
theorem late_close_disconnects :
    Run (Watched.Step acmeEnv) ⟨openTier, []⟩ changeReplica changedReplica ∧
      (∀ job ∈ changedReplica.tier.handlers.jobs, job.2.isDone = true) ∧
      ∃ agent ∈ changedReplica.tier.world.db.agents, agent.connected = false ∧
        Held changedReplica agent.instanceUID := by
  have run : Run (Restricted (fun watched event => oneUID watched event = true) (Watched.Step acmeEnv)) ⟨openTier, []⟩
      changeReplica changedReplica := Watched.run_of_performAll rfl
  have isDone : (changedReplica.tier.handlers.jobs.all fun job => job.2.isDone) = true := rfl
  refine ⟨run.weaken fun _ _ _ step => step.2, List.all_eq_true.mp isDone, _, List.mem_singleton.mpr rfl, rfl, ?_⟩
  exact ⟨⟨⟨2⟩, 1, acmeAuth, [[5]]⟩, List.mem_singleton.mpr rfl, _, rfl, rfl⟩

end OtelFleet.Verified.Connections
