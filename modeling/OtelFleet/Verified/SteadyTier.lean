import OtelFleet.Verified.ConnectionHandlers
import OtelFleet.Verified.TierRuns

/-! # The tier while handlers of one agent do not overlap

The invariant of the runs in which the handlers of one agent do not overlap, a
connection speaks for one agent, and a connection is reported closed only while no
other replica holds its agent.  Each agent without a handler under way is settled,
and a connection that has ended is bound to none.
-/

namespace OtelFleet.Verified.SteadyTier

open OpAMP Semantics Store Store.FleetTables
open Verified.AgentPresence Verified.ConnectionHandlers Verified.MessageRules

/-! ## What a handler is at work on -/

structure Visit where
  agent : Option Bytes
  replica : Nat
  conn : Conn
  closes : Bool

def visit (ended : List Session) : Purpose → Option Visit
  | .message replica incoming =>
    incoming.conn.map fun conn => ⟨some incoming.msg.instanceUID, replica, conn, false⟩
  | .close replica conn =>
    some ⟨(ended.find? fun session => session.conn = conn).bind Session.agent, replica, conn, true⟩
  | .push _ _ => none

def Rely (visit : Option Visit) (before after : World) : Prop :=
  ∀ v ∈ visit, Undisturbed v.agent v.replica v.conn before after

def Guar (visit : Option Visit) (before after : World) : Prop :=
  match visit with
  | some v => Leaves v.agent v.replica v.conn before after
  | none => ∀ uid, presence uid after = presence uid before

def Ends (visit : Option Visit) (now : World) : Prop :=
  ∀ v ∈ visit, (∀ uid ∈ v.agent, Settled uid (presence uid now)) ∧
    (v.closes = true → ∀ uid, ¬ (presence uid now).bound v.replica v.conn)

theorem Rely.refl (visit : Option Visit) (world : World) : Rely visit world world :=
  fun _ _ => ⟨fun _ _ => rfl, fun _ bound => bound⟩

theorem Rely.trans (visit : Option Visit) (first second third : World) (early : Rely visit first second)
    (late : Rely visit second third) : Rely visit first third := by
  intro v isVisit
  obtain ⟨same, bindings⟩ := early v isVisit
  obtain ⟨same', bindings'⟩ := late v isVisit
  exact ⟨fun uid isAgent => (same' uid isAgent).trans (same uid isAgent), fun uid bound => bindings uid (bindings' uid bound)⟩

variable {before after : World}

theorem Rely.of_same {visit : Option Visit} (same : ∀ uid, presence uid after = presence uid before) :
    Rely visit before after :=
  fun _ _ => ⟨fun uid _ => same uid, fun uid bound => by rwa [same] at bound⟩

structure Apart (v v' : Visit) : Prop where
  agents : ∀ uid ∈ v.agent, uid ∉ v'.agent
  conns : v.conn ≠ v'.conn

variable {v : Visit}

theorem Apart.symm {v' : Visit} (apart : Apart v v') : Apart v' v :=
  ⟨fun uid isAgent isOther => apart.agents uid isOther isAgent, apart.conns.symm⟩

theorem Apart.undisturbed {v' : Visit} (apart : Apart v v') (leaves : Leaves v.agent v.replica v.conn before after) :
    Undisturbed v'.agent v'.replica v'.conn before after where
  same uid isAgent := leaves.others uid fun isOther => apart.agents uid isOther isAgent
  bindings uid bound := by
    by_cases isAgent : uid ∈ v.agent
    · rcases leaves.bindings uid isAgent _ _ bound with before | ⟨_, same⟩
      · exact before
      · exact absurd same.symm apart.conns
    · rwa [leaves.others uid isAgent] at bound

def gentlePushes : PushRules where
  inv _ := True
  rely _ _ := True
  guar before after := ∀ uid, presence uid after = presence uid before
  aside _ _ aside _ := ⟨fun _ => presence_congr (by rw [aside.db]) aside.registries, trivial⟩
  assigned world id hash _ :=
    ⟨fun uid => @presence_setStatus_same world uid id (fun agent => { agent with assignedConfigHash := some hash })
      (fun _ => rfl) [] (world.calls + 1), trivial⟩

/-! ## Steady states -/

def working (watched : Watched) (uid : Bytes) : Bool :=
  watched.tier.handlers.jobs.any fun job =>
    !job.2.isDone && (visit watched.ended job.1).any fun v => v.agent = some uid

structure Hosts (watched : Watched) (v : Visit) (session : Session) : Prop where
  member : session ∈ if v.closes then watched.ended else watched.tier.sessions
  conn : session.conn = v.conn
  replica : session.replica = v.replica
  agent : session.agent = v.agent

abbrev Watched.sessions (watched : Watched) : List Session := watched.tier.sessions ++ watched.ended

/-- The invariant of the runs, apart from the connections that have ended. -/
structure Steady (watched : Watched) : Prop where
  conns : ((Watched.sessions watched).map Session.conn).Nodup
  single : ∀ session ∈ Watched.sessions watched, ∀ uid ∈ session.uids, session.agent = some uid
  bindings : ∀ replica conn uid, (presence uid watched.tier.world).bound replica conn →
    ∃ session ∈ Watched.sessions watched, session.conn = conn ∧ session.replica = replica ∧ session.agent = some uid
  keeping : Pool.Keeping (fun _ => True) (fun purpose => Rely (visit watched.ended purpose))
    (fun purpose => Guar (visit watched.ended purpose)) (fun purpose _ => Ends (visit watched.ended purpose))
    watched.tier.handlers
  hosted : ∀ job ∈ watched.tier.handlers.jobs, job.2.isDone = false → ∀ v ∈ visit watched.ended job.1,
    ∃ session, Hosts watched v session
  apart : ∀ (i j : Nat) (job job' : Purpose × Prog World (Option ServerToAgent)), i ≠ j →
    watched.tier.handlers.jobs[i]? = some job → watched.tier.handlers.jobs[j]? = some job' →
    job.2.isDone = false → job'.2.isDone = false →
    ∀ v ∈ visit watched.ended job.1, ∀ v' ∈ visit watched.ended job'.1, Apart v v'
  settled : ∀ uid, working watched uid = false → Settled uid (presence uid watched.tier.world)

/-- A connection that has ended is bound to no agent once its close is worked off. -/
def Unbound (watched : Watched) : Prop :=
  ∀ session ∈ watched.ended,
    (∀ job ∈ watched.tier.handlers.jobs, job.2.isDone = false → job.1 ≠ .close session.replica session.conn) →
    ∀ uid, ¬ (presence uid watched.tier.world).bound session.replica session.conn

variable {job : Purpose × Prog World (Option ServerToAgent)} {uid : Bytes} {session : Session}

section

variable {watched : Watched} {session session' : Session}

theorem Steady.unique (steady : Steady watched) (mem : session ∈ Watched.sessions watched)
    (mem' : session' ∈ Watched.sessions watched) (same : session.conn = session'.conn) : session = session' :=
  List.inj_on_of_nodup_map steady.conns mem mem' same

theorem Steady.open_ne_ended (steady : Steady watched) (isOpen : session ∈ watched.tier.sessions)
    (isEnded : session' ∈ watched.ended) : session.conn ≠ session'.conn := by
  have disjoint := steady.conns
  rw [List.map_append, List.nodup_append] at disjoint
  exact disjoint.2.2 _ (List.mem_map_of_mem isOpen) _ (List.mem_map_of_mem isEnded)

theorem Hosts.mem_sessions (hosts : Hosts watched v session) : session ∈ Watched.sessions watched := by
  have mem := hosts.member
  split at mem
  · exact List.mem_append_right _ mem
  · exact List.mem_append_left _ mem

theorem idle_iff : working watched uid = false ↔ ∀ job ∈ watched.tier.handlers.jobs, job.2.isDone = false →
    ∀ v ∈ visit watched.ended job.1, v.agent ≠ some uid := by
  simp only [working, List.any_eq_false, Bool.and_eq_true, Bool.not_eq_true', Option.any_eq_true, decide_eq_true_eq,
    not_and, not_exists, Option.mem_def]

end

/-! ## Steps besides the handlers -/

variable {purpose : Purpose} {world : World}

section

variable {watched : Watched}

theorem Hosts.more {v : Visit} {session : Session} (hosts : Hosts watched v session) {tier : Tier}
    (more : ∀ other ∈ watched.tier.sessions, other ∈ tier.sessions) : Hosts ⟨tier, watched.ended⟩ v session where
  member := by
    have mem := hosts.member
    split at mem
    · rename_i closes
      rw [if_pos closes]
      exact mem
    · rename_i closes
      rw [if_neg closes]
      exact more session mem
  conn := hosts.conn
  replica := hosts.replica
  agent := hosts.agent

theorem Steady.later (steady : Steady watched) (same : ∀ uid, presence uid world = presence uid watched.tier.world) (now : Int) :
    Steady ⟨{ watched.tier.setWorld world with now }, watched.ended⟩ where
  conns := steady.conns
  single := steady.single
  bindings replica conn uid bound := steady.bindings replica conn uid (by rw [← same]; exact bound)
  keeping := steady.keeping.moved (fun _ => Rely.trans _) fun _ _ _ => Rely.of_same same
  hosted job mem underWay v isVisit := by
    obtain ⟨session, hosts⟩ := steady.hosted job mem underWay v isVisit
    exact ⟨session, hosts.more fun _ isOpen => isOpen⟩
  apart := steady.apart
  settled uid isIdle := by
    show Settled uid (presence uid world)
    rw [same]
    exact steady.settled uid isIdle

theorem Steady.setWorld (steady : Steady watched) (same : ∀ uid, presence uid world = presence uid watched.tier.world) :
    Steady ⟨watched.tier.setWorld world, watched.ended⟩ := steady.later same watched.tier.now

theorem Steady.tick (steady : Steady watched) (later : Int) : Steady ⟨{ watched.tier with now := later }, watched.ended⟩ :=
  steady.later (fun _ => rfl) later

theorem Unbound.setWorld (unbound : Unbound watched)
    (same : ∀ uid, presence uid world = presence uid watched.tier.world) :
    Unbound ⟨watched.tier.setWorld world, watched.ended⟩ := by
  intro session isEnded released uid bound
  apply unbound session isEnded released uid
  rw [← same]
  exact bound

theorem Steady.connect (steady : Steady watched) (unused : session.uids = [])
    (fresh : ∀ other ∈ watched.tier.sessions, other.conn ≠ session.conn)
    (notEnded : ∀ other ∈ watched.ended, other.conn ≠ session.conn) :
    Steady ⟨{ watched.tier with sessions := watched.tier.sessions ++ [session] }, watched.ended⟩ := by
  have members : ∀ other, other ∈ (watched.tier.sessions ++ [session]) ++ watched.ended ↔
      other = session ∨ other ∈ Watched.sessions watched := by
    simp only [List.mem_append, List.mem_singleton]
    tauto
  constructor
  · have moved : ((watched.tier.sessions ++ [session]) ++ watched.ended).Perm
        (session :: Watched.sessions watched) := by
      rw [List.append_assoc]
      exact List.perm_middle
    apply (moved.map Session.conn).nodup_iff.mpr
    rw [List.map_cons, List.nodup_cons]
    refine ⟨fun taken => ?_, steady.conns⟩
    obtain ⟨other, mem, same⟩ := List.mem_map.mp taken
    rcases List.mem_append.mp mem with isOpen | isEnded
    · exact fresh other isOpen same
    · exact notEnded other isEnded same
  · intro other mem uid carried
    rcases (members other).mp mem with rfl | old
    · rw [unused] at carried
      cases carried
    · exact steady.single other old uid carried
  · intro replica conn uid bound
    obtain ⟨other, mem, isSession⟩ := steady.bindings replica conn uid bound
    exact ⟨other, (members other).mpr (Or.inr mem), isSession⟩
  · exact steady.keeping
  · intro job mem underWay v isVisit
    obtain ⟨other, hosts⟩ := steady.hosted job mem underWay v isVisit
    exact ⟨other, hosts.more fun _ => List.mem_append_left _⟩
  · exact steady.apart
  · exact steady.settled

/-! ## A handler begins -/

theorem getElem?_concat {α : Type} {list : List α} {last found : α} {i : Nat} (isFound : (list ++ [last])[i]? = some found) :
    list[i]? = some found ∨ (i = list.length ∧ found = last) := by
  grind

theorem Steady.start (steady : Steady watched) {program : Prog World (Option ServerToAgent)}
    (meets : Prog.Meets (fun _ => True) (Rely (visit watched.ended purpose)) (Guar (visit watched.ended purpose))
      (fun _ => Ends (visit watched.ended purpose)) program watched.tier.world)
    (hosted : ∀ v ∈ visit watched.ended purpose, ∃ session, Hosts watched v session)
    (apart : ∀ job ∈ watched.tier.handlers.jobs, job.2.isDone = false → ∀ v ∈ visit watched.ended job.1,
      ∀ v' ∈ visit watched.ended purpose, Apart v v') :
    Steady ⟨watched.tier.start purpose program, watched.ended⟩ where
  conns := steady.conns
  single := steady.single
  bindings := steady.bindings
  keeping := steady.keeping.started meets
  hosted job mem underWay v isVisit := by
    rcases List.mem_append.mp mem with old | new
    · obtain ⟨session, hosts⟩ := steady.hosted job old underWay v isVisit
      exact ⟨session, hosts.more fun _ isOpen => isOpen⟩
    · rw [List.mem_singleton.mp new] at isVisit
      obtain ⟨session, hosts⟩ := hosted v isVisit
      exact ⟨session, hosts.more fun _ isOpen => isOpen⟩
  apart i j job job' different isJob isJob' underWay underWay' v isVisit v' isVisit' := by
    rcases getElem?_concat isJob with old | ⟨last, isNew⟩
    · rcases getElem?_concat isJob' with old' | ⟨_, isNew'⟩
      · exact steady.apart i j job job' different old old' underWay underWay' v isVisit v' isVisit'
      · rw [isNew'] at isVisit'
        exact apart job (List.mem_of_getElem? old) underWay v isVisit v' isVisit'
    · rcases getElem?_concat isJob' with old' | ⟨last', _⟩
      · rw [isNew] at isVisit
        exact (apart job' (List.mem_of_getElem? old') underWay' v' isVisit' v isVisit).symm
      · exact absurd (last.trans last'.symm) different
  settled uid isIdle := by
    apply steady.settled uid
    simp only [working, Tier.start, Pool.start, List.any_append, Bool.or_eq_false_iff] at isIdle
    exact isIdle.1

theorem Unbound.start (unbound : Unbound watched) (purpose : Purpose) (program : Prog World (Option ServerToAgent)) :
    Unbound ⟨watched.tier.start purpose program, watched.ended⟩ := by
  intro session isEnded released
  exact unbound session isEnded fun job mem => released job (List.mem_append_left _ mem)

end

/-! ## Messages -/

variable {env : Env}

section

variable {watched : Watched} {conn : Conn} {uid : Bytes}

def carried (conn : Conn) (uid : Bytes) (session : Session) : Session :=
  if session.conn = conn then { session with uids := session.uids ++ [uid] } else session

theorem carry_eq_map (conn : Conn) (uid : Bytes) (sessions : List Session) :
    carry conn uid sessions = sessions.map (carried conn uid) := rfl

@[simp] theorem carried_conn (session : Session) : (carried conn uid session).conn = session.conn := by
  unfold carried
  split <;> rfl

@[simp] theorem carried_replica (session : Session) : (carried conn uid session).replica = session.replica := by
  unfold carried
  split <;> rfl

theorem carried_agent {first : Bytes} (isFirst : session.agent = some first) :
    (carried conn uid session).agent = some first := by
  unfold carried
  split
  · unfold Session.agent at isFirst ⊢
    rw [List.head?_append, isFirst]
    rfl
  · exact isFirst

theorem agent_of_message {ended : List Session} (isVisit : v ∈ visit ended purpose) (isMessage : v.closes = false) :
    ∃ first, v.agent = some first := by
  cases purpose with
  | message replica incoming =>
    obtain ⟨_, _, rfl⟩ := Option.map_eq_some_iff.mp isVisit
    exact ⟨_, rfl⟩
  | close replica conn =>
    cases isVisit
    cases isMessage
  | push replica customerID => cases isVisit

theorem steady_carry (steady : Steady watched)
    (alone : ∀ session ∈ watched.tier.sessions, session.conn = conn → ∀ other ∈ session.uids, other = uid) :
    Steady ⟨{ watched.tier with sessions := carry conn uid watched.tier.sessions }, watched.ended⟩ where
  conns := by
    have same : (carry conn uid watched.tier.sessions).map Session.conn = watched.tier.sessions.map Session.conn := by
      simp only [carry_eq_map, List.map_map, Function.comp_def, carried_conn]
    have conns := steady.conns
    rw [List.map_append] at conns ⊢
    rwa [same]
  single session mem other isCarried := by
    rcases List.mem_append.mp mem with isOpen | isEnded
    · obtain ⟨old, isOld, rfl⟩ := List.mem_map.mp isOpen
      by_cases here : old.conn = conn
      · -- All that the connection carried is the one UID.
        simp only [if_pos here] at isCarried ⊢
        have all : ∀ key ∈ old.uids ++ [uid], key = uid := Data.forall_mem_append_row (alone old isOld here) rfl
        have isUID := all other isCarried
        subst isUID
        cases first : (old.uids ++ [other]).head? with
        | none => simp at first
        | some key =>
          have isKey := all key (List.mem_of_mem_head? first)
          subst isKey
          exact first
      · simp only [if_neg here] at isCarried ⊢
        exact steady.single old (List.mem_append_left _ isOld) other isCarried
    · exact steady.single session (List.mem_append_right _ isEnded) other isCarried
  bindings replica conn' other bound := by
    obtain ⟨session, mem, isConn, isReplica, isAgent⟩ := steady.bindings replica conn' other bound
    rcases List.mem_append.mp mem with isOpen | isEnded
    · exact ⟨carried conn uid session, List.mem_append_left _ (List.mem_map_of_mem isOpen),
        (carried_conn session).trans isConn, (carried_replica session).trans isReplica, carried_agent isAgent⟩
    · exact ⟨session, List.mem_append_right _ isEnded, isConn, isReplica, isAgent⟩
  keeping := steady.keeping
  hosted job mem underWay v isVisit := by
    obtain ⟨session, hosts⟩ := steady.hosted job mem underWay v isVisit
    have isMember := hosts.member
    cases closes : v.closes with
    | true =>
      rw [if_pos closes] at isMember
      exact ⟨session, by rw [if_pos closes]; exact isMember, hosts.conn, hosts.replica, hosts.agent⟩
    | false =>
      have notCloses : ¬ v.closes = true := by simp [closes]
      rw [if_neg notCloses] at isMember
      obtain ⟨first, isFirst⟩ := agent_of_message isVisit closes
      exact ⟨carried conn uid session, by rw [if_neg notCloses]; exact List.mem_map_of_mem isMember,
        (carried_conn session).trans hosts.conn, (carried_replica session).trans hosts.replica,
        (carried_agent (hosts.agent.trans isFirst)).trans isFirst.symm⟩
  apart := steady.apart
  settled := steady.settled

theorem meets_of_attends {α : Type} {program : Prog World α}
    (attends : Attends v.agent v.replica v.conn (fun _ => Ends (some v)) program world) :
    Prog.Meets (fun _ => True) (Rely (some v)) (Guar (some v)) (fun _ => Ends (some v)) program world :=
  attends.weaken (fun _ _ rely => rely v rfl) (fun _ _ leaves => leaves) fun _ _ ends => ends

theorem steady_message (succeeds : ∀ call, env.writeFaults call = none) (steady : Steady watched)
    (isOpen : session ∈ watched.tier.sessions) (msg : AgentToServer) (newID : NewUuid)
    (token : Except String GeneratedKey) (idle : working watched msg.instanceUID = false)
    (alone : ∀ other ∈ watched.tier.sessions, other.conn = session.conn → ∀ key ∈ other.uids, key = msg.instanceUID) :
    Steady ⟨{ watched.tier.start (.message session.replica (session.incoming msg watched.tier.now newID token))
        (program env (.message session.replica (session.incoming msg watched.tier.now newID token)) watched.tier.now) with
      sessions := carry session.conn msg.instanceUID watched.tier.sessions }, watched.ended⟩ := by
  have mem : session ∈ Watched.sessions watched := List.mem_append_left _ isOpen
  -- The connection is bound to the agent of the message, if to any.
  have own : ∀ other, (presence other watched.tier.world).bound session.replica session.conn →
      other = msg.instanceUID := by
    intro other bound
    obtain ⟨session', mem', isConn, _, isAgent⟩ := steady.bindings _ _ other bound
    have same := steady.unique mem' mem isConn
    subst same
    exact alone session' isOpen rfl other (List.mem_of_mem_head? isAgent)
  have settled := steady.settled msg.instanceUID idle
  refine (steady_carry steady alone).start ?_ ?_ ?_
  · apply meets_of_attends (v := ⟨some msg.instanceUID, session.replica, session.conn, false⟩)
    have attends : Attends (some msg.instanceUID) session.replica session.conn
        (fun _ now => Settled msg.instanceUID (presence msg.instanceUID now))
        (handleMessage env session.replica (session.incoming msg watched.tier.now newID token)) watched.tier.world :=
      @attends_handleMessage env session.replica (session.incoming msg watched.tier.now newID token) session.conn
        (presence msg.instanceUID watched.tier.world) watched.tier.world succeeds rfl settled ⟨rfl, own⟩
    apply Prog.Meets.bind attends
    intro resp now settledNow
    apply Prog.meets_pure
    intro v isVisit
    cases isVisit
    refine ⟨fun uid isAgent => ?_, fun closes => nomatch closes⟩
    cases isAgent
    exact settledNow
  · intro v isVisit
    cases isVisit
    refine ⟨carried session.conn msg.instanceUID session, List.mem_map_of_mem isOpen, carried_conn session,
      carried_replica session, ?_⟩
    apply (steady_carry steady alone).single
    · exact List.mem_append_left _ (List.mem_map_of_mem isOpen)
    · simp only [carried]
      exact List.mem_append_right _ (List.mem_singleton.mpr rfl)
  · intro job isJob underWay v isVisit v' isVisit'
    cases isVisit'
    have notAgent : ∀ key, v.agent = some key → key ≠ msg.instanceUID := by
      rintro key isKey rfl
      exact idle_iff.mp idle job isJob underWay v isVisit isKey
    refine ⟨fun key isKey isUID => notAgent key isKey (Option.some.inj isUID).symm, fun sameConn => ?_⟩
    obtain ⟨session', hosts⟩ := steady.hosted job isJob underWay v isVisit
    have same := steady.unique hosts.mem_sessions mem (hosts.conn.trans sameConn)
    subst same
    cases closes : v.closes with
    | true =>
      -- A closed connection is not open.
      have isEnded := hosts.member
      rw [if_pos closes] at isEnded
      exact steady.open_ne_ended isOpen isEnded rfl
    | false =>
      obtain ⟨first, isFirst⟩ := agent_of_message isVisit closes
      have carriedFirst := alone session' isOpen rfl first (List.mem_of_mem_head? (hosts.agent.trans isFirst))
      exact notAgent first isFirst carriedFirst

end

/-! ## Closes -/

section

variable {watched : Watched} {session : Session}

def ending (watched : Watched) (session : Session) : Watched where
  tier := { watched.tier with sessions := watched.tier.sessions.filter fun other => other.conn ≠ session.conn }
  ended := endedBy (.close session.conn) watched.tier.sessions ++ watched.ended

theorem visit_append {closed ended : List Session}
    (fresh : ∀ replica conn, purpose = .close replica conn → ∀ session ∈ closed, session.conn ≠ conn) :
    visit (closed ++ ended) purpose = visit ended purpose := by
  cases purpose with
  | message replica incoming => rfl
  | close replica conn =>
    have absent : closed.find? (fun session => session.conn = conn) = none := by
      rw [List.find?_eq_none]
      intro session mem
      simpa using fresh replica conn rfl session mem
    simp only [visit, List.find?_append, absent, Option.none_or]
  | push replica customerID => rfl

theorem mem_endedBy {other : Session} :
    other ∈ endedBy (.close session.conn) watched.tier.sessions ↔
      other ∈ watched.tier.sessions ∧ other.conn = session.conn := by
  simp [endedBy]

theorem visit_ending (steady : Steady watched) {job : Purpose × Prog World (Option ServerToAgent)}
    (mem : job ∈ watched.tier.handlers.jobs) (underWay : job.2.isDone = false) :
    visit (ending watched session).ended job.1 = visit watched.ended job.1 := by
  apply visit_append
  intro replica conn isClose other isOther sameConn
  obtain ⟨host, hosts⟩ := steady.hosted job mem underWay
    ⟨(watched.ended.find? fun session => session.conn = conn).bind Session.agent, replica, conn, true⟩
    (by rw [isClose]; rfl)
  have isEnded : host ∈ watched.ended := hosts.member
  exact steady.open_ne_ended (mem_endedBy.mp isOther).1 isEnded (sameConn.trans hosts.conn.symm)

theorem working_ending (steady : Steady watched) (idle : working (ending watched session) uid = false) :
    working watched uid = false := by
  rw [idle_iff] at idle ⊢
  intro job mem underWay v isVisit
  rw [← visit_ending steady mem underWay] at isVisit
  exact idle job mem underWay v isVisit

theorem busy_of_visit (mem : job ∈ watched.tier.handlers.jobs) (underWay : job.2.isDone = false)
    (isVisit : v ∈ visit watched.ended job.1) (isMessage : v.closes = false) : watched.tier.busy v.conn = true := by
  obtain ⟨purpose, rest⟩ := job
  cases purpose with
  | message replica incoming =>
    obtain ⟨conn, isConn, rfl⟩ := Option.map_eq_some_iff.mp isVisit
    unfold Tier.busy
    rw [List.any_eq_true]
    refine ⟨_, mem, ?_⟩
    cases rest with
    | done value => cases underWay
    | act change next => simpa [isPending] using isConn
  | close replica conn =>
    cases isVisit
    cases isMessage
  | push replica customerID => cases isVisit

theorem mem_sessions_ending {other : Session} :
    other ∈ Watched.sessions (ending watched session) ↔ other ∈ Watched.sessions watched := by
  simp only [ending, List.mem_append, mem_endedBy]
  by_cases same : other.conn = session.conn
  · simp [same]
  · simp [same]

theorem steady_ending (steady : Steady watched) (idle : watched.tier.busy session.conn = false) :
    Steady (ending watched session) where
  conns := by
    have moved : (Watched.sessions (ending watched session)).Perm (Watched.sessions watched) := by
      simp only [Watched.sessions, ending, endedBy, ← List.append_assoc]
      apply List.Perm.append_right
      have parts := List.filter_append_perm (fun other => decide (other.conn ≠ session.conn)) watched.tier.sessions
      simpa using parts
    exact (moved.map Session.conn).nodup_iff.mpr steady.conns
  single other mem := steady.single other (mem_sessions_ending.mp mem)
  bindings replica conn uid bound := by
    obtain ⟨other, mem, isSession⟩ := steady.bindings replica conn uid bound
    exact ⟨other, mem_sessions_ending.mpr mem, isSession⟩
  keeping job mem underWay := by
    have keeps := steady.keeping job mem underWay
    dsimp only at keeps ⊢
    rw [@visit_ending watched session steady job mem underWay]
    exact keeps
  hosted job mem underWay v isVisit := by
    rw [visit_ending steady mem underWay] at isVisit
    obtain ⟨host, hosts⟩ := steady.hosted job mem underWay v isVisit
    refine ⟨host, ?_, hosts.conn, hosts.replica, hosts.agent⟩
    have isMember := hosts.member
    cases closes : v.closes with
    | true =>
      rw [if_pos closes] at isMember
      exact List.mem_append_right _ isMember
    | false =>
      simp only [closes] at isMember ⊢
      apply List.mem_filter.mpr
      refine ⟨isMember, ?_⟩
      simp only [decide_not, Bool.not_eq_true', decide_eq_false_iff_not]
      intro sameConn
      have isBusy : watched.tier.busy v.conn = true := busy_of_visit mem underWay isVisit closes
      rw [← sameConn, hosts.conn, isBusy] at idle
      cases idle
  apart i j job job' different isJob isJob' underWay underWay' := by
    rw [visit_ending steady (List.mem_of_getElem? isJob) underWay,
      visit_ending steady (List.mem_of_getElem? isJob') underWay']
    exact steady.apart i j job job' different isJob isJob' underWay underWay'
  settled uid isIdle := steady.settled uid (working_ending steady isIdle)

theorem visit_close (steady : Steady watched) (isOpen : session ∈ watched.tier.sessions) :
    visit (ending watched session).ended (.close session.replica session.conn) =
      some ⟨session.agent, session.replica, session.conn, true⟩ := by
  have isEnded : session ∈ (ending watched session).ended := List.mem_append_left _ (mem_endedBy.mpr ⟨isOpen, rfl⟩)
  have found : (ending watched session).ended.find? (fun other => other.conn = session.conn) = some session := by
    cases search : (ending watched session).ended.find? fun other => other.conn = session.conn with
    | none => exact absurd (List.find?_eq_none.mp search session isEnded) (by simp)
    | some other =>
      have sameConn : other.conn = session.conn := by simpa using List.find?_some search
      have mem : other ∈ Watched.sessions watched :=
        mem_sessions_ending.mp (List.mem_append_right _ (List.mem_of_find?_eq_some search))
      rw [steady.unique mem (List.mem_append_left _ isOpen) sameConn]
  simp only [visit, found, Option.bind_some]

/-- A connection is reported closed while no handler is under way for its agent and no
    other replica holds the agent. -/
theorem steady_close (succeeds : ∀ call, env.writeFaults call = none) (steady : Steady watched)
    (isOpen : session ∈ watched.tier.sessions) (idle : watched.tier.busy session.conn = false)
    (alone : ∀ uid ∈ session.uids, working watched uid = false ∧
      ∀ replica, replica ≠ session.replica → (watched.tier.world.registries replica).get uid = none) :
    Steady ⟨(ending watched session).tier.start (.close session.replica session.conn)
      (program env (.close session.replica session.conn) watched.tier.now), (ending watched session).ended⟩ := by
  have mem : session ∈ Watched.sessions watched := List.mem_append_left _ isOpen
  have isCarried : ∀ uid ∈ session.agent, uid ∈ session.uids := fun uid isAgent => List.mem_of_mem_head? isAgent
  have isVisit := visit_close steady isOpen
  refine (steady_ending steady idle).start ?_ ?_ ?_
  · rw [isVisit]
    apply meets_of_attends
    have attends : Attends session.agent session.replica session.conn
        (fun _ => Released session.agent session.replica session.conn)
        (handleConnectionClose env session.replica session.conn watched.tier.now) watched.tier.world := by
      apply attends_handleConnectionClose succeeds
      · exact fun uid isAgent => steady.settled uid (alone uid (isCarried uid isAgent)).1
      · intro uid bound
        obtain ⟨host, isHost, isConn, _, isAgent⟩ := steady.bindings _ _ uid bound
        rw [← steady.unique isHost mem isConn]
        exact isAgent
      · intro uid isAgent somewhere elsewhere
        simp only [presence, (alone uid (isCarried uid isAgent)).2 somewhere elsewhere, Option.map_none]
    apply Prog.Meets.bind attends
    intro _ now released
    apply Prog.meets_pure
    intro v isV
    cases isV
    exact ⟨released.settled, fun _ => released.unbound⟩
  · intro v isV
    rw [isVisit] at isV
    cases isV
    exact ⟨session, List.mem_append_left _ (mem_endedBy.mpr ⟨isOpen, rfl⟩), rfl, rfl, rfl⟩
  · intro job isJob underWay v isV v' isV'
    rw [isVisit] at isV'
    cases isV'
    rw [visit_ending steady isJob underWay] at isV
    obtain ⟨host, hosts⟩ := steady.hosted job isJob underWay v isV
    refine ⟨fun uid isAgent isOther => ?_, fun sameConn => ?_⟩
    · exact idle_iff.mp (alone uid (isCarried uid isOther)).1 job isJob underWay v isV isAgent
    · cases closes : v.closes with
      | true =>
        have isEnded := hosts.member
        rw [if_pos closes] at isEnded
        exact steady.open_ne_ended isOpen isEnded (sameConn.symm.trans hosts.conn.symm)
      | false =>
        have isBusy : watched.tier.busy v.conn = true := busy_of_visit isJob underWay isV closes
        rw [sameConn, idle] at isBusy
        cases isBusy

theorem unbound_close (steady : Steady watched) (unbound : Unbound watched) (isOpen : session ∈ watched.tier.sessions)
    (now : Int) :
    Unbound ⟨(ending watched session).tier.start (.close session.replica session.conn)
      (program env (.close session.replica session.conn) now), (ending watched session).ended⟩ := by
  intro other isEnded released
  rcases List.mem_append.mp isEnded with new | old
  · -- The handler of the close is yet to act.
    obtain ⟨isMember, sameConn⟩ := mem_endedBy.mp new
    have same := steady.unique (List.mem_append_left _ isMember) (List.mem_append_left _ isOpen) sameConn
    subst same
    have isLast : (Purpose.close other.replica other.conn, program env (.close other.replica other.conn) now) ∈
        (watched.tier.handlers.start (.close other.replica other.conn)
          (program env (.close other.replica other.conn) now)).jobs :=
      List.mem_append_right _ (List.mem_singleton.mpr rfl)
    exact absurd rfl (released _ isLast rfl)
  · exact unbound other old fun job mem => released job (List.mem_append_left _ mem)

end

/-! ## A handler goes on -/

variable {watched : Watched} {handlers : Handlers} {i : Nat} {purpose : Purpose}
  {rest rest' : Prog World (Option ServerToAgent)}

theorem job_before (found : watched.tier.handlers.jobs[i]? = some (purpose, rest)) (underWay : rest.isDone = false)
    (isSet : handlers.jobs = watched.tier.handlers.jobs.set i (purpose, rest')) {k : Nat}
    (isJob : handlers.jobs[k]? = some job) (isUnderWay : job.2.isDone = false) :
    ∃ before, watched.tier.handlers.jobs[k]? = some before ∧ before.1 = job.1 ∧ before.2.isDone = false := by
  rw [isSet] at isJob
  by_cases same : k = i
  · subst same
    rw [List.getElem?_set_self (List.getElem?_eq_some_iff.mp found).1] at isJob
    cases isJob
    exact ⟨_, found, rfl, underWay⟩
  · rw [List.getElem?_set_ne (Ne.symm same)] at isJob
    exact ⟨job, isJob, rfl, isUnderWay⟩

theorem idle_or_done (found : watched.tier.handlers.jobs[i]? = some (purpose, rest))
    (isSet : handlers.jobs = watched.tier.handlers.jobs.set i (purpose, rest'))
    (stopped : working ⟨{ watched.tier with handlers }, watched.ended⟩ uid = false) :
    working watched uid = false ∨ (rest'.isDone = true ∧ ∃ v ∈ visit watched.ended purpose, v.agent = some uid) := by
  rw [idle_iff] at stopped ⊢
  refine or_iff_not_imp_right.mpr fun goesOn job mem underWay v isVisit isAgent => ?_
  rcases Data.mem_set_of_mem found (purpose, rest') mem with rfl | stays
  · cases done : rest'.isDone with
    | true => exact goesOn ⟨done, v, isVisit, isAgent⟩
    | false => exact stopped (purpose, rest') (isSet ▸ Data.mem_set_self found) done v isVisit isAgent
  · exact stopped job (isSet ▸ stays) underWay v isVisit isAgent

structure Advances (watched : Watched) (handlers : Handlers) (i : Nat) (purpose : Purpose)
    (rest rest' : Prog World (Option ServerToAgent)) : Prop where
  found : watched.tier.handlers.jobs[i]? = some (purpose, rest)
  underWay : rest.isDone = false
  isSet : handlers.jobs = watched.tier.handlers.jobs.set i (purpose, rest')
  guar : Guar (visit watched.ended purpose) watched.tier.world handlers.shared
  ends : rest'.isDone = true → Ends (visit watched.ended purpose) handlers.shared

theorem Steady.advances (steady : Steady watched) (advanced : watched.tier.handlers.advance i = some handlers) :
    Pool.Keeping (fun _ => True) (fun purpose => Rely (visit watched.ended purpose))
      (fun purpose => Guar (visit watched.ended purpose)) (fun purpose _ => Ends (visit watched.ended purpose)) handlers ∧
    ∃ purpose rest rest', Advances watched handlers i purpose rest rest' := by
  have accepted : ∀ purpose rest,
      watched.tier.handlers.jobs[i]? = some (purpose, rest) → rest.isDone = false →
      Guar (visit watched.ended purpose) watched.tier.handlers.shared handlers.shared → ∀ j job, j ≠ i →
      watched.tier.handlers.jobs[j]? = some job → job.2.isDone = false →
      Rely (visit watched.ended job.1) watched.tier.handlers.shared handlers.shared := by
    intro purpose rest found underWay given j job other isJob isUnderWay
    cases isVisit : visit watched.ended purpose with
    | none =>
      rw [isVisit] at given
      exact Rely.of_same given
    | some v =>
      rw [isVisit] at given
      intro v' isVisit'
      exact (steady.apart i j _ job other.symm found isJob underWay isUnderWay v isVisit v' isVisit').undisturbed given
  obtain ⟨keeping, _, purpose, rest, rest', found, underWay, isSet, given, meets⟩ :=
    steady.keeping.advanced (fun _ => Rely.refl _) (fun _ => Rely.trans _) trivial advanced accepted
  refine ⟨keeping, purpose, rest, rest', found, underWay, isSet, given, fun isDone => ?_⟩
  cases rest' with
  | done value => exact meets
  | act change next => cases isDone

theorem Advances.bindings (advances : Advances watched handlers i purpose rest rest') {replica : Nat} {conn : Conn}
    (bound : (presence uid handlers.shared).bound replica conn) :
    (presence uid watched.tier.world).bound replica conn ∨
      ∃ v ∈ visit watched.ended purpose, uid ∈ v.agent ∧ replica = v.replica ∧ conn = v.conn := by
  have given := advances.guar
  cases isVisit : visit watched.ended purpose with
  | none =>
    rw [isVisit] at given
    rw [given] at bound
    exact Or.inl bound
  | some v =>
    rw [isVisit] at given
    by_cases isAgent : uid ∈ v.agent
    · rcases given.bindings uid isAgent replica conn bound with before | ⟨isReplica, isConn⟩
      · exact Or.inl before
      · exact Or.inr ⟨v, rfl, isAgent, isReplica, isConn⟩
    · rw [given.others uid isAgent] at bound
      exact Or.inl bound

theorem Advances.others (advances : Advances watched handlers i purpose rest rest')
    (notAgent : ∀ v ∈ visit watched.ended purpose, uid ∉ v.agent) :
    presence uid handlers.shared = presence uid watched.tier.world := by
  have given := advances.guar
  cases isVisit : visit watched.ended purpose with
  | none =>
    rw [isVisit] at given
    exact given uid
  | some v =>
    rw [isVisit] at given
    exact given.others uid (notAgent v isVisit)

theorem steady_advance (steady : Steady watched) (advanced : watched.tier.handlers.advance i = some handlers) :
    Steady ⟨{ watched.tier with handlers }, watched.ended⟩ := by
  obtain ⟨keeping, purpose, rest, rest', advances⟩ := steady.advances advanced
  have found := advances.found
  have isMember := List.mem_of_getElem? found
  refine ⟨steady.conns, steady.single, ?_, keeping, ?_, ?_, ?_⟩
  · intro replica conn uid bound
    rcases advances.bindings bound with before | ⟨v, isVisit, isAgent, rfl, rfl⟩
    · exact steady.bindings replica conn uid before
    · obtain ⟨session, hosts⟩ := steady.hosted _ isMember advances.underWay v isVisit
      exact ⟨session, hosts.mem_sessions, hosts.conn, hosts.replica, hosts.agent.trans isAgent⟩
  · intro job mem isUnderWay v isVisit
    obtain ⟨k, isJob⟩ := List.mem_iff_getElem?.mp mem
    obtain ⟨before, isBefore, samePurpose, wasUnderWay⟩ :=
      job_before found advances.underWay advances.isSet isJob isUnderWay
    rw [← samePurpose] at isVisit
    obtain ⟨session, hosts⟩ := steady.hosted before (List.mem_of_getElem? isBefore) wasUnderWay v isVisit
    exact ⟨session, hosts.more fun _ isOpen => isOpen⟩
  · intro k l job job' different isJob isJob' isUnderWay isUnderWay' v isVisit v' isVisit'
    obtain ⟨before, isBefore, samePurpose, wasUnderWay⟩ :=
      job_before found advances.underWay advances.isSet isJob isUnderWay
    obtain ⟨before', isBefore', samePurpose', wasUnderWay'⟩ :=
      job_before found advances.underWay advances.isSet isJob' isUnderWay'
    rw [← samePurpose] at isVisit
    rw [← samePurpose'] at isVisit'
    exact steady.apart k l before before' different isBefore isBefore' wasUnderWay wasUnderWay' v isVisit v' isVisit'
  · intro uid stopped
    show Settled uid (presence uid handlers.shared)
    rcases idle_or_done found advances.isSet stopped with idle | ⟨isDone, v, isVisit, isAgent⟩
    · rw [advances.others fun v isVisit => idle_iff.mp idle _ isMember advances.underWay v isVisit]
      exact steady.settled uid idle
    · exact (advances.ends isDone v isVisit).1 uid isAgent

theorem unbound_advance (steady : Steady watched) (unbound : Unbound watched)
    (advanced : watched.tier.handlers.advance i = some handlers) :
    Unbound ⟨{ watched.tier with handlers }, watched.ended⟩ := by
  obtain ⟨_, purpose, rest, rest', advances⟩ := steady.advances advanced
  have found := advances.found
  have isMember := List.mem_of_getElem? found
  have isNow : (purpose, rest') ∈ handlers.jobs := advances.isSet ▸ Data.mem_set_self found
  intro session isEnded released uid bound
  have notDone : ∀ v ∈ visit watched.ended purpose, v.replica = session.replica → v.conn = session.conn →
      ¬ v.closes = true := by
    -- The handler of the close would be done, and the connection released.
    intro v isVisit isReplica isConn closes
    have isClose : purpose = .close session.replica session.conn := by
      cases purpose with
      | message replica incoming =>
        obtain ⟨_, _, rfl⟩ := Option.map_eq_some_iff.mp isVisit
        cases closes
      | close replica conn =>
        cases isVisit
        rw [← isReplica, ← isConn]
      | push replica customerID => cases isVisit
    have isDone : rest'.isDone = true := by
      by_contra underWay
      exact released _ isNow (by simpa using underWay) isClose
    apply (advances.ends isDone v isVisit).2 closes uid
    rw [isReplica, isConn]
    exact bound
  rcases advances.bindings bound with before | ⟨v, isVisit, isAgent, isReplica, isConn⟩
  · -- The close of the connection was worked off before.
    apply unbound session isEnded _ uid before
    intro job mem underWay isClose
    rcases Data.mem_set_of_mem found (purpose, rest') mem with rfl | stays
    · dsimp only at isClose
      subst isClose
      exact notDone _ rfl rfl rfl rfl
    · exact released job (advances.isSet ▸ stays) underWay isClose
  · obtain ⟨host, hosts⟩ := steady.hosted _ isMember advances.underWay v isVisit
    have closes : ¬ v.closes = true := notDone v isVisit isReplica.symm isConn.symm
    have isOpen := hosts.member
    rw [if_neg closes] at isOpen
    exact steady.open_ne_ended isOpen isEnded (hosts.conn.trans isConn.symm)

end OtelFleet.Verified.SteadyTier
