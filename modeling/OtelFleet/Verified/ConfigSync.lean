import Mathlib.Data.List.Induction
import OtelFleet.Api.Agents
import OtelFleet.Verified.Acknowledgements
import OtelFleet.Verified.TierRuns

/-! # What "in sync" means

The API shows an agent as in sync if and only if the assigned hash is the one that the
agent's last telling report named.  A report is telling if it names a hash, or says that
there is no remote config.  The status that came with the hash plays no part: a config
that the agent failed to apply is acknowledged as well.
-/

namespace OtelFleet.Verified.ConfigSync

open Api OpAMP Semantics Store Store.FleetTables
open Verified.Acknowledgements Verified.MessageRules Verified.TierRuns

/-! ## Histories of reports -/

variable (reports : List RemoteConfigReport)

def lastAcknowledged : Option Bytes :=
  reports.foldl (fun acked report => acknowledgedBy report acked) none

/-- A report named the hash, and no later one named a hash or said that there is none. -/
def NamedLast (hash : Bytes) (reports : List RemoteConfigReport) : Prop :=
  ∃ earlier report later, reports = earlier ++ report :: later ∧ report.lastRemoteConfigHash = hash ∧
    ∀ silent ∈ later, silent.lastRemoteConfigHash = [] ∧ mapRemoteConfigStatus silent.status ≠ .unset

theorem lastAcknowledged_concat (report : RemoteConfigReport) :
    lastAcknowledged (reports ++ [report]) = acknowledgedBy report (lastAcknowledged reports) := by
  simp only [lastAcknowledged, List.foldl_append, List.foldl_cons, List.foldl_nil]

variable {reports : List RemoteConfigReport}

theorem namedLast_concat {hash : Bytes} {report : RemoteConfigReport} :
    NamedLast hash (reports ++ [report]) ↔ report.lastRemoteConfigHash = hash ∨
      ((report.lastRemoteConfigHash = [] ∧ mapRemoteConfigStatus report.status ≠ .unset) ∧ NamedLast hash reports) := by
  constructor
  · rintro ⟨earlier, named, later, split, isHash, silent⟩
    rcases List.eq_nil_or_concat later with rfl | ⟨before, last, rfl⟩
    · obtain ⟨_, same⟩ := List.append_inj' split rfl
      cases same
      exact Or.inl isHash
    · have split' : reports ++ [report] = (earlier ++ named :: before) ++ [last] := by
        rw [split]
        simp
      obtain ⟨rfl, same⟩ := List.append_inj' split' rfl
      cases same
      refine Or.inr ⟨silent report (by simp), earlier, named, before, rfl, isHash, fun other mem => ?_⟩
      exact silent other (by simp [mem])
  · rintro (isHash | ⟨isSilent, earlier, named, later, rfl, isHash, silent⟩)
    · exact ⟨reports, report, [], rfl, isHash, fun _ mem => nomatch mem⟩
    · exact ⟨earlier, named, later ++ [report], by simp, isHash, Data.forall_mem_append_row silent isSilent⟩

theorem lastAcknowledged_eq_some_iff {hash : Bytes} (present : hash ≠ []) :
    lastAcknowledged reports = some hash ↔ NamedLast hash reports := by
  -- The induction follows the fold, which takes the oldest report first.
  induction reports using List.reverseRecOn with
  | nil =>
    constructor
    · intro isSome
      cases isSome
    · rintro ⟨earlier, named, later, split, _⟩
      simp at split
  | append_singleton reports report ih =>
    rw [lastAcknowledged_concat, namedLast_concat, ← ih]
    unfold acknowledgedBy
    by_cases named : report.lastRemoteConfigHash = []
    · by_cases isUnset : mapRemoteConfigStatus report.status = .unset <;> simp [named, Ne.symm present]
    · simp [named]

/-! ## The control plane keeps what was acknowledged -/

def Agreed (desk : Desk) : Prop := ∀ uid, Agrees uid (lastAcknowledged (desk.reports uid)) (acksOf desk.world uid)

section

variable {env : Env} {desk : Desk}

theorem reports_message (incoming : Incoming) (uid : Bytes) :
    lastAcknowledged ((desk.handle env (.message incoming)).reports uid) =
      match ((receive env 0 incoming).run desk.world).1 with
      | .answered _ => lastAcknowledged (desk.reports uid)
      | .admitted _ _ =>
        if uid = incoming.uid then reported incoming (lastAcknowledged (desk.reports uid))
        else lastAcknowledged (desk.reports uid) := by
  cases isStage : ((receive env 0 incoming).run desk.world).1 with
  | answered resp => simp only [Desk.handle, Desk.reports, isStage, takenFrom, List.append_nil]
  | admitted st newConn =>
    by_cases isUID : uid = incoming.uid
    · subst isUID
      rw [if_pos rfl]
      cases isReport : incoming.msg.remoteConfigStatus with
      | none => simp [Desk.handle, Desk.reports, isStage, takenFrom, reported, isReport]
      | some report =>
        have added : (desk.handle env (.message incoming)).reports incoming.uid =
            desk.reports incoming.uid ++ [report] := by
          simp [Desk.handle, Desk.reports, isStage, takenFrom, isReport]
        rw [added, lastAcknowledged_concat]
        simp only [reported, isReport]
    · have notUID : incoming.uid ≠ uid := fun same => isUID same.symm
      rw [if_neg isUID]
      cases isReport : incoming.msg.remoteConfigStatus with
      | none => simp [Desk.handle, Desk.reports, isStage, takenFrom, isReport]
      | some report => simp [Desk.handle, Desk.reports, isStage, takenFrom, isReport, notUID]

theorem agreed_message (succeeds : ∀ call, env.writeFaults call = none) (agreed : Agreed desk) (incoming : Incoming) :
    Agreed (desk.handle env (.message incoming)) := by
  have known : Own incoming (acksOf desk.world) (acksOf desk.world incoming.uid) desk.world :=
    (Function.update_eq_self _ _).symm
  have received := (triple_receive succeeds (agreed incoming.uid)).ends desk.world known
  have isWorld : (desk.handle env (.message incoming)).world =
      ((finish env 0 incoming ((receive env 0 incoming).run desk.world).1).run
        ((receive env 0 incoming).run desk.world).2).2 := by
    simp only [Desk.handle, handleMessage, Prog.run_bind]
  intro uid
  rw [reports_message, isWorld]
  generalize ((receive env 0 incoming).run desk.world).1 = stage at received ⊢
  generalize ((receive env 0 incoming).run desk.world).2 = after at received ⊢
  cases stage with
  | answered resp =>
    obtain ⟨own, knownThen, agrees⟩ := received
    show Agrees uid _ (acksOf after uid)
    rw [show acksOf after = _ from knownThen]
    by_cases isUID : uid = incoming.uid
    · subst isUID
      rw [Function.update_self]
      exact agrees
    · rw [Function.update_of_ne isUID]
      exact agreed uid
  | admitted st newConn =>
    obtain ⟨id, knownThen, follows⟩ := received
    have offers : Serves (stillRules incoming.uid id (acksOf after)) (OffersOwn (fun _ _ => True) st.customerID)
        (makeOffers env 0 incoming st newConn) :=
      serves_makeOffers follows.instanceUID follows.agentID (fun _ _ => rfl) newConn
    have still := ((triple_of_serves offers).ends after rfl).2
    show Agrees uid _ (acksOf ((makeOffers env 0 incoming st newConn).run after).2 uid)
    rw [still, show acksOf after = _ from knownThen]
    by_cases isUID : uid = incoming.uid
    · subst isUID
      rw [Function.update_self]
      simp only [if_true]
      exact .registered id
    · rw [Function.update_of_ne isUID]
      simp only [if_neg isUID]
      exact agreed uid

theorem agreed_push (agreed : Agreed desk) (customerID : Uuid) : Agreed (desk.handle env (.push customerID)) := by
  have pushes : Pushes (stillPushes (acksOf desk.world)) (edgeConfigChanged env 0 customerID) desk.world :=
    pushes_edgeConfigChanged 0 customerID
  have still : acksOf (desk.handle env (.push customerID)).world = acksOf desk.world := (pushes.run (fun _ => rfl) rfl).2
  intro uid
  rw [still]
  exact agreed uid

theorem agreed_dropped {world : World} (agreed : Agreed desk)
    (kept : ∀ uid, (acksOf world uid).row = (acksOf desk.world uid).row ∧
      ((acksOf world uid).entry = (acksOf desk.world uid).entry ∨ (acksOf world uid).entry = none)) :
    Agreed { desk with world := world } := by
  intro uid
  obtain ⟨row, entry⟩ := kept uid
  have agrees := (agreed uid).dropped entry
  rw [← row] at agrees
  exact agrees

theorem close_still {conn : Conn} {now : Int} (world : World) :
    acksOf ((handleConnectionClose env 0 conn now).run world).2 =
      acksOf (world.setRegistry 0 ((world.registries 0).removeConn conn).2) := by
  unfold handleConnectionClose
  rw [Prog.run_bind, Prog.run_atomically]
  cases ((world.registries 0).removeConn conn).1 with
  | none => rfl
  | some st =>
    dsimp only
    split
    · rfl
    · have offline : Serves (stillRules st.instanceUID st.agentID
          (acksOf (world.setRegistry 0 ((world.registries 0).removeConn conn).2))) (fun _ => True)
          (exec env (fun db => db.setAgentConnected st.agentID false (st.lastSeen.getD now)) >>= fun _ =>
            emitEvent ⟨"agent_offline", st.agentID, st.customerID, []⟩) := by
        apply Serves.bind
        · apply serves_exec
          intro db value db' called
          refine ⟨_, _, ?_, updateAgent_ok called⟩
          exact fun _ => rfl
        · intro _ _
          exact serves_emitEvent _
      exact ((triple_of_serves offline).ends _ rfl).2

theorem agreed_close (agreed : Agreed desk) (conn : Conn) (now : Int) : Agreed (desk.handle env (.close conn now)) := by
  apply agreed_dropped agreed
  intro uid
  rw [close_still, acksOf_setRegistry]
  refine ⟨rfl, ?_⟩
  dsimp only
  cases found : ((desk.world.registries 0).removeConn conn).2.get uid with
  | none => exact Or.inr rfl
  | some st =>
    left
    simp only [acksOf, Registry.get_of_removeConn found]

theorem agreed_handle (succeeds : ∀ call, env.writeFaults call = none) (agreed : Agreed desk) (call : Call) :
    Agreed (desk.handle env call) := by
  cases call with
  | message incoming => exact agreed_message succeeds agreed incoming
  | close conn now => exact agreed_close agreed conn now
  | push customerID => exact agreed_push agreed customerID
  | commit edgeConfig => exact agreed
  | restart => exact agreed_dropped agreed fun _ => ⟨rfl, Or.inr rfl⟩

theorem agreed_calls (succeeds : ∀ call, env.writeFaults call = none) (agreed : Agreed desk) (calls : List Call) :
    Agreed (calls.foldl (Desk.handle env) desk) := by
  induction calls generalizing desk with
  | nil => exact agreed
  | cons call calls ih => exact ih (agreed_handle succeeds agreed call)

end

/-! ## In sync -/

variable {env : Env}

structure Blank (world : World) : Prop where
  entries : world.registries 0 = .empty
  rows : ∀ agent ∈ world.db.agents, agent.ackedConfigHash = none

theorem Blank.agreed {world : World} (blank : Blank world) : Agreed ⟨world, []⟩ := by
  intro uid
  have noEntry : (acksOf world uid).entry = none := by
    simp only [acksOf, blank.entries]
    rfl
  cases found : world.db.agents.find? fun agent => agent.instanceUID = uid with
  | none =>
    have own : acksOf world uid = ⟨none, none⟩ := Acks.ext (by simp only [acksOf, found, Option.map_none]) noEntry
    rw [own]
    exact .unknown rfl
  | some agent =>
    have unacked := blank.rows agent (List.mem_of_find?_eq_some found)
    have own : acksOf world uid = ⟨some (agent.id, none), none⟩ :=
      Acks.ext (by simp only [acksOf, found, Option.map_some, unacked]) noEntry
    rw [own]
    exact .row agent.id

theorem Agreed.acked {desk : Desk} (agreed : Agreed desk) {agent : Agent} (mem : agent ∈ desk.world.db.agents) :
    agent.ackedConfigHash = lastAcknowledged (desk.reports agent.instanceUID) := by
  have found := find_of_mem mem
  have isRow : (acksOf desk.world agent.instanceUID).row = some (agent.id, agent.ackedConfigHash) := by
    simp only [acksOf, found, Option.map_some]
  have agrees := agreed agent.instanceUID
  generalize acksOf desk.world agent.instanceUID = kept at agrees isRow
  cases agrees with
  | unknown _ => cases isRow
  | row id | registered id => exact (congrArg Prod.snd (Option.some.inj isRow)).symm

/-- An agent is in sync exactly if the assigned hash is the one it acknowledged last. -/
theorem in_sync_iff_named_last (succeeds : ∀ call, env.writeFaults call = none) {start : World} (blank : Blank start)
    (calls : List Call) {agent : Agent} (mem : agent ∈ (calls.foldl (Desk.handle env) ⟨start, []⟩).world.db.agents) :
    (toAgent agent).configInSync = some true ↔ ∃ hash, hash ≠ [] ∧ agent.assignedConfigHash = some hash ∧
      NamedLast hash ((calls.foldl (Desk.handle env) ⟨start, []⟩).reports agent.instanceUID) := by
  have acked := (agreed_calls succeeds blank.agreed calls).acked mem
  show configInSync agent.assignedConfigHash agent.ackedConfigHash = some true ↔ _
  rw [configInSync_eq_true_iff, acked]
  apply exists_congr
  intro hash
  apply and_congr_right
  intro present
  rw [lastAcknowledged_eq_some_iff present]

def greeting : Incoming where
  conn := some ⟨1⟩
  auth := acmeAuth
  msg := { hello [5] with capabilities := acceptsRemoteConfigBit }
  now := 10
  newID := firstID
  token := .error ""

def reporting (status : RemoteConfigStatuses) : Incoming :=
  { greeting with msg := { instanceUID := [5], remoteConfigStatus := some ⟨status, [7], ""⟩ } }

def afterReport (status : RemoteConfigStatuses) : Desk :=
  [.message greeting, .message (reporting status)].foldl (Desk.handle acmeEnv) ⟨acmeTier.world, []⟩

theorem applied_in_sync : ∃ agent ∈ (afterReport .applied).world.db.agents,
    (toAgent agent).configInSync = some true ∧ NamedLast [7] ((afterReport .applied).reports agent.instanceUID) := by
  have blank : Blank acmeTier.world := ⟨rfl, fun _ mem => nomatch mem⟩
  have reports : NamedLast [7] ((afterReport .applied).reports [5]) :=
    ⟨[], ⟨.applied, [7], ""⟩, [], rfl, rfl, fun _ mem => nomatch mem⟩
  refine ⟨_, List.mem_singleton_self _, ?_, reports⟩
  exact (in_sync_iff_named_last (fun _ => rfl) blank _ (List.mem_singleton_self _)).mpr
    ⟨[7], List.cons_ne_nil _ _, rfl, reports⟩

/-- A config that could not be applied is in sync as well. -/
theorem failed_in_sync : ∃ agent ∈ (afterReport .failed).world.db.agents,
    (toAgent agent).configInSync = some true ∧ agent.assignedConfigHash = some [7] ∧
    (afterReport .failed).reports agent.instanceUID = [⟨.failed, [7], ""⟩] :=
  ⟨_, List.mem_singleton_self _, rfl, rfl, rfl⟩

end OtelFleet.Verified.ConfigSync
