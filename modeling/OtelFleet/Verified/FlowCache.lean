import OtelFleet.Auth.LoginFlows
import OtelFleet.Semantics.Machine
import OtelFleet.Verified.KeyRotation

/-! # Cached login flows

A login is served by the flow of the provider as it is stored at that moment.  Changes of a
provider stamp its row with a new time, which is part of the fingerprint.  A rotation of the
secrets does not, but it keeps what they decrypt to.
-/

namespace OtelFleet.Verified.FlowCache

open Api Auth Auth.Registry Crypto Data KeyRotation Semantics Store

inductive Event where
  | settings (req : SettingsRequest)
  | login (req : LoginRequest)

def serve [PrintTable] (reg : Registry) (state : SettingsTables × Flows) : Event → Option LoginAnswer × SettingsTables × Flows
  | .settings req => (none, serveSettings req state.1, state.2)
  | .login req =>
    let dispatched := dispatch reg state.1 state.2 req
    (some dispatched.1, state.1, dispatched.2)

def serveFresh [PrintTable] (reg : Registry) (db : SettingsTables) : Event → Option LoginAnswer × SettingsTables
  | .settings req => (none, serveSettings req db)
  | .login req => (some (dispatch reg db (fun _ => none) req).1, db)

/-- The time is after all stamps of the tables and of the changes so far. -/
def Later (db : SettingsTables) (past : List Event) (now : Int) : Prop :=
  (∀ provider ∈ db.providers, provider.updatedAt < now) ∧ ∀ req, .settings req ∈ past → req.env.now < now

/-! ## What a fingerprint stands for -/

def infoOf (cipher : Option KeyRing) (p : AuthProvider) : Option ResolvedProvider :=
  let info : ResolvedProvider :=
    { type := p.type, name := p.name, displayName := p.displayName
      issuer := effectiveIssuer p.type (p.issuer.getD ""), clientID := p.clientID }
  if p.type = typeSAML then p.samlConfig.map fun cfg => { info with saml := some cfg }
  else (cipher.bind fun ring => ring.decrypt p.clientSecretEnc).map fun secret => { info with clientSecret := secret }

/-- The fingerprint is that of a row, or of the environment's provider, which gives `info`. -/
def Describes (reg : Registry) (db : SettingsTables) (name : String) (fingerprint : Fingerprint) (info : ResolvedProvider) :
    Prop :=
  (∃ p ∈ db.providers, fingerprint = .db p.id p.updatedAt ∧ infoOf reg.cipher p = some info) ∨
    ∃ e, (reg.env.find? fun e => e.name = name) = some e ∧ fingerprint = .env e.name ∧
      info = ⟨typeOIDC, e.name, e.displayName, e.issuer, e.clientID, e.clientSecret, none⟩

section

variable {reg : Registry} {db : SettingsTables} {name : String} {info info' : ResolvedProvider} {fingerprint : Fingerprint}

theorem describes_of_resolve (resolved : reg.resolve db name = .ok (info, fingerprint)) :
    info.name = name ∧ Describes reg db name fingerprint info := by
  unfold resolve at resolved
  cases found : db.providers.find? fun p => p.name = name with
  | some p =>
    have isName : p.name = name := by simpa using List.find?_some found
    have mem := List.mem_of_find?_eq_some found
    simp only [found] at resolved
    split at resolved
    · split at resolved
      · rename_i isSAML
        cases isConfig : p.samlConfig with
        | none => simp [isConfig] at resolved
        | some cfg =>
          simp only [isConfig, Except.ok.injEq, Prod.mk.injEq] at resolved
          obtain ⟨rfl, rfl⟩ := resolved
          exact ⟨isName, Or.inl ⟨p, mem, rfl, by simp [infoOf, isSAML, isConfig]⟩⟩
      · rename_i notSAML
        cases opened : reg.cipher.bind fun ring => ring.decrypt p.clientSecretEnc with
        | none => simp [opened] at resolved
        | some secret =>
          simp only [opened, Except.ok.injEq, Prod.mk.injEq] at resolved
          obtain ⟨rfl, rfl⟩ := resolved
          exact ⟨isName, Or.inl ⟨p, mem, rfl, by simp [infoOf, notSAML, opened]⟩⟩
    · cases resolved
  | none =>
    simp only [found] at resolved
    cases configured : reg.env.find? fun e => e.name = name with
    | none => simp [configured] at resolved
    | some e =>
      simp only [configured, Except.ok.injEq, Prod.mk.injEq] at resolved
      obtain ⟨rfl, rfl⟩ := resolved
      exact ⟨by simpa using List.find?_some configured, Or.inr ⟨e, configured, rfl, rfl⟩⟩

theorem Describes.unique (kept : Kept db) (one : Describes reg db name fingerprint info)
    (other : Describes reg db name fingerprint info') : info = info' := by
  rcases one with ⟨p, mem, rfl, isInfo⟩ | ⟨e, isEnv, rfl, rfl⟩
  · rcases other with ⟨p', mem', same, isInfo'⟩ | ⟨_, _, same, _⟩
    · rw [Fingerprint.db.injEq] at same
      have isSame : p = p' := List.inj_on_of_nodup_map kept.providers mem mem' same.1
      rw [isSame, isInfo'] at isInfo
      exact (Option.some.inj isInfo).symm
    · cases same
  · rcases other with ⟨_, _, same, _⟩ | ⟨e', isEnv', _, rfl⟩
    · cases same
    · rw [isEnv] at isEnv'
      cases isEnv'
      rfl

end

/-! ## What a request does to the rows -/

def SameRow (cipher : Option KeyRing) (before after : AuthProvider) : Prop :=
  after = { before with clientSecretEnc := after.clientSecretEnc } ∧
    (cipher.bind fun ring => ring.decrypt after.clientSecretEnc) = cipher.bind fun ring => ring.decrypt before.clientSecretEnc

/-- Each row is stamped with the time of the change, or is one of before. -/
def Stamped (cipher : Option KeyRing) (now : Int) (before after : SettingsTables) : Prop :=
  ∀ p ∈ after.providers, p.updatedAt = now ∨ ∃ p' ∈ before.providers, SameRow cipher p' p

section

variable {cipher : Option KeyRing} {now : Int} {db : SettingsTables} {faults : Faults StoreError}

theorem stamped_refl : Stamped cipher now db db := fun p mem => Or.inr ⟨p, mem, rfl, rfl⟩

theorem stamped_inTx {change : Statement SettingsTables StoreError} (entry : AuditEntry)
    (changed : ∀ d after, change d = .ok after → Stamped cipher now db d → Stamped cipher now db after) :
    Stamped cipher now db (inTx faults [change, fun db => .ok (db.writeAuditEntry entry)] db).2 :=
  @audited_preserves _ _ _ _ (fun db => db.writeAuditEntry entry) faults changed (fun _ holds => holds) _ stamped_refl

theorem newAuthProvider_updatedAt [PrintTable] {env : SettingsEnv} {body : AuthProviderCreate} {provider : AuthProvider}
    (checked : newAuthProvider env body = .ok provider) : provider.updatedAt = env.now := by
  simp only [newAuthProvider, bind, Except.bind, pure, Except.pure] at checked
  repeat' split at checked
  all_goals cases checked
  all_goals rfl

theorem stamped_create {provider : AuthProvider} (isNow : provider.updatedAt = now) (entry : AuditEntry) :
    Stamped cipher now db (createAuthProvider faults entry db provider).2 := by
  have committed := @stamped_inTx cipher now db faults (fun db => db.insertAuthProvider provider) entry (by
    intro d after inserted stamped
    unfold SettingsTables.insertAuthProvider at inserted
    split_ifs at inserted
    cases inserted
    exact forall_mem_append_row stamped (Or.inl isNow))
  unfold createAuthProvider
  split <;> exact of_outcome ‹_› committed

theorem stamped_update (id : Uuid) (upd : AuthProviderUpdate) (entry : AuditEntry) :
    Stamped cipher now db (updateAuthProvider faults entry db id upd now).2 := by
  have committed := @stamped_inTx cipher now db faults (fun db => db.patchAuthProvider id upd now) entry (by
    intro d after patched stamped
    unfold SettingsTables.patchAuthProvider at patched
    split_ifs at patched
    cases patched
    refine List.forall_mem_map.mpr fun p mem => ?_
    split
    · exact Or.inl rfl
    · exact stamped p mem)
  unfold updateAuthProvider
  split <;> exact of_outcome ‹_› committed

theorem stamped_delete (id : Uuid) (entry : AuditEntry) :
    Stamped cipher now db (deleteAuthProvider faults entry db id).2 := by
  apply stamped_inTx
  intro d after removed stamped
  unfold SettingsTables.removeAuthProvider at removed
  split_ifs at removed
  cases removed
  exact fun p mem => stamped p (List.mem_of_mem_filter mem)

theorem sameRow_migrated {ring : KeyRing} {nonce : Except String Nat} {enc newEnc : String} {before after : AuthProvider}
    (same : SameRow (some ring) before after) (isEnc : ring.decrypt enc = ring.decrypt before.clientSecretEnc)
    (migrated : migrateSecret ring nonce enc = .ok (some newEnc)) :
    SameRow (some ring) before { after with clientSecretEnc := newEnc } := by
  refine ⟨by rw [same.1], ?_⟩
  simp only [Option.bind_some, ← isEnc]
  unfold migrateSecret at migrated
  split at migrated
  · cases migrated
  · split at migrated
    · cases migrated
    · split at migrated
      · cases migrated
      · rename_i opened _ _
        cases migrated
        rw [opened, KeyRing.decrypt_encrypt]

def Rotated (ring : KeyRing) (before after : SettingsTables) : Prop :=
  ∀ p ∈ after.providers, ∃ p' ∈ before.providers, SameRow (some ring) p' p

theorem rotated_batch {ring : KeyRing} (kept : Kept db) {nonces : SecretColumn → Uuid → Except String Nat}
    (column : SecretColumn) {batch : List (Uuid × String)} (migrated : Nat)
    (isBatch : column = .clientSecret → ∀ row ∈ batch, ∃ p ∈ db.providers, p.id = row.1 ∧
      ring.decrypt row.2 = ring.decrypt p.clientSecretEnc) :
    Eff.Preserves (fun world => Rotated ring db world.1)
      (reencryptBatch faults (fun column id enc => migrateSecret ring (nonces column id) enc) column batch migrated) := by
  induction batch generalizing migrated with
  | nil => exact Eff.preserves_pure migrated
  | cons row rest ih =>
    obtain ⟨id, enc⟩ := row
    have later migrated := ih migrated fun isColumn => (List.forall_mem_cons.mp (isBatch isColumn)).2
    refine (Eff.preserves_ofExcept _).bind ?_
    rintro res ⟨world, after, ran⟩
    cases res with
    | none => exact later migrated
    | some newEnc =>
      have wrote : Eff.Preserves (fun world => Rotated ring db world.1)
          (Body.exec faults (SettingsTables.setSecret column id newEnc)) := by
        refine @Body.statement_preserves _ _ _ _ (Rotated ring db) _ (fun d rotated => ?_) _
        cases column with
        | webhookSecret => exact rotated
        | clientSecret =>
          refine List.forall_mem_map.mpr fun p mem => ?_
          obtain ⟨old, isOld, same⟩ := rotated p mem
          split
          · -- the batch was read before: its ciphertext is that of the row as IDs are unique
            rename_i isID
            obtain ⟨row, isRow, rowID, isEnc⟩ := (List.forall_mem_cons.mp (isBatch rfl)).1
            have sameID : row.id = old.id := by rw [rowID, ← isID, same.1]
            cases List.inj_on_of_nodup_map kept.providers isRow isOld sameID
            exact ⟨old, isOld, sameRow_migrated same isEnc (congrArg Prod.fst ran)⟩
          · exact ⟨old, isOld, same⟩
      exact wrote.bind fun _ _ => later (migrated + 1)

theorem stamped_reencrypt {env : SettingsEnv} (isRing : env.ring = cipher) (kept : Kept db) :
    Stamped cipher now db (handleReencryptSecrets env faults db).2 := by
  unfold handleReencryptSecrets
  rw [isRing]
  cases cipher with
  | none => exact stamped_refl
  | some ring =>
    have body : Eff.Preserves (fun world => Rotated ring db world.1) (reencryptTables faults
        (fun column id enc => migrateSecret ring (env.rotationNonce column id) enc) reencryptColumns 0) := by
      refine Body.select_bind_preserves fun d rotated => (rotated_batch kept .clientSecret 0 fun _ => ?_).bind fun migrated _ =>
        Body.select_bind_preserves fun d _ => (rotated_batch kept .webhookSecret migrated nofun).bind fun _ _ =>
          Eff.preserves_pure _
      refine List.forall_mem_map.mpr fun p mem => ?_
      obtain ⟨old, isOld, same⟩ := rotated p mem
      exact ⟨old, isOld, by rw [same.1], same.2⟩
    have committed := @transact_preserves _ _ _ faults _ _ _ body fun p mem => ⟨p, mem, rfl, rfl⟩
    dsimp only
    split <;> exact fun p mem => Or.inr (of_outcome ‹_› committed p mem)

theorem serveSettings_stamped [PrintTable] {req : SettingsRequest} (isRing : req.env.ring = cipher) (kept : Kept db) :
    Stamped cipher req.env.now db (serveSettings req db) := by
  unfold serveSettings
  cases req.call with
  | createProvider body =>
    dsimp only
    unfold createAuthProviderConfig
    split
    · exact stamped_refl
    · rename_i checked
      have created entry := @stamped_create cipher _ db req.faults _ (newAuthProvider_updatedAt checked) entry
      dsimp only
      split <;> exact of_outcome ‹_› (created _)
  | updateProvider id body =>
    dsimp only
    unfold updateAuthProviderConfig
    split
    · exact stamped_refl
    · rename_i upd _
      have updated entry := @stamped_update cipher req.env.now db (fun n => req.faults (n + 1)) id upd entry
      split <;> exact of_outcome ‹_› (updated _)
  | deleteProvider id =>
    dsimp only
    unfold deleteAuthProviderConfig
    split
    · exact stamped_refl
    · have deleted entry := @stamped_delete cipher req.env.now db (fun n => req.faults (n + 1)) id entry
      dsimp only
      split <;> exact of_outcome ‹_› (deleted _)
  | webhooks route => exact stamped_refl
  | reencrypt => exact stamped_reencrypt isRing kept

end

/-! ## Any sequence of requests -/

variable {reg : Registry} {start db after : SettingsTables} {past : List Event} {flows : Flows}

theorem Later.before {tail : List Event} {now : Int} (later : Later start (past ++ tail) now) : Later start past now :=
  ⟨later.1, fun req mem => later.2 req (List.mem_append_left _ mem)⟩

theorem describes_of_stamped {now : Int} (stamped : Stamped reg.cipher now db after) {name : String}
    {fingerprint : Fingerprint} {info : ResolvedProvider} (described : Describes reg after name fingerprint info) :
    Describes reg db name fingerprint info ∨ ∃ id, fingerprint = .db id now := by
  rcases described with ⟨p, mem, rfl, isInfo⟩ | isEnv
  · rcases stamped p mem with rfl | ⟨old, isOld, same, opens⟩
    · exact Or.inr ⟨p.id, rfl⟩
    · refine Or.inl (Or.inl ⟨old, isOld, by rw [same], ?_⟩)
      rw [← isInfo, same]
      simp [infoOf, opens]
  · exact Or.inl (Or.inr isEnv)

/-- What is cached is the flow of what its fingerprint stands for now, if of anything. -/
structure Faithful (reg : Registry) (start : SettingsTables) (past : List Event) (flows : Flows) (db : SettingsTables) :
    Prop where
  kept : Kept db
  rows : ∀ p ∈ db.providers, ∀ now, Later start past now → p.updatedAt < now
  stamps : ∀ name cached, flows name = some cached → ∀ id time, cached.fingerprint = .db id time →
    ∀ now, Later start past now → time < now
  current : ∀ name cached, flows name = some cached → ∀ info, Describes reg db name cached.fingerprint info →
    cached.flow = newFlow info

theorem Faithful.changed [PrintTable] {req : SettingsRequest} (faithful : Faithful reg start past flows db)
    (isRing : req.env.ring = reg.cipher) (later : Later start past req.env.now) :
    Faithful reg start (past ++ [.settings req]) flows (serveSettings req db) := by
  have stamped := serveSettings_stamped isRing faithful.kept
  refine ⟨serveSettings_kept req faithful.kept, ?_, ?_, ?_⟩
  · intro p mem now isLater
    rcases stamped p mem with isNow | ⟨old, isOld, same, _⟩
    · rw [isNow]
      exact isLater.2 req (by simp)
    · rw [same]
      exact faithful.rows old isOld now isLater.before
  · intro name cached isCached id time isStamp now isLater
    exact faithful.stamps name cached isCached id time isStamp now isLater.before
  · intro name cached isCached info described
    rcases describes_of_stamped stamped described with same | ⟨id, isNow⟩
    · exact faithful.current name cached isCached info same
    · -- what is cached has an older stamp than this change
      exact absurd (faithful.stamps name cached isCached id _ isNow _ later) (lt_irrefl _)

theorem Faithful.cached (faithful : Faithful reg start past flows db) {name : String} {info : ResolvedProvider}
    {fingerprint : Fingerprint} (isName : info.name = name) (described : Describes reg db name fingerprint info) :
    (flowFor flows info fingerprint).1 = newFlow info ∧ Faithful reg start past (flowFor flows info fingerprint).2 db := by
  subst isName
  unfold flowFor
  split
  · rename_i cached found
    obtain ⟨isCached, same⟩ := Option.filter_eq_some_iff.mp found
    rw [← of_decide_eq_true same] at described
    exact ⟨faithful.current _ cached isCached info described, faithful⟩
  · -- a new entry replaces that of its own name only
    have cases_of {name : String} {cached : CachedFlow}
        (isCached : Function.update flows info.name (some ⟨fingerprint, newFlow info⟩) name = some cached) :
        flows name = some cached ∨ name = info.name ∧ cached = ⟨fingerprint, newFlow info⟩ := by
      rw [Function.update_apply] at isCached
      split at isCached
      · exact Or.inr ⟨‹_›, (Option.some.inj isCached).symm⟩
      · exact Or.inl isCached
    refine ⟨rfl, faithful.kept, faithful.rows, ?_, ?_⟩
    · intro name cached isCached id time isStamp now isLater
      rcases cases_of isCached with old | ⟨rfl, rfl⟩
      · exact faithful.stamps name cached old id time isStamp now isLater
      · rcases described with ⟨p, mem, rfl, _⟩ | ⟨_, _, rfl, _⟩ <;> cases isStamp
        exact faithful.rows p mem now isLater
    · intro name cached isCached other isOther
      rcases cases_of isCached with old | ⟨rfl, rfl⟩
      · exact faithful.current name cached old other isOther
      · exact congrArg newFlow (described.unique faithful.kept isOther)

theorem Faithful.dispatched (faithful : Faithful reg start past flows db) (req : LoginRequest) :
    (dispatch reg db flows req).1 = (dispatch reg db (fun _ => none) req).1 ∧
      Faithful reg start past (dispatch reg db flows req).2 db := by
  unfold dispatch
  dsimp only
  split_ifs
  · exact ⟨rfl, faithful⟩
  · exact ⟨rfl, faithful⟩
  · split
    · exact ⟨rfl, faithful⟩
    · exact ⟨rfl, faithful⟩
    · rename_i info fingerprint resolved
      obtain ⟨isName, described⟩ := describes_of_resolve resolved
      obtain ⟨same, after⟩ := faithful.cached isName described
      exact ⟨by rw [same]; rfl, after⟩

/-- The cached flows answer every login like new ones, if each change of a provider is stamped
    with a later time and the rotations are made with the registry's keys. -/
theorem flows_transparent [PrintTable] (reg : Registry) (start : SettingsTables) (events : List Event) (kept : Kept start)
    (paced : ∀ before req after, events = before ++ .settings req :: after →
      req.env.ring = reg.cipher ∧ Later start before req.env.now) :
    outputs (serve reg) (start, fun _ => none) events = outputs (serveFresh reg) start events := by
  let rel past (state : SettingsTables × Flows) db := state.1 = db ∧ Faithful reg start past state.2 db
  let allowed past event := ∀ req, event = Event.settings req →
    req.env.ring = reg.cipher ∧ Later start past req.env.now
  have begins : rel [] (start, fun _ => none) start :=
    ⟨rfl, kept, fun p mem now isLater => isLater.1 p mem, nofun, nofun⟩
  refine @outputs_eq_of_simulation _ _ _ _ _ _ rel allowed ?_ _ _ _ begins _ ?_
  · rintro past event ⟨db, flows⟩ _ ⟨rfl, faithful⟩ isAllowed
    cases event with
    | settings req =>
      obtain ⟨isRing, later⟩ := isAllowed req rfl
      exact ⟨rfl, rfl, faithful.changed isRing later⟩
    | login req =>
      obtain ⟨same, kept, rows, stamps, current⟩ := faithful.dispatched req
      exact ⟨congrArg some same, rfl, kept, fun p mem now later => rows p mem now later.before,
        fun name cached isCached id time isStamp now later => stamps name cached isCached id time isStamp now later.before,
        current⟩
  · intro before event after split req isRequest
    exact paced before req after (isRequest ▸ split)

attribute [local instance] asciiPrintTable

def changeAt (now : Int) (call : SettingsCall) : Event :=
  .settings { createGitHub with call, env := { quietEnv oldRing with now } }

def gitHubLogin : Event := .login ⟨"/auth/gh/start", .start, false⟩

/-- The second login meets the flow of the old client; the third one the flow that is
    cached, since a rotation stamps nothing. -/
def threeLogins : List Event :=
  [.settings createGitHub, gitHubLogin, changeAt 1 (.updateProvider ⟨1⟩ { clientId := some "new" }), gitHubLogin,
    changeAt 2 .reencrypt, gitHubLogin]

theorem threeLogins_transparent : outputs (serve ⟨[], some oldRing⟩) (noSettings, fun _ => none) threeLogins =
    outputs (serveFresh ⟨[], some oldRing⟩) noSettings threeLogins := by
  refine flows_transparent _ _ _ ⟨⟨by simp [noSettings], by simp [noSettings]⟩, by simp [noSettings]⟩ ?_
  intro before req after split
  rcases before with _ | ⟨_, _ | ⟨_, _ | ⟨_, _ | ⟨_, _ | ⟨_, _ | ⟨_, _⟩⟩⟩⟩⟩⟩ <;>
    simp [threeLogins, changeAt, gitHubLogin] at split
  · rw [← split.1]
    exact ⟨rfl, by simp [noSettings], by simp⟩
  · obtain ⟨rfl, rfl, rfl, _⟩ := split
    exact ⟨rfl, by simp [noSettings], by simp [createGitHub, quietEnv]⟩
  · obtain ⟨rfl, rfl, rfl, rfl, rfl, _⟩ := split
    exact ⟨rfl, by simp [noSettings], by simp [createGitHub, quietEnv]⟩

end OtelFleet.Verified.FlowCache
