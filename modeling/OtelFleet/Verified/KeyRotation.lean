import OtelFleet.Api.AuthProviders
import OtelFleet.Data.Related
import OtelFleet.Data.Rows
import OtelFleet.Semantics.Run

/-! # Rotating the master key

`ReencryptSecrets` rewrites the secrets of the login providers and the channels.
One secret at a time it keeps the plaintext, and a secret under the primary key is
left alone.  The loop fails as a whole on the first secret that no key opens, and
the empty text that a SAML provider has for a secret is one of them.
-/

namespace OtelFleet.Verified.KeyRotation

open Api Crypto Data Semantics Store

/-! ## One secret -/

/-- The text was made under a key of the ring. -/
def SealedUnder (ring : KeyRing) (enc : String) : Prop :=
  ∃ key ∈ ring.decrypters, ∃ nonce plaintext, enc = toText (sealWith key nonce plaintext)

theorem toText_sealWith_ne (key : Aead) (nonce : Nat) (plaintext : String) :
    toText (sealWith key nonce plaintext) ≠ "" := by
  intro empty
  have opened := ofText_toText (sealWith key nonce plaintext)
  rw [empty] at opened
  cases opened

section

variable {ring : KeyRing} {enc plaintext : String} {nonce : Except String Nat}

theorem SealedUnder.decrypts (isSealed : SealedUnder ring enc) : ∃ plaintext, ring.decrypt enc = some plaintext := by
  obtain ⟨key, mem, nonce, plaintext, rfl⟩ := isSealed
  rw [KeyRing.decrypt, ofText_toText]
  exact Option.isSome_iff_exists.mp (openWith_of_mem mem)

theorem encryptedWithPrimary_iff :
    ring.encryptedWithPrimary enc ↔ ∃ plaintext, ring.dropSecondaries.decrypt enc = some plaintext :=
  Option.isSome_iff_exists

theorem migrateSecret_ok (decrypts : ring.decrypt enc = some plaintext) {n : Nat} (drawn : nonce = .ok n) :
    ∃ res, migrateSecret ring nonce enc = .ok res ∧
      ring.dropSecondaries.decrypt (res.getD enc) = some plaintext := by
  unfold migrateSecret
  by_cases isPrimary : ring.encryptedWithPrimary enc
  · obtain ⟨text, opens⟩ := encryptedWithPrimary_iff.mp isPrimary
    cases (KeyRing.decrypt_of_dropSecondaries opens).symm.trans decrypts
    rw [if_pos isPrimary]
    exact ⟨none, rfl, opens⟩
  · rw [if_neg isPrimary, decrypts, drawn]
    exact ⟨some (ring.encrypt n plaintext), rfl, ring.dropSecondaries.decrypt_encrypt n plaintext⟩

theorem migrateSecret_some {newEnc : String} (migrated : migrateSecret ring nonce enc = .ok (some newEnc)) :
    newEnc ≠ "" := by
  unfold migrateSecret at migrated
  split at migrated
  · cases migrated
  · split at migrated
    · cases migrated
    · split at migrated
      · cases migrated
      · cases migrated
        exact toText_sealWith_ne _ _ _

end

/-! ## The loop over the secrets -/

variable (new : Uuid → String → Option String)

def rekeyed (db : SettingsTables) : SecretColumn → SettingsTables
  | .clientSecret =>
    { db with providers := db.providers.map fun provider =>
      (new provider.id provider.clientSecretEnc).elim provider fun enc => { provider with clientSecretEnc := enc } }
  | .webhookSecret =>
    { db with webhooks := db.webhooks.map fun hook =>
      (hook.secretEnc.bind (new hook.id)).elim hook fun enc => { hook with secretEnc := some enc } }

section

variable {faults : Faults StoreError} {migrate : SecretColumn → Uuid → String → Except StoreError (Option String)}
variable {column : SecretColumn} {batch : List (Uuid × String)}

theorem reencryptBatch_error (stuck : ∃ row ∈ batch, ∃ err, migrate column row.1 row.2 = .error err)
    (migrated : Nat) (world : SettingsTables × Nat) :
    ∃ err after, (reencryptBatch faults migrate column batch migrated).run world = (.error err, after) := by
  induction batch generalizing migrated world with
  | nil => simp at stuck
  | cons row rest ih =>
    obtain ⟨id, enc⟩ := row
    rw [reencryptBatch, Eff.run_bind, Eff.run_ofExcept]
    cases outcome : migrate column id enc with
    | error err => exact ⟨err, world, rfl⟩
    | ok res =>
      have later : ∃ row ∈ rest, ∃ err, migrate column row.1 row.2 = .error err := by
        obtain ⟨row, mem, err, failed⟩ := stuck
        rcases List.mem_cons.mp mem with rfl | inRest
        · cases outcome.symm.trans failed
        · exact ⟨row, inRest, err, failed⟩
      cases res with
      | none => exact ih later migrated world
      | some newEnc =>
        dsimp only
        rw [Eff.run_bind]
        cases (Body.exec faults (SettingsTables.setSecret column id newEnc)).run world with
        | mk res after =>
          cases res with
          | error err => exact ⟨err, after, rfl⟩
          | ok _ => exact ih later (migrated + 1) after

theorem run_reencryptBatch (noFault : ∀ n, faults n = none) {new : Uuid → String → Option String}
    (migrates : ∀ row ∈ batch, migrate column row.1 row.2 = .ok (new row.1 row.2)) (migrated : Nat)
    (db : SettingsTables) (n : Nat) :
    ∃ n', (reencryptBatch faults migrate column batch migrated).run (db, n) =
      (.ok (migrated + batch.countP fun row => (new row.1 row.2).isSome),
        (batch.foldl (fun db row => (new row.1 row.2).elim db fun enc => db.setSecret column row.1 enc) db, n')) := by
  induction batch generalizing migrated db n with
  | nil => exact ⟨n, rfl⟩
  | cons row rest ih =>
    obtain ⟨id, enc⟩ := row
    obtain ⟨outcome, later⟩ := List.forall_mem_cons.mp migrates
    rw [reencryptBatch, Eff.run_bind, outcome]
    cases isNew : new id enc with
    | none =>
      obtain ⟨n', ran⟩ := ih later migrated db n
      exact ⟨n', by simp [ran, isNew]⟩
    | some newEnc =>
      have wrote : (Body.exec faults (SettingsTables.setSecret column id newEnc)).run (db, n) =
          (.ok (), (db.setSecret column id newEnc, n + 1)) := by
        simp [Body.exec, Body.statement, noFault]
      obtain ⟨n', ran⟩ := ih later (migrated + 1) (db.setSecret column id newEnc) (n + 1)
      simp [Eff.run_bind, wrote, ran, isNew, Nat.add_assoc, Nat.add_comm 1]

structure DistinctIDs (db : SettingsTables) : Prop where
  providers : (db.providers.map AuthProvider.id).Nodup
  webhooks : (db.webhooks.map Webhook.id).Nodup

theorem foldl_setSecret {db : SettingsTables} (distinct : DistinctIDs db) (column : SecretColumn) :
    (db.secrets column).foldl (fun db row => (new row.1 row.2).elim db fun enc => db.setSecret column row.1 enc) db =
      rekeyed new db column := by
  cases column with
  | clientSecret =>
    rw [SettingsTables.secrets, List.foldl_map, rekeyed,
      ← @foldl_update _ _ _ AuthProvider.id _ _ (fun enc provider => { provider with clientSecretEnc := enc })
        (fun _ _ => rfl) _ distinct.providers]
    -- the loop changes no other table
    apply List.foldl_hom fun providers => ({ db with providers } : SettingsTables)
    intro providers row
    cases new row.id row.clientSecretEnc <;> rfl
  | webhookSecret =>
    rw [SettingsTables.secrets, List.foldl_filterMap, rekeyed,
      ← @foldl_update _ _ _ Webhook.id _ _ (fun enc hook => { hook with secretEnc := some enc })
        (fun _ _ => rfl) _ distinct.webhooks]
    apply List.foldl_hom fun webhooks => ({ db with webhooks } : SettingsTables)
    intro webhooks hook
    cases hook.secretEnc with
    | none => rfl
    | some enc =>
      dsimp only [Option.map, Option.bind]
      cases new hook.id enc <;> rfl

theorem reencryptSecrets_ok (noFault : ∀ n, faults n = none) {new : SecretColumn → Uuid → String → Option String}
    {db : SettingsTables} (distinct : DistinctIDs db)
    (migrates : ∀ column, ∀ row ∈ db.secrets column, migrate column row.1 row.2 = .ok (new column row.1 row.2)) :
    reencryptSecrets faults migrate db =
      (.ok (((db.secrets .clientSecret).countP fun row => (new .clientSecret row.1 row.2).isSome) +
          (db.secrets .webhookSecret).countP fun row => (new .webhookSecret row.1 row.2).isSome),
        rekeyed (new .webhookSecret) (rekeyed (new .clientSecret) db .clientSecret) .webhookSecret) := by
  let between := rekeyed (new .clientSecret) db .clientSecret
  have selects column db n :
      (Body.select faults (SettingsTables.secrets column)).run (db, n) = (.ok (db.secrets column), (db, n + 1)) := by
    simp [Body.select, Body.statement, noFault]
  obtain ⟨n, first⟩ := run_reencryptBatch noFault (migrates .clientSecret) 0 db 2
  rw [foldl_setSecret _ distinct, Nat.zero_add] at first
  -- the second column is as it was before the first one was rewritten
  obtain ⟨n', second⟩ := run_reencryptBatch noFault (migrates .webhookSecret)
    ((db.secrets .clientSecret).countP fun row => (new .clientSecret row.1 row.2).isSome) between (n + 1)
  have distinctBetween : DistinctIDs between :=
    ⟨nodup_map_rows (fun provider => by cases new .clientSecret provider.id provider.clientSecretEnc <;> rfl)
      distinct.providers, distinct.webhooks⟩
  have sameSecrets : db.secrets .webhookSecret = between.secrets .webhookSecret := rfl
  rw [sameSecrets, foldl_setSecret _ distinctBetween] at second
  apply transact_of_ok (n := n') noFault
  simp only [reencryptColumns, reencryptTables, Eff.run_bind, selects, first, between, second]
  rfl

theorem reencryptSecrets_error {db : SettingsTables}
    (stuck : ∃ row ∈ db.secrets .clientSecret, ∃ err, migrate .clientSecret row.1 row.2 = .error err) :
    ∃ err, reencryptSecrets faults migrate db = (.error err, db) := by
  have fails : ∃ err after, (reencryptTables faults migrate reencryptColumns 0).run (db, 1) =
      (.error err, after) := by
    rw [reencryptColumns, reencryptTables, Eff.run_bind]
    cases selected : (Body.select faults (SettingsTables.secrets .clientSecret)).run (db, 1) with
    | mk res world =>
      cases res with
      | error err => exact ⟨err, world, rfl⟩
      | ok batch =>
        have isBatch : batch = db.secrets .clientSecret := by
          unfold Body.select Body.statement at selected
          cases fault : faults 1 <;> simp_all
        subst isBatch
        obtain ⟨err, after, failed⟩ := @reencryptBatch_error faults migrate _ _ stuck 0 world
        exact ⟨err, after, by simp only [Eff.run_bind, failed]⟩
  obtain ⟨err, after, ran⟩ := fails
  exact transact_of_error ran

end

/-! ## What every request keeps -/

/-- The channels have distinct IDs, and none has an empty secret. -/
structure KeptHooks (db : WebhookTables) : Prop where
  distinct : (db.webhooks.map Webhook.id).Nodup
  secrets : ∀ hook ∈ db.webhooks, hook.secretEnc ≠ some ""

structure Kept (db : SettingsTables) : Prop where
  hooks : KeptHooks db.toWebhookTables
  providers : (db.providers.map AuthProvider.id).Nodup

theorem Kept.distinctIDs {db : SettingsTables} (kept : Kept db) : DistinctIDs db := ⟨kept.providers, kept.hooks.distinct⟩

theorem of_outcome {ρ δ : Type} {inv : δ → Prop} {outcome : ρ × δ} {res : ρ} {after : δ}
    (ran : outcome = (res, after)) (holds : inv outcome.2) : inv after := by
  rw [ran] at holds
  exact holds

section

variable {faults : Faults StoreError} {env : SettingsEnv} {hook existing : Webhook}

theorem encryptClientSecret_ne {secret enc : String} (encrypted : encryptClientSecret env.webhookEnv secret = .ok enc) :
    enc ≠ "" := by
  obtain ⟨text, certificate, url, ring, nonce, rotation, hint, newID, now, test⟩ := env
  cases ring with
  | none => cases encrypted
  | some ring =>
    cases nonce with
    | error msg => cases encrypted
    | ok nonce =>
      cases encrypted
      exact toText_sealWith_ne _ _ _

theorem some_encryptClientSecret_ne {secret : String} {secretEnc : Option String}
    (encrypted : some <$> encryptClientSecret env.webhookEnv secret = .ok secretEnc) : secretEnc ≠ some "" := by
  cases outcome : encryptClientSecret env.webhookEnv secret with
  | error err => simp [outcome] at encrypted
  | ok enc =>
    rw [outcome] at encrypted
    cases encrypted
    simpa using encryptClientSecret_ne outcome

theorem newWebhook_secret {actor : Option Uuid} {body : WebhookCreate}
    (checked : newWebhook env.webhookEnv actor body = .ok hook) : hook.secretEnc ≠ some "" := by
  simp only [newWebhook, bind, Except.bind, pure, Except.pure] at checked
  -- a check fails, or there is no secret, or it is encrypted
  repeat' split at checked
  all_goals cases checked
  all_goals first | exact some_encryptClientSecret_ne ‹_› | simp_all

theorem webhookUpdate_secret {body : WebhookPatch} {upd : WebhookUpdate}
    (checked : webhookUpdate env.webhookEnv existing body = .ok upd) : upd.secretEnc ≠ some "" := by
  simp only [webhookUpdate, bind, Except.bind, pure, Except.pure] at checked
  repeat' split at checked
  all_goals cases checked
  all_goals first | exact some_encryptClientSecret_ne ‹_› | simp_all

variable {db after : WebhookTables} {id : Uuid}

theorem insertWebhook_kept (noEmpty : hook.secretEnc ≠ some "") (inserted : db.insertWebhook hook = .ok after)
    (kept : KeptHooks db) : KeptHooks after := by
  unfold WebhookTables.insertWebhook at inserted
  split at inserted
  · cases inserted
  · rename_i fresh
    cases inserted
    exact ⟨nodup_append_row kept.distinct fun other mem same => fresh ⟨other, mem, same⟩,
      forall_mem_append_row kept.secrets noEmpty⟩

theorem patchWebhook_kept {upd : WebhookUpdate} {now : Int} (noEmpty : upd.secretEnc ≠ some "")
    (patched : db.patchWebhook id upd now = .ok after) (kept : KeptHooks db) : KeptHooks after := by
  unfold WebhookTables.patchWebhook at patched
  split at patched
  · cases patched
    refine ⟨nodup_map_rows (fun row => by split <;> rfl) kept.distinct, ?_⟩
    intro other mem
    obtain ⟨old, isOld, rfl⟩ := List.mem_map.mp mem
    split
    · rw [WebhookTables.patched]
      split
      · exact noEmpty
      · exact kept.secrets old isOld
    · exact kept.secrets old isOld
  · cases patched

theorem removeWebhook_kept (removed : db.removeWebhook id = .ok after) (kept : KeptHooks db) : KeptHooks after := by
  unfold WebhookTables.removeWebhook at removed
  split at removed
  · cases removed
    exact ⟨nodup_filter_rows _ kept.distinct, fun other mem => kept.secrets other (List.mem_of_mem_filter mem)⟩
  · cases removed

theorem writeAudit_kept (entry : AuditEntry) (kept : KeptHooks db) : KeptHooks (db.writeAudit entry) :=
  ⟨kept.distinct, kept.secrets⟩

theorem createWebhook_kept (noEmpty : hook.secretEnc ≠ some "") (entry : AuditEntry) (kept : KeptHooks db) :
    KeptHooks (createWebhook faults hook entry db).2 := by
  have committed := audited_preserves faults (fun _ _ => insertWebhook_kept noEmpty) (fun _ => writeAudit_kept entry) kept
  unfold createWebhook
  split <;> exact of_outcome ‹_› committed

theorem updateWebhook_kept {upd : WebhookUpdate} {now : Int} (noEmpty : upd.secretEnc ≠ some "") (entry : AuditEntry)
    (kept : KeptHooks db) : KeptHooks (updateWebhook faults id upd now entry db).2 := by
  have committed := audited_preserves faults (fun _ _ => @patchWebhook_kept _ _ id _ now noEmpty)
    (fun _ => writeAudit_kept entry) kept
  unfold updateWebhook
  split <;> exact of_outcome ‹_› committed

theorem handleWebhooks_kept {principal : Option Principal} (route : WebhookRoute) (kept : KeptHooks db) :
    KeptHooks (handleWebhooks env.webhookEnv principal faults route db).2 := by
  cases route with
  | list | test id => exact kept
  | create body =>
    rw [handleWebhooks, handleCreateWebhook]
    cases checked : newWebhook env.webhookEnv (actorID principal) body with
    | error err => exact kept
    | ok hook =>
      dsimp only
      have created entry := @createWebhook_kept faults _ _ (newWebhook_secret checked) entry kept
      split <;> exact of_outcome ‹_› (created _)
  | update id body =>
    rw [handleWebhooks, handleUpdateWebhook]
    cases loadWebhook faults id db with
    | error err => exact kept
    | ok existing =>
      dsimp only
      cases checked : webhookUpdate env.webhookEnv existing body with
      | error err => exact kept
      | ok upd =>
        dsimp only
        have updated entry := @updateWebhook_kept (fun n => faults (n + 1)) _ id upd
          env.webhookEnv.now (webhookUpdate_secret checked) entry kept
        split <;> exact of_outcome ‹_› (updated _)
  | delete id =>
    rw [handleWebhooks, handleDeleteWebhook]
    have deleted entry := audited_preserves faults (fun _ _ => @removeWebhook_kept _ _ id)
      (fun _ => writeAudit_kept entry) kept
    split <;> exact of_outcome ‹_› (deleted _)

end

section

variable {faults : Faults StoreError} {db after : SettingsTables} {id : Uuid}

theorem insertAuthProvider_kept {provider : AuthProvider} (inserted : db.insertAuthProvider provider = .ok after)
    (kept : Kept db) : Kept after := by
  unfold SettingsTables.insertAuthProvider at inserted
  split at inserted
  · cases inserted
  · split at inserted
    · cases inserted
    · rename_i fresh
      cases inserted
      exact ⟨kept.hooks, nodup_append_row kept.providers fun other mem same => fresh ⟨other, mem, same⟩⟩

theorem patchAuthProvider_kept {upd : AuthProviderUpdate} {now : Int}
    (patched : db.patchAuthProvider id upd now = .ok after) (kept : Kept db) : Kept after := by
  unfold SettingsTables.patchAuthProvider at patched
  split at patched
  · cases patched
    exact ⟨kept.hooks, nodup_map_rows (fun row => by split <;> rfl) kept.providers⟩
  · cases patched

theorem removeAuthProvider_kept (removed : db.removeAuthProvider id = .ok after) (kept : Kept db) : Kept after := by
  unfold SettingsTables.removeAuthProvider at removed
  split at removed
  · cases removed
    exact ⟨kept.hooks, nodup_filter_rows _ kept.providers⟩
  · cases removed

theorem writeAuditEntry_kept (entry : AuditEntry) (kept : Kept db) : Kept (db.writeAuditEntry entry) :=
  ⟨writeAudit_kept entry kept.hooks, kept.providers⟩

theorem createAuthProvider_kept (provider : AuthProvider) (entry : AuditEntry) (kept : Kept db) :
    Kept (createAuthProvider faults entry db provider).2 := by
  have committed := audited_preserves faults (fun _ _ => @insertAuthProvider_kept _ _ provider)
    (fun _ => writeAuditEntry_kept entry) kept
  unfold createAuthProvider
  split <;> exact of_outcome ‹_› committed

theorem updateAuthProvider_kept (upd : AuthProviderUpdate) (now : Int) (entry : AuditEntry) (kept : Kept db) :
    Kept (updateAuthProvider faults entry db id upd now).2 := by
  have committed := audited_preserves faults (fun _ _ => @patchAuthProvider_kept _ _ id upd now)
    (fun _ => writeAuditEntry_kept entry) kept
  unfold updateAuthProvider
  split <;> exact of_outcome ‹_› committed

theorem setSecret_kept {column : SecretColumn} {enc : String} (noEmpty : enc ≠ "") (kept : Kept db) :
    Kept (db.setSecret column id enc) := by
  cases column with
  | clientSecret => exact ⟨kept.hooks, nodup_map_rows (fun row => by split <;> rfl) kept.providers⟩
  | webhookSecret =>
    refine ⟨⟨nodup_map_rows (fun row => by split <;> rfl) kept.hooks.distinct, ?_⟩, kept.providers⟩
    intro hook mem
    obtain ⟨old, isOld, rfl⟩ := List.mem_map.mp mem
    split
    · simpa using noEmpty
    · exact kept.hooks.secrets old isOld

theorem reencryptBatch_kept {migrate : SecretColumn → Uuid → String → Except StoreError (Option String)}
    (noEmpty : ∀ column id enc newEnc, migrate column id enc = .ok (some newEnc) → newEnc ≠ "")
    (column : SecretColumn) (batch : List (Uuid × String)) (migrated : Nat) :
    Eff.Preserves (fun world => Kept world.1) (reencryptBatch faults migrate column batch migrated) := by
  induction batch generalizing migrated with
  | nil => exact Eff.preserves_pure migrated
  | cons row rest ih =>
    obtain ⟨id, enc⟩ := row
    refine (Eff.preserves_ofExcept _).bind ?_
    rintro res ⟨world, after, ran⟩
    cases res with
    | none => exact ih migrated
    | some newEnc =>
      have nonempty : newEnc ≠ "" := noEmpty column id enc newEnc (congrArg Prod.fst ran)
      have wrote : Eff.Preserves (fun world => Kept world.1)
          (Body.exec faults (SettingsTables.setSecret column id newEnc)) :=
        @Body.statement_preserves _ _ _ _ Kept _ (fun _ => setSecret_kept nonempty) _
      exact wrote.bind fun _ _ => ih (migrated + 1)

theorem handleReencryptSecrets_kept (env : SettingsEnv) (kept : Kept db) :
    Kept (handleReencryptSecrets env faults db).2 := by
  unfold handleReencryptSecrets
  cases env.ring with
  | none => exact kept
  | some ring =>
    dsimp only
    have noEmpty column id enc newEnc :
        migrateSecret ring (env.rotationNonce column id) enc = .ok (some newEnc) → newEnc ≠ "" := migrateSecret_some
    have batches column batch migrated :=
      @reencryptBatch_kept faults _ noEmpty column batch migrated
    have selects column : Eff.Preserves (fun world => Kept world.1)
        (Body.select faults (SettingsTables.secrets column)) := Body.statement_preserves (fun _ kept => kept) _
    have body : Eff.Preserves (fun world => Kept world.1) (reencryptTables faults
        (fun column id enc => migrateSecret ring (env.rotationNonce column id) enc) reencryptColumns 0) :=
      (selects .clientSecret).bind fun batch _ => (batches .clientSecret batch 0).bind fun migrated _ =>
        (selects .webhookSecret).bind fun batch _ => (batches .webhookSecret batch migrated).bind fun migrated _ =>
          Eff.preserves_pure migrated
    have committed := @transact_preserves _ _ _ faults _ _ _ body kept
    split <;> exact of_outcome ‹_› committed

end

theorem serveSettings_kept [PrintTable] (req : SettingsRequest) {db : SettingsTables} (kept : Kept db) :
    Kept (serveSettings req db) := by
  unfold serveSettings
  cases req.call with
  | createProvider body =>
    dsimp only
    unfold createAuthProviderConfig
    cases newAuthProvider req.env body with
    | error err => exact kept
    | ok provider =>
      dsimp only
      have created entry := @createAuthProvider_kept req.faults _ provider entry kept
      split <;> exact of_outcome ‹_› (created _)
  | updateProvider id body =>
    dsimp only
    unfold updateAuthProviderConfig
    split
    · exact kept
    · rename_i upd _
      have updated entry :=
        @updateAuthProvider_kept (fun n => req.faults (n + 1)) _ id upd req.env.now entry kept
      split <;> exact of_outcome ‹_› (updated _)
  | deleteProvider id =>
    dsimp only
    unfold deleteAuthProviderConfig
    split
    · exact kept
    · have deleted entry := audited_preserves (fun n => req.faults (n + 1))
        (fun _ _ => @removeAuthProvider_kept _ _ id) (fun _ => writeAuditEntry_kept entry) kept
      dsimp only [deleteAuthProvider]
      split <;> exact of_outcome ‹_› (deleted _)
  | webhooks route => exact ⟨handleWebhooks_kept route kept.hooks, kept.providers⟩
  | reencrypt => exact handleReencryptSecrets_kept req.env kept

/-! ## The rotation -/

def Step [PrintTable] (db : SettingsTables) (req : SettingsRequest) (after : SettingsTables) : Prop :=
  serveSettings req db = after

def noSettings : SettingsTables := ⟨⟨[], []⟩, []⟩

/-- All ciphertexts of the tables; the column of a provider without a secret is
    empty. -/
def ciphertexts (db : SettingsTables) : List String :=
  (reencryptColumns.flatMap db.secrets).filterMap fun row => if row.2 = "" then none else some row.2

/-- A secret before and after: the primary key alone now opens it to what the
    whole ring opened it to. -/
def SameSecret (ring : KeyRing) (before after : String) : Prop :=
  ∃ plaintext, ring.decrypt before = some plaintext ∧ ring.dropSecondaries.decrypt after = some plaintext

/-- Every secret is brought under the primary key, and nothing else changes. -/
structure Rekeyed (ring : KeyRing) (before after : SettingsTables) : Prop where
  providers : List.Forall₂ (fun old new : AuthProvider => SameSecret ring old.clientSecretEnc new.clientSecretEnc ∧
    new = { old with clientSecretEnc := new.clientSecretEnc }) before.providers after.providers
  webhooks : List.Forall₂ (fun old new : Webhook => Option.Rel (SameSecret ring) old.secretEnc new.secretEnc ∧
    new = { old with secretEnc := new.secretEnc }) before.webhooks after.webhooks
  auditLog : after.auditLog = before.auditLog

/-- The environment of a rotation in which nothing outside the program fails. -/
structure Undisturbed (env : SettingsEnv) (faults : Faults StoreError) : Prop where
  noFault : ∀ n, faults n = none
  drawn : ∀ column id, ∃ nonce, env.rotationNonce column id = .ok nonce

structure Rotates (ring : KeyRing) (db : SettingsTables) : Prop where
  /-- It succeeds, and a second one finds nothing to do. -/
  succeeds : ∀ env faults, env.ring = some ring → Undisturbed env faults →
    ∃ count after, handleReencryptSecrets env faults db = (.ok (.migrated count), after) ∧ Rekeyed ring db after ∧
      ∀ env faults, env.ring = some ring → Undisturbed env faults →
        handleReencryptSecrets env faults after = (.ok (.migrated 0), after)
  /-- If it fails, no row is changed. -/
  atomic : ∀ env faults err, (handleReencryptSecrets env faults db).1 = .error err →
    (handleReencryptSecrets env faults db).2 = db

section

variable {ring : KeyRing} {env : SettingsEnv} {faults : Faults StoreError} {db after : SettingsTables}

def newSecret (ring : KeyRing) (env : SettingsEnv) (column : SecretColumn) (id : Uuid) (enc : String) : Option String :=
  (migrateSecret ring (env.rotationNonce column id) enc).toOption.join

def Opens (ring : KeyRing) (db : SettingsTables) : Prop :=
  ∀ column, ∀ row ∈ db.secrets column, ∃ plaintext, ring.decrypt row.2 = some plaintext

theorem newSecret_ok (undisturbed : Undisturbed env faults) {enc plaintext : String}
    (decrypts : ring.decrypt enc = some plaintext) (column : SecretColumn) (id : Uuid) :
    migrateSecret ring (env.rotationNonce column id) enc = .ok (newSecret ring env column id enc) ∧
      SameSecret ring enc ((newSecret ring env column id enc).getD enc) := by
  obtain ⟨nonce, drawn⟩ := undisturbed.drawn column id
  obtain ⟨res, migrated, opens⟩ := migrateSecret_ok decrypts drawn
  have isResult : newSecret ring env column id enc = res := by rw [newSecret, migrated]; rfl
  rw [isResult]
  exact ⟨migrated, plaintext, decrypts, opens⟩

theorem reencrypt_handled (isRing : env.ring = some ring) {count : Nat}
    (ran : reencryptSecrets faults (fun column id enc => migrateSecret ring (env.rotationNonce column id) enc) db =
      (.ok count, after)) : handleReencryptSecrets env faults db = (.ok (.migrated count), after) := by
  simp only [handleReencryptSecrets, isRing, ran]

theorem rotation_rekeys (isRing : env.ring = some ring) (undisturbed : Undisturbed env faults) (kept : Kept db)
    (opens : Opens ring db) :
    ∃ count after, handleReencryptSecrets env faults db = (.ok (.migrated count), after) ∧ Rekeyed ring db after := by
  have migrates column row (mem : row ∈ db.secrets column) :
      migrateSecret ring (env.rotationNonce column row.1) row.2 = .ok (newSecret ring env column row.1 row.2) := by
    obtain ⟨plaintext, decrypts⟩ := opens column row mem
    exact (newSecret_ok undisturbed decrypts column row.1).1
  refine ⟨_, _, reencrypt_handled isRing (reencryptSecrets_ok undisturbed.noFault kept.distinctIDs migrates), ?_, ?_, rfl⟩
  · rw [rekeyed, rekeyed, List.forall₂_map_right_iff, List.forall₂_same]
    intro provider mem
    obtain ⟨plaintext, decrypts⟩ := opens .clientSecret _ (List.mem_map_of_mem mem)
    have same := (newSecret_ok undisturbed decrypts .clientSecret provider.id).2
    cases isNew : newSecret ring env .clientSecret provider.id provider.clientSecretEnc with
    | none | some enc =>
      rw [isNew] at same
      exact ⟨same, rfl⟩
  · rw [rekeyed, rekeyed, List.forall₂_map_right_iff, List.forall₂_same]
    intro hook mem
    cases isSecret : hook.secretEnc with
    | none => exact ⟨by simp [isSecret], rfl⟩
    | some old =>
      obtain ⟨plaintext, decrypts⟩ := opens .webhookSecret (hook.id, old)
        (List.mem_filterMap.mpr ⟨hook, mem, by rw [isSecret]; rfl⟩)
      have same := (newSecret_ok undisturbed decrypts .webhookSecret hook.id).2
      dsimp only [Option.bind] at same ⊢
      cases isNew : newSecret ring env .webhookSecret hook.id old with
      | none =>
        rw [isNew] at same
        exact ⟨by simpa [isSecret] using Option.Rel.some same, rfl⟩
      | some enc =>
        rw [isNew] at same
        exact ⟨.some same, rfl⟩

theorem rotation_idle (isRing : env.ring = some ring) (undisturbed : Undisturbed env faults)
    (distinct : DistinctIDs db) (opens : Opens ring.dropSecondaries db) :
    handleReencryptSecrets env faults db = (.ok (.migrated 0), db) := by
  apply reencrypt_handled isRing
  rw [@reencryptSecrets_ok faults _ undisturbed.noFault (fun _ _ _ => none) db distinct ?_]
  · simp [rekeyed]
  · intro column row mem
    obtain ⟨plaintext, isOpen⟩ := opens column row mem
    rw [migrateSecret, if_pos (encryptedWithPrimary_iff.mpr ⟨plaintext, isOpen⟩)]

theorem Rekeyed.distinctIDs (rekeyed : Rekeyed ring db after) (distinct : DistinctIDs db) : DistinctIDs after := by
  obtain ⟨providers, webhooks, -⟩ := rekeyed
  have providerIDs : after.providers.map AuthProvider.id = db.providers.map AuthProvider.id := by
    rw [← List.forall₂_eq_eq_eq, List.forall₂_map_left_iff, List.forall₂_map_right_iff]
    exact providers.flip.imp fun new old same => by rw [same.2]
  have webhookIDs : after.webhooks.map Webhook.id = db.webhooks.map Webhook.id := by
    rw [← List.forall₂_eq_eq_eq, List.forall₂_map_left_iff, List.forall₂_map_right_iff]
    exact webhooks.flip.imp fun new old same => by rw [same.2]
  exact ⟨providerIDs ▸ distinct.providers, webhookIDs ▸ distinct.webhooks⟩

theorem Rekeyed.opens (rekeyed : Rekeyed ring db after) : Opens ring.dropSecondaries after := by
  intro column row mem
  cases column with
  | clientSecret =>
    obtain ⟨provider, isProvider, rfl⟩ := List.mem_map.mp mem
    obtain ⟨old, -, same⟩ := exists_left_of_forall₂ rekeyed.providers isProvider
    obtain ⟨plaintext, -, isOpen⟩ := same.1
    exact ⟨plaintext, isOpen⟩
  | webhookSecret =>
    obtain ⟨hook, isHook, isRow⟩ := List.mem_filterMap.mp mem
    obtain ⟨old, -, same, -⟩ := exists_left_of_forall₂ rekeyed.webhooks isHook
    obtain ⟨enc, isSecret, rfl⟩ := Option.map_eq_some_iff.mp isRow
    rw [isSecret] at same
    generalize old.secretEnc = oldSecret at same
    cases same with
    | some same =>
      obtain ⟨plaintext, -, isOpen⟩ := same
      exact ⟨plaintext, isOpen⟩

theorem opens_of_sealed (kept : Kept db) (isSealed : ∀ enc ∈ ciphertexts db, SealedUnder ring enc)
    (noEmpty : ∀ provider ∈ db.providers, provider.clientSecretEnc ≠ "") : Opens ring db := by
  intro column row mem
  have nonempty : row.2 ≠ "" := by
    cases column with
    | clientSecret =>
      obtain ⟨provider, isProvider, rfl⟩ := List.mem_map.mp mem
      exact noEmpty provider isProvider
    | webhookSecret =>
      obtain ⟨hook, isHook, isRow⟩ := List.mem_filterMap.mp mem
      obtain ⟨enc, isSecret, rfl⟩ := Option.map_eq_some_iff.mp isRow
      intro empty
      exact kept.hooks.secrets hook isHook (isSecret.trans (congrArg some empty))
  have inColumns : column ∈ reencryptColumns := by cases column <;> decide
  have isCiphertext : row.2 ∈ ciphertexts db :=
    List.mem_filterMap.mpr ⟨row, List.mem_flatMap.mpr ⟨column, inColumns, mem⟩, by rw [if_neg nonempty]⟩
  exact (isSealed row.2 isCiphertext).decrypts

theorem rotation_atomic {err : ApiError} (failed : (handleReencryptSecrets env faults db).1 = .error err) :
    (handleReencryptSecrets env faults db).2 = db := by
  unfold handleReencryptSecrets at failed ⊢
  generalize env.ring = found at failed ⊢
  cases found with
  | none => rfl
  | some ring =>
    dsimp only at failed ⊢
    split at failed
    · cases failed
    · rename_i ran
      exact @of_outcome _ _ (· = db) _ _ _ ran (transact_error (congrArg Prod.fst ran))

theorem rotation_fails (isRing : env.ring = some ring) {provider : AuthProvider} (mem : provider ∈ db.providers)
    (empty : provider.clientSecretEnc = "") :
    handleReencryptSecrets env faults db = (.error .internal, db) := by
  have stuck : ∃ row ∈ db.secrets .clientSecret, ∃ err,
      migrateSecret ring (env.rotationNonce .clientSecret row.1) row.2 = .error err := by
    refine ⟨_, List.mem_map_of_mem mem, ?_⟩
    rw [empty]
    exact ⟨_, rfl⟩
  obtain ⟨err, failed⟩ := @reencryptSecrets_error faults
    (fun column id enc => migrateSecret ring (env.rotationNonce column id) enc) db stuck
  simp only [handleReencryptSecrets, isRing, failed]

end

def quietEnv (ring : KeyRing) : SettingsEnv where
  text := CaseMap.ascii
  parseCertificate _ := .ok ()
  parseURL url := .ok ⟨"https", url, none⟩
  ring := some ring
  nonce := .ok 0
  rotationNonce _ _ := .ok 0
  hintKey := ""
  newID := ⟨1⟩
  now := 0

/-- In every state that requests lead to, the rotation works if and only if no
    provider has an empty secret. -/
theorem rotates_iff_no_empty_secret [PrintTable] {requests : List SettingsRequest} {db : SettingsTables}
    (reached : Run Step noSettings requests db) {ring : KeyRing}
    (isSealed : ∀ enc ∈ ciphertexts db, SealedUnder ring enc) :
    Rotates ring db ↔ ∀ provider ∈ db.providers, provider.clientSecretEnc ≠ "" := by
  have kept : Kept db := by
    refine reached.invariant ?_ ⟨⟨by simp [noSettings], by simp [noSettings]⟩, by simp [noSettings]⟩
    rintro before req after rfl holds
    exact serveSettings_kept req holds
  constructor
  · intro rotates provider mem empty
    have undisturbed : Undisturbed (quietEnv ring) fun _ => none := ⟨fun _ => rfl, fun _ _ => ⟨0, rfl⟩⟩
    obtain ⟨count, after, ran, -⟩ := rotates.succeeds (quietEnv ring) _ rfl undisturbed
    rw [rotation_fails rfl mem empty] at ran
    cases ran
  · intro noEmpty
    refine ⟨fun env faults isRing undisturbed => ?_, fun _ _ _ => rotation_atomic⟩
    obtain ⟨count, after, ran, rekeyed⟩ :=
      rotation_rekeys isRing undisturbed kept (opens_of_sealed kept isSealed noEmpty)
    refine ⟨count, after, ran, rekeyed, fun env faults isRing undisturbed => ?_⟩
    exact rotation_idle isRing undisturbed (rekeyed.distinctIDs kept.distinctIDs) rekeyed.opens

/-! ## A SAML provider beside a GitHub one -/

attribute [local instance] asciiPrintTable

def createGitHub : SettingsRequest where
  call := .createProvider
    { type := "github", name := "gh", displayName := "GitHub", clientId := some "id", clientSecret := some "s" }
  env := quietEnv oldRing
  principal := none
  faults _ := none

/-- A self-signed certificate, in base64. -/
def oktaCertificate : String :=
  "MIHGMHoCAQEwBQYDK2VwMA8xDTALBgNVBAMMBG9rdGEwIBcNMjYxMTE4MDQyOTE3WhgPMjEyNjEwMjUwNDI5MTdaMA8xDTAL" ++
  "BgNVBAMMBG9rdGEwKjAFBgMrZXADIQAcYkrFN2s18HZEa+SXCFnTwEvUWBgVq6M7YQlK/MIWAjAFBgMrZXADQQBhQFHrt9Mu" ++
  "HL3Oi5Nrx9AgHcyz7yVuetz5aJme/rWxWVCo0WxHEOHQsmeqKAgsYNar1DmWBgCHhZ5s/pLa/mkJ"

def createSAML : SettingsRequest where
  call := .createProvider
    { type := "saml", name := "okta", displayName := "Okta", idpEntityId := some "okta",
      idpSsoUrl := some "https://okta", idpCertificate := some oktaCertificate }
  env := { quietEnv oldRing with newID := ⟨2⟩ }
  principal := none
  faults _ := none

def withGitHub : SettingsTables := serveSettings createGitHub noSettings
def withSAML : SettingsTables := serveSettings createSAML withGitHub

theorem sealedUnder_newRing : SealedUnder newRing (oldRing.encrypt 0 "s") :=
  ⟨markedKey 1, by simp [newRing, KeyRing.decrypters], 0, "s", rfl⟩

theorem withGitHub_sealed : ∀ enc ∈ ciphertexts withGitHub, SealedUnder newRing enc := by
  have isOld : ciphertexts withGitHub = [oldRing.encrypt 0 "s"] := rfl
  rw [isOld, List.forall_mem_singleton]
  exact sealedUnder_newRing

theorem withSAML_sealed : ∀ enc ∈ ciphertexts withSAML, SealedUnder newRing enc := by
  have isOld : ciphertexts withSAML = [oldRing.encrypt 0 "s"] := rfl
  rw [isOld, List.forall_mem_singleton]
  exact sealedUnder_newRing

theorem gitHub_rotates_iff :
    Run Step noSettings [createGitHub] withGitHub ∧ (∀ enc ∈ ciphertexts withGitHub, SealedUnder newRing enc) ∧
    (Rotates newRing withGitHub ↔ ∀ provider ∈ withGitHub.providers, provider.clientSecretEnc ≠ "") := by
  have reached : Run Step noSettings [createGitHub] withGitHub := .step rfl (.refl _)
  exact ⟨reached, withGitHub_sealed, rotates_iff_no_empty_secret reached withGitHub_sealed⟩

/-- With the SAML provider the rotation fails, and the GitHub secret stays under
    the old key. -/
theorem saml_blocks_rotation :
    Run Step noSettings [createGitHub, createSAML] withSAML ∧
    (∀ enc ∈ ciphertexts withSAML, SealedUnder newRing enc) ∧
    Undisturbed (quietEnv newRing) (fun _ => none) ∧
    handleReencryptSecrets (quietEnv newRing) (fun _ => none) withSAML = (.error .internal, withSAML) ∧
    ¬ Rotates newRing withSAML := by
  have undisturbed : Undisturbed (quietEnv newRing) (fun _ => none) := ⟨fun _ => rfl, fun _ _ => ⟨0, rfl⟩⟩
  have fails : handleReencryptSecrets (quietEnv newRing) (fun _ => none) withSAML = (.error .internal, withSAML) :=
    rotation_fails rfl (List.mem_cons_of_mem _ List.mem_cons_self) rfl
  refine ⟨.step rfl (.step rfl (.refl _)), withSAML_sealed, undisturbed, fails, fun rotates => ?_⟩
  obtain ⟨count, after, ran, -⟩ := rotates.succeeds (quietEnv newRing) _ rfl undisturbed
  cases ran

end OtelFleet.Verified.KeyRotation
