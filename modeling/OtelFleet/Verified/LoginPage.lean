import OtelFleet.Auth.Registry
import OtelFleet.Data.Rows

/-! # The login page and the logins

The page lists the names behind which `Resolve` finds a provider, unless the name of
the environment's provider is that of a database provider that is disabled: it shadows
the former for `Resolve`, but not on the page.
-/

namespace OtelFleet.Verified.LoginPage

open Auth Auth.Registry Crypto Data Store

def listed (reg : Registry) (db : SettingsTables) : List String := (reg.loginProviders db).map LoginProvider.name

def Enabled (db : SettingsTables) (name : String) : Prop := ∃ p ∈ db.providers, p.enabled = true ∧ p.name = name

variable {reg : Registry} {db : SettingsTables} {name : String}

theorem mem_names : name ∈ (listAuthProviders db).map AuthProvider.name ↔ Enabled db name := by
  simp [listAuthProviders, Enabled, and_assoc]

theorem mem_listed : name ∈ listed reg db ↔ Enabled db name ∨ ¬ Enabled db name ∧ ∃ e ∈ reg.env, e.name = name := by
  simp only [listed, loginProviders, List.map_append, List.map_map, List.mem_append, ← mem_names]
  refine or_congr Iff.rfl ?_
  simp only [List.mem_map, List.mem_filter, decide_eq_true_eq]
  constructor
  · rintro ⟨e, ⟨mem, free⟩, rfl⟩
    exact ⟨free, e, mem, rfl⟩
  · rintro ⟨free, e, mem, rfl⟩
    exact ⟨e, ⟨mem, free⟩, rfl⟩

theorem resolve_unknown_iff (unique : (db.providers.map AuthProvider.name).Nodup) :
    reg.resolve db name ≠ .error .unknownProvider ↔
      Enabled db name ∨ (∀ p ∈ db.providers, p.name ≠ name) ∧ ∃ e ∈ reg.env, e.name = name := by
  unfold resolve
  cases found : db.providers.find? fun p => p.name = name with
  | some p =>
    have isName : p.name = name := by simpa using List.find?_some found
    have mem := List.mem_of_find?_eq_some found
    have enabled : Enabled db name ↔ p.enabled = true := by
      refine ⟨?_, fun enabled => ⟨p, mem, enabled, isName⟩⟩
      rintro ⟨other, isOther, enabled, rfl⟩
      rw [find?_of_mem unique isOther] at found
      cases found
      exact enabled
    rw [enabled, or_iff_left fun absent => absent.1 p mem isName]
    dsimp only
    split
    · rename_i isEnabled
      rw [iff_true_right isEnabled]
      split <;> split <;> simp
    · simp_all
  | none =>
    have absent : ∀ p ∈ db.providers, p.name ≠ name := by simpa using found
    rw [or_iff_right fun ⟨p, mem, _, isName⟩ => absent p mem isName, and_iff_right absent]
    cases configured : reg.env.find? fun e => e.name = name with
    | some e => simpa using ⟨e, List.mem_of_find?_eq_some configured, by simpa using List.find?_some configured⟩
    | none => simpa using configured

theorem nodup_of_loaded {vars : OIDCVariables} {env : List OIDCProvider} (loaded : loadOIDC vars = .ok env) :
    (env.map OIDCProvider.name).Nodup := by
  simp only [loadOIDC] at loaded
  split_ifs at loaded
  · cases loaded
    simp
  · cases loaded
    simp

theorem nodup_listed (unique : (db.providers.map AuthProvider.name).Nodup) (uniqueEnv : (reg.env.map OIDCProvider.name).Nodup) :
    (listed reg db).Nodup := by
  have sorted := (List.perm_insertionSort (byThen AuthProvider.createdAt fun a b => a.id.bits.toNat ≤ b.id.bits.toNat)
    (db.providers.filter fun p => p.enabled)).map AuthProvider.name
  rw [listed, loginProviders, List.map_append, List.map_map, List.map_map, List.nodup_append']
  refine ⟨sorted.nodup_iff.mpr (nodup_filter_rows _ unique), nodup_filter_rows _ uniqueEnv, ?_⟩
  rintro name taken isEnv
  obtain ⟨e, mem, rfl⟩ := List.mem_map.mp isEnv
  exact of_decide_eq_true (List.mem_filter.mp mem).2 taken

/-- The page lists exactly the names that are known, each once, unless a disabled
    provider of the database has the name of one of the environment. -/
theorem listed_exactly_iff (vars : OIDCVariables) (env : List OIDCProvider) (cipher : Option KeyRing) (db : SettingsTables)
    (loaded : loadOIDC vars = .ok env) (unique : (db.providers.map AuthProvider.name).Nodup) :
    ((∀ name, name ∈ listed ⟨env, cipher⟩ db ↔ resolve ⟨env, cipher⟩ db name ≠ .error .unknownProvider) ∧
      (listed ⟨env, cipher⟩ db).Nodup) ↔
    ∀ e ∈ env, ∀ p ∈ db.providers, p.name = e.name → p.enabled = true := by
  rw [and_iff_left (nodup_listed unique (nodup_of_loaded loaded))]
  simp only [mem_listed, resolve_unknown_iff unique]
  constructor
  · intro same e isEnv p mem isName
    by_contra disabled
    have notEnabled : ¬ Enabled db e.name := by
      rintro ⟨other, isOther, enabled, isName'⟩
      have isP := find?_of_mem unique mem
      rw [isName, ← isName', find?_of_mem unique isOther] at isP
      cases isP
      exact disabled enabled
    rcases (same e.name).mp (Or.inr ⟨notEnabled, e, isEnv, rfl⟩) with enabled | ⟨absent, _⟩
    · exact notEnabled enabled
    · exact absent p mem isName
  · intro enabled name
    refine or_congr_right' fun notEnabled => and_congr_left ?_
    rintro ⟨e, isEnv, rfl⟩
    rw [iff_true_left notEnabled]
    intro p mem isName
    exact notEnabled ⟨p, mem, enabled e isEnv p mem isName, isName⟩

def tables (enabled : Bool) : SettingsTables where
  webhooks := []
  auditLog := []
  providers := [{ id := ⟨1⟩, type := "github", name := "oidc", displayName := "", clientSecretEnc := "", enabled, createdAt := 0, updatedAt := 0 }]

def configured : OIDCProvider := ⟨"oidc", "SSO", "https://idp", "fleet", ""⟩

theorem listed_exactly_enabled :
    (∀ name, name ∈ listed ⟨[configured], none⟩ (tables true) ↔
      resolve ⟨[configured], none⟩ (tables true) name ≠ .error .unknownProvider) ∧
    (listed ⟨[configured], none⟩ (tables true)).Nodup :=
  (listed_exactly_iff ⟨some "https://idp", none, some "fleet", none⟩ _ none _ rfl (by decide)).mpr (by decide)

theorem disabled_listed : loadOIDC ⟨some "https://idp", none, some "fleet", none⟩ = .ok [configured] ∧
    "oidc" ∈ listed ⟨[configured], none⟩ (tables false) ∧
    resolve ⟨[configured], none⟩ (tables false) "oidc" = .error .unknownProvider :=
  ⟨rfl, by decide, rfl⟩

end OtelFleet.Verified.LoginPage
