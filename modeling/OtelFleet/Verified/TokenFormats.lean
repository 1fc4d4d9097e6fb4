import OtelFleet.Tenants.Tokens

/-! # Token formats parse back and do not overlap

The parsers split at underscores, and a secret may contain some; the parts in front of it
do not.  The second part tells the four formats apart.
-/

namespace OtelFleet.Verified.TokenFormats

open Data Tenants

theorem splitN_cons {part : List Char} (plain : '_' ∉ part) (n : Nat) (rest : List Char) :
    splitN (n + 2) (part ++ '_' :: rest) = part :: splitN (n + 1) rest := by
  have before : ∀ c ∈ part, decide (c ≠ '_') = true := fun c mem =>
    decide_eq_true fun same => plain (same ▸ mem)
  rw [splitN, List.dropWhile_append_of_pos before, List.takeWhile_append_of_pos before]
  simp

def secondPart (text : List Char) : List Char := ((text.dropWhile (· ≠ '_')).drop 1).takeWhile (· ≠ '_')

theorem eq_secondPart {n : Nat} {text first second : List Char} {rest : List (List Char)}
    (split : splitN (n + 3) text = first :: second :: rest) : second = secondPart text := by
  rw [splitN] at split
  unfold secondPart
  cases after : text.dropWhile (· ≠ '_') with
  | nil =>
    rw [after] at split
    simp at split
  | cons c tail =>
    simp only [after, List.cons.injEq] at split
    have isTail := split.2
    rw [splitN] at isTail
    cases later : tail.dropWhile (· ≠ '_') with
    | cons d end' =>
      simp only [later, List.cons.injEq] at isTail
      exact isTail.1.symm
    | nil =>
      -- without another underscore the part is all that is left
      simp only [later, List.cons.injEq] at isTail
      have whole := List.takeWhile_append_dropWhile (p := fun c => decide (c ≠ '_')) (l := tail)
      rw [later, List.append_nil] at whole
      exact isTail.1.symm.trans whole.symm

theorem secondPart_of_token {kind token : String} (accepted : (parseTokenPrefix kind token).isSome) :
    secondPart token.toList = kind.toList := by
  unfold parseTokenPrefix at accepted
  split at accepted
  · rename_i vendor tokenKind hex secret split
    split at accepted
    · rename_i shape
      rw [← eq_secondPart split, shape.2.1]
    · cases accepted
  · cases accepted

theorem secondPart_of_key {key : String} (accepted : (parseKeyPrefix key).isSome) :
    (secondPart key.toList).length = 8 := by
  unfold parseKeyPrefix at accepted
  split at accepted
  · rename_i vendor hex secret split
    split at accepted
    · rename_i shape
      rw [← eq_secondPart split, shape.2.1]
    · cases accepted
  · cases accepted

section

variable (buf : Fin 36 → UInt8)

def hexPart : List Char := ((List.ofFn buf).take 4).flatMap fun b => hexDigits 2 b.toNat

def secretPart : List Char := Base64.rawURLEncode ((List.ofFn buf).drop 4)

theorem isLowerHex_hexDigit : ∀ n < 16, isLowerHex (hexDigit n) = true := by decide

theorem all_hexPart : (hexPart buf).all isLowerHex = true := by
  rw [List.all_eq_true]
  intro c mem
  obtain ⟨b, _, isDigit⟩ := List.mem_flatMap.mp mem
  simp only [hexDigits, List.mem_cons, List.not_mem_nil, or_false] at isDigit
  obtain rfl | rfl := isDigit
  all_goals exact isLowerHex_hexDigit _ (Nat.mod_lt _ (by decide))

theorem underscore_notMem_hexPart : '_' ∉ hexPart buf := fun mem =>
  absurd (List.all_eq_true.mp (all_hexPart buf) _ mem) (by decide)

theorem secretPart_ne_nil : secretPart buf ≠ [] := by
  have first : ∃ a b c rest, (List.ofFn buf).drop 4 = a :: b :: c :: rest := ⟨_, _, _, _, rfl⟩
  obtain ⟨a, b, c, rest, isBytes⟩ := first
  have bound := a.toNat_lt
  have unpadded := Base64.digit_ne_padding (a.toNat / 4) (by omega)
  rw [secretPart, isBytes]
  simp [Base64.rawURLEncode, Base64.encode, unpadded]

theorem parseKeyPrefix_generated : parseKeyPrefix (generateAPIKey buf).secret = some (generateAPIKey buf).keyPrefix := by
  have isSecret : (generateAPIKey buf).secret.toList = "otm".toList ++ '_' :: (hexPart buf ++ '_' :: secretPart buf) := by
    simp [generateAPIKey, generateKey, hexPart, secretPart]
  rw [parseKeyPrefix, isSecret, splitN_cons (by decide), splitN_cons (underscore_notMem_hexPart buf), splitN]
  simp only [all_hexPart, secretPart_ne_nil, ne_eq]
  rfl

theorem parseTokenPrefix_generated {kind stem : String} (isStem : stem = "otm_" ++ kind ++ "_")
    (plain : '_' ∉ kind.toList) :
    parseTokenPrefix kind (generateKey stem buf).secret = some (generateKey stem buf).keyPrefix := by
  subst isStem
  have isSecret : (generateKey ("otm_" ++ kind ++ "_") buf).secret.toList =
      "otm".toList ++ '_' :: (kind.toList ++ '_' :: (hexPart buf ++ '_' :: secretPart buf)) := by
    simp [generateKey, hexPart, secretPart]
  rw [parseTokenPrefix, isSecret, splitN_cons (by decide), splitN_cons plain,
    splitN_cons (underscore_notMem_hexPart buf), splitN]
  simp only [all_hexPart, secretPart_ne_nil, ne_eq]
  rfl

end

inductive Format where
  | ingestKey
  | bootstrapToken
  | agentToken
  | managementToken

def Format.parse : Format → String → Option String
  | .ingestKey => parseKeyPrefix
  | .bootstrapToken => parseBootstrapTokenPrefix
  | .agentToken => parseAgentTokenPrefix
  | .managementToken => parseAPITokenPrefix

def Format.generate : Format → (Fin 36 → UInt8) → GeneratedKey
  | .ingestKey => generateAPIKey
  | .bootstrapToken => generateBootstrapToken
  | .agentToken => generateAgentToken
  | .managementToken => generateAPIToken

/-- The length of the second part, and the part itself but for ingest keys. -/
def Format.Second (part : List Char) : Format → Prop
  | .ingestKey => part.length = 8
  | .bootstrapToken => part = "bt".toList
  | .agentToken => part = "at".toList
  | .managementToken => part = "pat".toList

theorem second_of_accepted {format : Format} {text : String} (accepted : (format.parse text).isSome) :
    format.Second (secondPart text.toList) := by
  cases format with
  | ingestKey => exact secondPart_of_key accepted
  | bootstrapToken | agentToken | managementToken => exact secondPart_of_token accepted

/-- A generated key or token parses back to its lookup prefix, and no text has two formats. -/
theorem formats_parse_back_disjoint :
    (∀ (format : Format) (buf : Fin 36 → UInt8),
      format.parse (format.generate buf).secret = some (format.generate buf).keyPrefix) ∧
    ∀ (format other : Format) (text : String), (format.parse text).isSome → (other.parse text).isSome → format = other := by
  constructor
  · intro format buf
    cases format with
    | ingestKey => exact parseKeyPrefix_generated buf
    | bootstrapToken => exact @parseTokenPrefix_generated buf "bt" "otm_bt_" rfl (by decide)
    | agentToken => exact @parseTokenPrefix_generated buf "at" "otm_at_" rfl (by decide)
    | managementToken => exact @parseTokenPrefix_generated buf "pat" "otm_pat_" rfl (by decide)
  · intro format other text accepted acceptedToo
    have second := second_of_accepted accepted
    have secondToo := second_of_accepted acceptedToo
    cases format <;> cases other <;> simp_all [Format.Second]

end OtelFleet.Verified.TokenFormats
