import OtelFleet.Verified.SecretTraversal

/-! # Secrets through storage

What becomes of each secret field of a submitted graph when it is encrypted and
decrypted again: its own plaintext, or for a sentinel the plaintext that the
previous version stored at the same path.
-/

namespace OtelFleet.Verified.StoredSecrets

open Data Pipelines
open Verified.SecretTraversal

def indexOf (prev : Option Graph) : List (String × Json) := prev.elim [] graphFields

variable (prev : Option Graph)

theorem indexSecrets_eq : indexSecrets prev = .ok (indexOf prev) := by
  cases prev with
  | none => rfl
  | some graph =>
    have clean (fields : List (String × Json)) :
        fields.findSome? (fieldError fun path value => .ok (value, [(path, value)])) = none := by
      simp [fieldError]
    rw [indexSecrets, transformGraphSecrets_eq, visit, clean]
    exact congrArg Except.ok (List.flatMap_singleton' (graphFields graph))

variable (graph : Graph)

theorem redactGraphSecrets_eq : redactGraphSecrets graph = replaceGraph (fun _ value => redactField value) graph := by
  have clean (fields : List (String × Json)) :
      fields.findSome? (fieldError fun _ value => .ok (redactField value, ([] : List Unit))) = none := by
    simp [fieldError]
  rw [redactGraphSecrets, transformGraphSecrets_eq, visit, clean]
  rfl

section

variable (cipher : Option Cipher) (entropy : Entropy)

theorem decryptGraphSecrets_eq :
    decryptGraphSecrets graph cipher =
      match (graphFields graph).findSome? (fieldError (decryptField cipher)) with
      | some msg => .error msg
      | none => .ok (replaceGraph (fieldValue (decryptField cipher)) graph) := by
  rw [decryptGraphSecrets, transformGraphSecrets_eq, visit]
  cases (graphFields graph).findSome? (fieldError (decryptField cipher)) <;> rfl

theorem encryptGraphSecrets_eq :
    encryptGraphSecrets graph cipher entropy prev =
      match (graphFields graph).findSome? (fieldError (encryptField cipher entropy (indexOf prev))) with
      | some msg => .error msg
      | none =>
        match (graphFields graph).flatMap (fieldLog (encryptField cipher entropy (indexOf prev))) with
        | [] => .ok (.ok (replaceGraph (fieldValue (encryptField cipher entropy (indexOf prev))) graph))
        | issue :: issues => .ok (.error (issue :: issues)) := by
  rw [encryptGraphSecrets, indexSecrets_eq]
  dsimp only [bind, Except.bind]
  rw [transformGraphSecrets_eq, visit]
  cases (graphFields graph).findSome? (fieldError (encryptField cipher entropy (indexOf prev))) with
  | some msg => rfl
  | none =>
    cases (graphFields graph).flatMap (fieldLog (encryptField cipher entropy (indexOf prev))) <;> rfl

/-! ## One field -/

/-- The plaintext of a stored field; values from before secret encryption count as
    the strings they are. -/
def storedPlaintext (stored : Json) : Option String :=
  match encValue stored with
  | some ciphertext => (decryptWith cipher ciphertext).toOption
  | none => some (legacyPlaintext stored)

def keptPlaintext (index : List (String × Json)) (path : String) : Option String :=
  (index.lookup path).bind (storedPlaintext cipher)

def plainField (index : List (String × Json)) (path : String) (value : Json) : Json :=
  match encValue value with
  | some ciphertext => .str ((decryptWith cipher ciphertext).toOption.getD "")
  | none =>
    if value = .str redactedSentinel then .str ((keptPlaintext cipher index path).getD "") else value

variable {cipher entropy} {index : List (String × Json)} {path : String} {value stored plain : Json}

theorem encValue_newEncValue (c : Cipher) (nonce : Nat) (plaintext : String) :
    encValue (newEncValue (c.encrypt nonce plaintext)) = some (c.encrypt nonce plaintext) := by
  simp [encValue, newEncValue, c.isBase64_encrypt]

theorem encryptPlaintext_ok {plaintext : String}
    (encrypted : encryptPlaintext cipher entropy path value plaintext = .ok (stored, [])) :
    ∃ c nonce, cipher = some c ∧ stored = newEncValue (c.encrypt nonce plaintext) := by
  unfold encryptPlaintext at encrypted
  cases cipher with
  | none => simp at encrypted
  | some c =>
    cases drawn : entropy.nonce path with
    | error msg => simp [drawn] at encrypted
    | ok nonce =>
      simp only [drawn, Except.ok.injEq, Prod.mk.injEq, and_true] at encrypted
      exact ⟨c, nonce, rfl, encrypted.symm⟩

variable {log : List Unit}

theorem decryptField_of_encValue {ciphertext : String} (marker : encValue stored = some ciphertext)
    (decrypted : decryptField cipher path stored = .ok (plain, log)) :
    ∃ plaintext, decryptWith cipher ciphertext = .ok plaintext ∧ plain = .str plaintext := by
  unfold decryptField at decrypted
  rw [marker] at decrypted
  cases opened : decryptWith cipher ciphertext with
  | error msg => simp [opened] at decrypted
  | ok plaintext =>
    simp only [opened, Except.ok.injEq, Prod.mk.injEq] at decrypted
    exact ⟨plaintext, rfl, decrypted.1.symm⟩

theorem decryptField_encryptPlaintext {plaintext : String}
    (encrypted : encryptPlaintext cipher entropy path value plaintext = .ok (stored, []))
    (decrypted : decryptField cipher path stored = .ok (plain, log)) : plain = .str plaintext := by
  obtain ⟨c, nonce, rfl, rfl⟩ := encryptPlaintext_ok encrypted
  obtain ⟨opened, decrypts, rfl⟩ := decryptField_of_encValue (encValue_newEncValue c nonce plaintext) decrypted
  simp only [decryptWith, c.decrypt_encrypt, Option.elim_some, Except.ok.injEq] at decrypts
  rw [decrypts]

theorem kept_of_stored (encrypted : encryptField cipher entropy index path (.str redactedSentinel) = .ok (stored, []))
    (decrypted : decryptField cipher path stored = .ok (plain, log)) :
    ∃ plaintext, keptPlaintext cipher index path = some plaintext ∧ plain = .str plaintext := by
  have noMarker : (encValue (.str redactedSentinel)).isSome = false := rfl
  unfold encryptField at encrypted
  simp only [noMarker, Bool.false_eq_true, if_false] at encrypted
  unfold keptPlaintext storedPlaintext
  cases found : index.lookup path with
  | none => simp [found] at encrypted
  | some kept =>
    simp only [found] at encrypted
    rw [Option.bind_some]
    cases marker : encValue kept with
    | some ciphertext =>
      simp only [marker, Option.isSome_some, if_true, Except.ok.injEq, Prod.mk.injEq, and_true] at encrypted
      subst stored
      obtain ⟨plaintext, opened, rfl⟩ := decryptField_of_encValue marker decrypted
      exact ⟨plaintext, by simp [opened, Except.toOption], rfl⟩
    | none =>
      simp only [marker] at encrypted
      exact ⟨_, rfl, decryptField_encryptPlaintext encrypted decrypted⟩

theorem plainField_of_stored (encrypted : encryptField cipher entropy index path value = .ok (stored, []))
    (decrypted : decryptField cipher path stored = .ok (plain, log)) : plain = plainField cipher index path value := by
  by_cases sentinel : value = .str redactedSentinel
  · subst value
    obtain ⟨plaintext, isKept, rfl⟩ := kept_of_stored encrypted decrypted
    have noMarker : encValue (.str redactedSentinel) = none := rfl
    simp [plainField, noMarker, isKept]
  unfold encryptField at encrypted
  unfold plainField
  rw [if_neg sentinel]
  cases marker : encValue value with
  | some ciphertext =>
    simp only [marker, Option.isSome_some, if_true, Except.ok.injEq, Prod.mk.injEq, and_true] at encrypted
    subst stored
    obtain ⟨plaintext, opened, rfl⟩ := decryptField_of_encValue marker decrypted
    simp [opened, Except.toOption]
  | none =>
    simp only [marker, Option.isSome_none, Bool.false_eq_true, if_false] at encrypted
    cases value with
    | str s =>
      dsimp only at encrypted
      rw [if_neg fun same => sentinel (congrArg Json.str same)] at encrypted
      exact decryptField_encryptPlaintext encrypted decrypted
    | _ =>
      simp only [Except.ok.injEq, Prod.mk.injEq, and_true] at encrypted
      subst stored
      simp only [decryptField, marker, Except.ok.injEq, Prod.mk.injEq] at decrypted
      exact decrypted.1.symm

/-! ## The graph -/

theorem field_ok {ι : Type} {fn : String → Json → Except String (Json × List ι)} {fields : List (String × Json)}
    (clean : fields.findSome? (fieldError fn) = none) {field : String × Json} (mem : field ∈ fields) :
    fn field.1 field.2 = .ok (fieldValue fn field.1 field.2, fieldLog fn field) := by
  have noError := List.findSome?_eq_none_iff.mp clean field mem
  unfold fieldError at noError
  unfold fieldValue fieldLog
  cases outcome : fn field.1 field.2 with
  | error msg => simp [outcome] at noError
  | ok res => rfl

variable {graph storedGraph : Graph} {prev : Option Graph}

theorem encryptGraphSecrets_ok (encrypted : encryptGraphSecrets graph cipher entropy prev = .ok (.ok storedGraph)) :
    storedGraph = replaceGraph (fieldValue (encryptField cipher entropy (indexOf prev))) graph ∧
      ∀ field ∈ graphFields graph, encryptField cipher entropy (indexOf prev) field.1 field.2 =
        .ok (fieldValue (encryptField cipher entropy (indexOf prev)) field.1 field.2, []) := by
  rw [encryptGraphSecrets_eq] at encrypted
  cases clean : (graphFields graph).findSome? (fieldError (encryptField cipher entropy (indexOf prev))) with
  | some msg => simp [clean] at encrypted
  | none =>
    simp only [clean] at encrypted
    cases reports : (graphFields graph).flatMap (fieldLog (encryptField cipher entropy (indexOf prev))) with
    | cons issue issues => simp [reports] at encrypted
    | nil =>
      simp only [reports, Except.ok.injEq] at encrypted
      refine ⟨encrypted.symm, fun field mem => ?_⟩
      rw [field_ok clean mem, List.flatMap_eq_nil_iff.mp reports field mem]

variable {plainGraph : Graph}

theorem decryptGraphSecrets_ok (decrypted : decryptGraphSecrets graph cipher = .ok plainGraph) :
    plainGraph = replaceGraph (fieldValue (decryptField cipher)) graph ∧
      ∀ field ∈ graphFields graph, decryptField cipher field.1 field.2 =
        .ok (fieldValue (decryptField cipher) field.1 field.2, fieldLog (decryptField cipher) field) := by
  rw [decryptGraphSecrets_eq] at decrypted
  cases clean : (graphFields graph).findSome? (fieldError (decryptField cipher)) with
  | some msg => simp [clean] at decrypted
  | none =>
    simp only [clean, Except.ok.injEq] at decrypted
    exact ⟨decrypted.symm, fun field mem => field_ok clean mem⟩

section

variable (encrypted : encryptGraphSecrets graph cipher entropy prev = .ok (.ok storedGraph))
  (decrypted : decryptGraphSecrets storedGraph cipher = .ok plainGraph)
include encrypted decrypted

theorem plainGraph_of_stored : plainGraph = replaceGraph (plainField cipher (indexOf prev)) graph := by
  obtain ⟨rfl, stores⟩ := encryptGraphSecrets_ok encrypted
  obtain ⟨rfl, opens⟩ := decryptGraphSecrets_ok decrypted
  rw [replaceGraph_replaceGraph]
  refine replaceGraph_congr fun field mem => ?_
  rw [graphFields_replaceGraph] at opens
  exact plainField_of_stored (stores field mem) (opens _ (List.mem_map_of_mem mem))

theorem kept_of_storedGraph :
    ∀ field ∈ graphFields graph, field.2 = .str redactedSentinel →
      ∃ plaintext, keptPlaintext cipher (indexOf prev) field.1 = some plaintext := by
  obtain ⟨rfl, stores⟩ := encryptGraphSecrets_ok encrypted
  obtain ⟨_, opens⟩ := decryptGraphSecrets_ok decrypted
  rw [graphFields_replaceGraph] at opens
  intro field mem sentinel
  have encryptedField := stores field mem
  have decryptedField := opens _ (List.mem_map_of_mem mem)
  rw [sentinel] at encryptedField decryptedField
  obtain ⟨plaintext, isKept, _⟩ := kept_of_stored encryptedField decryptedField
  exact ⟨plaintext, isKept⟩

end

/-! ## The database

Numbers change on their way through the database and markers do not, so it makes
no difference whether a graph is decrypted before or after. -/

variable (format : ℚ → String)

theorem encValue_store (value : Json) : encValue (Json.mapNumbers (storeNumber format) value) = encValue value := by
  cases value with
  | obj fields =>
    rcases fields with _ | ⟨⟨key, mem⟩, _ | ⟨second, rest⟩⟩
    · rfl
    · cases mem with
      | num number => cases number <;> rfl
      | _ => rfl
    · cases mem with
      | num number => cases number <;> rfl
      | _ => rfl
  | num number => cases number <;> rfl
  | _ => rfl

theorem decryptField_store (path : String) (value : Json) :
    decryptField cipher path (Json.mapNumbers (storeNumber format) value) =
      (decryptField cipher path value).map fun res =>
        (Json.mapNumbers (storeNumber format) res.1, res.2) := by
  unfold decryptField
  rw [encValue_store]
  cases encValue value with
  | none => rfl
  | some ciphertext =>
    dsimp only
    cases decryptWith cipher ciphertext <;> rfl

theorem decryptGraphSecrets_store (decrypted : decryptGraphSecrets graph cipher = .ok plainGraph) :
    decryptGraphSecrets (storeGraph format graph) cipher = .ok (storeGraph format plainGraph) := by
  have errors field : fieldError (decryptField cipher)
      (field.1, Json.mapNumbers (storeNumber format) field.2) = fieldError (decryptField cipher) field := by
    unfold fieldError
    rw [decryptField_store]
    cases decryptField cipher field.1 field.2 <;> rfl
  have commutes path value :
      fieldValue (decryptField cipher) path (Json.mapNumbers (storeNumber format) value) =
        Json.mapNumbers (storeNumber format) (fieldValue (decryptField cipher) path value) := by
    unfold fieldValue
    rw [decryptField_store]
    cases decryptField cipher path value <;> rfl
  rw [decryptGraphSecrets_eq] at decrypted
  rw [decryptGraphSecrets_eq, graphFields_storeGraph, List.findSome?_map]
  simp only [Function.comp_def, errors]
  cases clean : (graphFields graph).findSome? (fieldError (decryptField cipher)) with
  | some msg => simp [clean] at decrypted
  | none =>
    simp only [clean, Except.ok.injEq] at decrypted
    rw [← decrypted, storeGraph_replaceGraph commutes]

end

/-! ## A cipher

The laws of a cipher are kept by the one that writes a plaintext out in
hexadecimal, eight digits for each character. -/

theorem isBase64_of_chars {text : String} (chars : ∀ c ∈ text.toList, isBase64Char c)
    (aligned : text.toList.length % 4 = 0) : isBase64 text := by
  have kept : text.toList.filter (fun c => c ≠ '\n' && c ≠ '\r') = text.toList := by
    refine List.filter_eq_self.mpr fun c mem => ?_
    have isChar := chars c mem
    by_contra lineBreak
    simp only [Bool.and_eq_true, decide_eq_true_eq, not_and_or, not_not] at lineBreak
    rcases lineBreak with rfl | rfl <;> cases isChar
  have unpadded : text.toList.getLast? ≠ some '=' := by
    intro padded
    cases chars '=' (List.mem_of_getLast? padded)
  simp only [isBase64, kept, unpadded, aligned]
  exact List.all_eq_true.mpr chars

theorem isBase64Char_hexDigit : ∀ n < 16, isBase64Char (hexDigit n) := by decide

theorem isBase64Char_hexDigits (width n : Nat) : ∀ c ∈ hexDigits width n, isBase64Char c := by
  induction width with
  | zero => simp [hexDigits]
  | succ width ih =>
    exact List.forall_mem_cons.mpr ⟨isBase64Char_hexDigit _ (Nat.mod_lt _ (by decide)), ih⟩

def hexText (plaintext : List Char) : List Char := plaintext.flatMap fun c => hexDigits 8 c.toNat

def readHexText : Nat → List Char → Option (List Char)
  | _, [] => some []
  | 0, _ :: _ => none
  | fuel + 1, text => ((readHex 8 0 text).map fun read => (Char.ofNat read.1, read.2)).bind fun read =>
    (readHexText fuel read.2).map (read.1 :: ·)

theorem readHexText_hexText (plaintext : List Char) (fuel : Nat) (enough : plaintext.length ≤ fuel) :
    readHexText fuel (hexText plaintext) = some plaintext := by
  induction plaintext generalizing fuel with
  | nil => cases fuel <;> rfl
  | cons c plaintext ih =>
    cases fuel with
    | zero => simp at enough
    | succ fuel =>
      have rest := ih fuel (by simpa using enough)
      have nonempty : hexText (c :: plaintext) = hexDigit (c.toNat / 16 ^ 7 % 16) ::
          (hexDigits 7 c.toNat ++ hexText plaintext) := rfl
      rw [nonempty, readHexText, ← List.cons_append]
      · rw [show hexDigit (c.toNat / 16 ^ 7 % 16) :: hexDigits 7 c.toNat = hexDigits 8 c.toNat from rfl,
          readHex_char (toNat_lt c)]
        simp [rest]
      · simp

def hexCipher : Cipher where
  encrypt _ plaintext := String.ofList (hexText plaintext.toList)
  decrypt text := (readHexText text.toList.length text.toList).map String.ofList
  isBase64_encrypt _ plaintext := by
    refine isBase64_of_chars ?_ ?_
    · rw [String.toList_ofList]
      intro c mem
      obtain ⟨_, _, isDigit⟩ := List.mem_flatMap.mp mem
      exact isBase64Char_hexDigits _ _ c isDigit
    · have length : (hexText plaintext.toList).length = plaintext.toList.length * 8 := by
        simp [hexText, List.length_flatMap, length_hexDigits]
      rw [String.toList_ofList, length]
      omega
  decrypt_encrypt _ plaintext := by
    have length : plaintext.toList.length ≤ (hexText plaintext.toList).length := by
      simp [hexText, List.length_flatMap, length_hexDigits]
      omega
    rw [String.toList_ofList, readHexText_hexText _ _ length, Option.map_some, String.ofList_toList]

end OtelFleet.Verified.StoredSecrets
