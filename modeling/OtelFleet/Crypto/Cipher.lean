import OtelFleet.Data.Base64
import OtelFleet.Pipelines.Secrets

/-! # Envelope encryption

Secrets at rest are sealed with AES-256-GCM under the master key.  A ciphertext
is a version byte, a nonce and the sealed text.  A ring of keys encrypts with its
primary key and decrypts with the first of its keys that opens the ciphertext.
-/

namespace OtelFleet.Crypto

open Data
open Pipelines(Cipher isBase64 isBase64Char)

/-- `cipher.AEAD` with one key: what it seals it opens again.  Nothing is assumed
    of texts sealed with another key. -/
structure Aead where
  sealText : (nonce : List UInt8) → (plaintext : String) → List UInt8
  openText : (nonce body : List UInt8) → Option String
  openText_sealText : ∀ nonce plaintext, openText nonce (sealText nonce plaintext) = some plaintext

def version1 : UInt8 := 0x01

def nonceSize : Nat := 12

def nonceBytes (nonce : Nat) : List UInt8 := (List.range nonceSize).map fun i => UInt8.ofNat (nonce / 256 ^ i)

def sealWith (key : Aead) (nonce : Nat) (plaintext : String) : List UInt8 :=
  version1 :: (nonceBytes nonce ++ key.sealText (nonceBytes nonce) plaintext)

/-- What the first key that opens the ciphertext finds in it. -/
def openWith (keys : List Aead) (ciphertext : List UInt8) : Option String :=
  if ciphertext.length < 1 + nonceSize then none
  else if ciphertext.head? ≠ some version1 then none
  else
    let nonce := (ciphertext.drop 1).take nonceSize
    let body := ciphertext.drop (1 + nonceSize)
    keys.findSome? fun key => key.openText nonce body

section

variable {key : Aead} {keys : List Aead} {nonce : Nat} {plaintext : String}

theorem openWith_sealWith : openWith keys (sealWith key nonce plaintext) =
    keys.findSome? fun other => other.openText (nonceBytes nonce) (key.sealText (nonceBytes nonce) plaintext) := by
  have size : (nonceBytes nonce).length = nonceSize := by simp [nonceBytes]
  rw [openWith]
  simp [sealWith, ← size, Nat.add_comm 1]

@[simp] theorem openWith_own : openWith (key :: keys) (sealWith key nonce plaintext) = some plaintext := by
  rw [openWith_sealWith, List.findSome?_cons, key.openText_sealText]

theorem openWith_of_mem (mem : key ∈ keys) : (openWith keys (sealWith key nonce plaintext)).isSome := by
  rw [openWith_sealWith, List.findSome?_isSome_iff]
  exact ⟨key, mem, by rw [key.openText_sealText]; rfl⟩

theorem openWith_of_first {ciphertext : List UInt8} (opens : openWith [key] ciphertext = some plaintext) :
    openWith (key :: keys) ciphertext = some plaintext := by
  unfold openWith at opens ⊢
  split_ifs at opens ⊢
  dsimp only at opens ⊢
  generalize (ciphertext.drop 1).take nonceSize = nonce, ciphertext.drop (1 + nonceSize) = body at opens ⊢
  cases opened : key.openText nonce body with
  | none => simp [opened] at opens
  | some text =>
    rw [List.findSome?_cons, opened] at opens ⊢
    exact opens

end

/-! ## A key that hides nothing

A stand-in for AES-GCM that only marks its ciphertexts, to run the model with. -/

def charBytes (c : Char) : List UInt8 :=
  [UInt8.ofNat (c.toNat / 16777216), UInt8.ofNat (c.toNat / 65536), UInt8.ofNat (c.toNat / 256), UInt8.ofNat c.toNat]

def readChars : List UInt8 → Option (List Char)
  | a :: b :: c :: d :: rest =>
    (readChars rest).map (Char.ofNat (a.toNat * 16777216 + b.toNat * 65536 + c.toNat * 256 + d.toNat) :: ·)
  | [] => some []
  | _ => none

theorem readChars_charBytes (text : List Char) : readChars (text.flatMap charBytes) = some text := by
  induction text with
  | nil => rfl
  | cons c text ih =>
    have bound : c.toNat < 4294967296 := toNat_lt c
    have number : c.toNat / 16777216 % 256 * 16777216 + c.toNat / 65536 % 256 * 65536 + c.toNat / 256 % 256 * 256 +
        c.toNat % 256 = c.toNat := by omega
    simp only [List.flatMap_cons, charBytes, List.cons_append, List.nil_append, readChars, ih,
      UInt8.toNat_ofNat', number, Char.ofNat_toNat]
    rfl

def markedKey (mark : UInt8) : Aead where
  sealText _ plaintext := mark :: plaintext.toList.flatMap charBytes
  openText _ body :=
    match body with
    | first :: rest => if first = mark then (readChars rest).map String.ofList else none
    | [] => none
  openText_sealText _ plaintext := by simp [readChars_charBytes]

/-! ## Key rings

Ciphertexts are given by their base64 texts, as the markers in a graph hold them. -/

/-- `crypto.Cipher`: the primary key and the old ones, which only decrypt. -/
structure KeyRing where
  primary : Aead
  secondaries : List Aead

def toText (ciphertext : List UInt8) : String := String.ofList (Base64.encode ciphertext)

/-- Line breaks in a text are skipped. -/
def ofText (text : String) : Option (List UInt8) :=
  Base64.decode (text.toList.filter fun c => c ≠ '\n' && c ≠ '\r')

theorem isBase64Char_digit : ∀ n < 64, isBase64Char (Base64.digit n) ∧ Base64.digit n ≠ '\n' ∧ Base64.digit n ≠ '\r' := by
  decide

variable (bytes : List UInt8)

theorem filter_encode : (Base64.encode bytes).filter (fun c => c ≠ '\n' && c ≠ '\r') = Base64.encode bytes := by
  obtain ⟨digits, padding, shape, -, areDigits, -⟩ := Base64.encode_shape bytes
  rw [shape, List.filter_eq_self]
  intro c mem
  rcases List.mem_append.mp mem with isDigit | isPadding
  · obtain ⟨n, isMember, rfl⟩ := List.mem_map.mp isDigit
    simpa using (isBase64Char_digit n (areDigits n isMember)).2
  · rw [List.eq_of_mem_replicate isPadding]
    rfl

@[simp] theorem ofText_toText : ofText (toText bytes) = some bytes := by
  rw [ofText, toText, String.toList_ofList, filter_encode, Base64.decode_encode]

theorem isBase64_toText : isBase64 (toText bytes) := by
  obtain ⟨digits, padding, shape, atMost, areDigits, length⟩ := Base64.encode_shape bytes
  have valid : (digits.map Base64.digit).all isBase64Char := by
    simp only [List.all_eq_true, List.mem_map]
    rintro _ ⟨n, mem, rfl⟩
    exact (isBase64Char_digit n (areDigits n mem)).1
  have last : (digits.map Base64.digit).getLast? ≠ some '=' := by
    intro isLast
    obtain ⟨n, mem, isPadding⟩ := List.mem_map.mp (List.mem_of_getLast? isLast)
    exact Base64.digit_ne_padding n (areDigits n mem) isPadding
  have total : (digits.map Base64.digit ++ List.replicate padding '=').length % 4 = 0 := by simpa using length
  rw [isBase64, toText, String.toList_ofList, filter_encode, shape]
  generalize digits.map Base64.digit = body at valid last total ⊢
  -- zero, one or two padding characters
  obtain rfl | rfl | rfl : padding = 0 ∨ padding = 1 ∨ padding = 2 := by omega
  · simp_all
  · simp_all
  · simp_all [List.dropLast_append_of_ne_nil]

namespace KeyRing

variable (ring : KeyRing)

def decrypters : List Aead := ring.primary :: ring.secondaries

def encrypt (nonce : Nat) (plaintext : String) : String := toText (sealWith ring.primary nonce plaintext)

def decrypt (text : String) : Option String := (ofText text).bind (openWith ring.decrypters)

def encryptedWithPrimary (text : String) : Bool := ((ofText text).bind (openWith [ring.primary])).isSome

def dropSecondaries : KeyRing := ⟨ring.primary, []⟩

@[simp] theorem decrypt_encrypt (nonce : Nat) (plaintext : String) :
    ring.decrypt (ring.encrypt nonce plaintext) = some plaintext := by
  simp [decrypt, encrypt, decrypters]

theorem decrypt_of_dropSecondaries {ring : KeyRing} {text plaintext : String}
    (opens : ring.dropSecondaries.decrypt text = some plaintext) : ring.decrypt text = some plaintext := by
  rw [KeyRing.decrypt, Option.bind_eq_some_iff] at opens ⊢
  obtain ⟨bytes, isBytes, opens⟩ := opens
  exact ⟨bytes, isBytes, openWith_of_first opens⟩

def cipher : Cipher where
  encrypt := ring.encrypt
  decrypt := ring.decrypt
  isBase64_encrypt _ _ := isBase64_toText _
  decrypt_encrypt := ring.decrypt_encrypt

end KeyRing

def oldRing : KeyRing := ⟨markedKey 1, []⟩
def newRing : KeyRing := ⟨markedKey 2, [markedKey 1]⟩

end OtelFleet.Crypto
