import OtelFleet.Pipelines.Validate

/-! # Secret fields of a graph

Fields whose schema says `"format": "password"` are encrypted before a graph is
stored, replaced by a sentinel whenever a graph leaves the backend, and decrypted
only for rendering.  Go visits the members of a map in no particular order; here
they are visited in the order of the keys.
-/

namespace OtelFleet.Pipelines

open Data

/-- What a secret field looks like outside the backend.  Sent back unchanged it
    means "keep the stored secret". -/
def redactedSentinel : String := "__otel_fleet_redacted__"

def encKey : String := "$enc"

def isBase64Char (c : Char) : Bool := c.isAlphanum || c = '+' || c = '/'

/-- What `base64.StdEncoding` decodes: line breaks are skipped, and the last of
    the groups of four characters may end in padding. -/
def isBase64 (text : String) : Bool :=
  let digits := text.toList.filter fun c => c ≠ '\n' && c ≠ '\r'
  let unpadded := if digits.getLast? = some '=' then digits.dropLast else digits
  let body := if digits.getLast? = some '=' ∧ unpadded.getLast? = some '=' then unpadded.dropLast else unpadded
  digits.length % 4 = 0 && body.all isBase64Char

/-- The ciphertext, by its base64 text, when the value is an `{"$enc": …}` marker. -/
def encValue : Json → Option String
  | .obj [(key, .str text)] => if key = encKey ∧ isBase64 text then some text else none
  | _ => none

def newEncValue (ciphertext : String) : Json := .obj [(encKey, .str ciphertext)]

/-- The master key's cipher.  `nonce` is the randomness of one call. -/
structure Cipher where
  encrypt : (nonce : Nat) → String → String
  decrypt : String → Option String
  isBase64_encrypt : ∀ nonce plaintext, isBase64 (encrypt nonce plaintext)
  decrypt_encrypt : ∀ nonce plaintext, decrypt (encrypt nonce plaintext) = some plaintext

def errNotConfigured : String := "master key not configured (set OTEL_FLEET_MASTER_KEY)"
def errDecrypt : String := "cannot decrypt: data corrupted or wrong master key"

variable (cipher : Option Cipher)

def decryptWith (ciphertext : String) : Except String String :=
  match cipher with
  | none => .error errNotConfigured
  | some c => (c.decrypt ciphertext).elim (.error errDecrypt) .ok

/-- The randomness of one request: a nonce, or the error of the random source,
    and a key for the hint in an error message, for each field. -/
structure Entropy where
  nonce : String → Except String Nat
  hintKey : String → String

def Schema.member (schema : Schema) (key : String) : Option Schema :=
  (schema.properties.lookup key).orElse fun _ => schema.additionalSchema

section

variable {ι : Type*} (fn : String → Json → Except String (Json × List ι))

mutual
/-- `transformSecrets` replaces every secret field by what `fn` makes of it and
    collects what `fn` reports. -/
def transformSecrets (schema : Option Schema) (path : String) (value : Json) :
    Except String (Json × List ι) :=
  match schema with
  | none => .ok (value, [])
  | some schema =>
    if schema.format = some "password" then fn path value
    else
      match value with
      | .obj fields => do
        let (fields, log) ← transformFields schema path fields
        return (.obj fields, log)
      | .arr items =>
        match schema.items with
        | none => .ok (.arr items, [])
        | some itemSchema => do
          let (items, log) ← transformItems itemSchema path 0 items
          return (.arr items, log)
      | value => .ok (value, [])

def transformFields (schema : Schema) (path : String) :
    List (String × Json) → Except String (List (String × Json) × List ι)
  | [] => .ok ([], [])
  | (key, value) :: fields => do
    let (value, log) ← transformSecrets (schema.member key) (path ++ "." ++ key) value
    let (fields, logs) ← transformFields schema path fields
    return ((key, value) :: fields, log ++ logs)

def transformItems (schema : Schema) (path : String) (i : Nat) :
    List Json → Except String (List Json × List ι)
  | [] => .ok ([], [])
  | value :: items => do
    let (value, log) ← transformSecrets (some schema) (path ++ "[" ++ toString i ++ "]") value
    let (items, logs) ← transformItems schema path (i + 1) items
    return (value :: items, log ++ logs)
end

def transformNode (kind : Kind) (path : String) (node : Node) : Except String (Node × List ι) :=
  match Catalog.lookup kind node.type, node.config with
  | some component, some config => do
    let (config, log) ← transformSecrets fn (some component.schema) path (.obj config)
    return ({ node with config := some config.fields }, log)
  | _, _ => .ok (node, [])

def transformNodes (kind : Kind) (name : String) (i : Nat) :
    List Node → Except String (List Node × List ι)
  | [] => .ok ([], [])
  | node :: nodes => do
    let (node, log) ← transformNode fn kind (name ++ "[" ++ toString i ++ "].config") node
    let (nodes, logs) ← transformNodes kind name (i + 1) nodes
    return (node :: nodes, log ++ logs)

def transformGraphSecrets (graph : Graph) : Except String (Graph × List ι) := do
  let (processors, processorLog) ← transformNodes fn .processor "processors" 0 graph.processors
  let (exporters, exporterLog) ← transformNodes fn .exporter "exporters" 0 graph.exporters
  return ({ graph with processors, exporters }, processorLog ++ exporterLog)

end

def indexSecrets (prev : Option Graph) : Except String (List (String × Json)) :=
  match prev with
  | none => .ok []
  | some graph => do
    let (_, index) ← transformGraphSecrets (fun path value => .ok (value, [(path, value)])) graph
    return index

def encryptPlaintext (entropy : Entropy) (path : String) (value : Json)
    (plaintext : String) : Except String (Json × List Issue) :=
  match cipher with
  | none => .ok (value, [issueAt path (errNotConfigured ++
      "; secret fields cannot be stored without it (example key: " ++ entropy.hintKey path ++ ")")])
  | some c =>
    match entropy.nonce path with
    | .error msg => .error ("encrypt secret at " ++ path ++ ": generate nonce: " ++ msg)
    | .ok nonce => .ok (newEncValue (c.encrypt nonce plaintext), [])

def legacyPlaintext : Json → String
  | .str plaintext => plaintext
  | _ => ""

def encryptField (entropy : Entropy) (prev : List (String × Json))
    (path : String) (value : Json) : Except String (Json × List Issue) :=
  if (encValue value).isSome then .ok (value, [])
  else
    match value with
    | .str s =>
      if s = redactedSentinel then
        match prev.lookup path with
        | none => .ok (value, [issueAt path
            "value is redacted but no stored secret exists at this path; provide the actual value"])
        | some stored =>
          if (encValue stored).isSome then .ok (stored, [])
          -- plaintext from before secret encryption
          else encryptPlaintext cipher entropy path value (legacyPlaintext stored)
      else encryptPlaintext cipher entropy path value s
    | value => .ok (value, [])

def encryptGraphSecrets (graph : Graph) (cipher : Option Cipher) (entropy : Entropy)
    (prev : Option Graph) : Except String (Except (List Issue) Graph) := do
  let index ← indexSecrets prev
  match ← transformGraphSecrets (encryptField cipher entropy index) graph with
  | (stored, []) => return .ok stored
  | (_, issue :: issues) => return .error (issue :: issues)

def redactField (value : Json) : Json := if value = .null then value else .str redactedSentinel

/-- `RedactGraphSecrets`, which never fails. -/
def redactGraphSecrets (graph : Graph) : Graph :=
  match transformGraphSecrets (fun _ value => .ok (redactField value, ([] : List Unit))) graph with
  | .ok (redacted, _) => redacted
  | .error _ => graph

def decryptField (path : String) (value : Json) :
    Except String (Json × List Unit) :=
  match encValue value with
  | none => .ok (value, [])
  | some ciphertext =>
    match decryptWith cipher ciphertext with
    | .error msg => .error ("decrypt secret at " ++ path ++ ": " ++ msg)
    | .ok plaintext => .ok (.str plaintext, [])

def decryptGraphSecrets (graph : Graph) (cipher : Option Cipher) : Except String Graph := do
  let (plain, _) ← transformGraphSecrets (decryptField cipher) graph
  return plain

end OtelFleet.Pipelines
