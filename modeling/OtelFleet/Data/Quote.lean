import Mathlib.Data.String.Basic
import Mathlib.Tactic.Ring

/-! # Quoted string literals

Go's `strconv.Quote`, which the verb `%q` prints, and `strconv.Unquote` on the
literals it writes.  Which characters are printable is a Unicode table; nothing
here depends on it beyond a newline not being printable.
-/

namespace OtelFleet.Data

/-- `strconv.IsPrint`. -/
class PrintTable where
  isPrint : Char → Bool
  isPrint_newline : isPrint '\n' = false

@[reducible] def asciiPrintTable : PrintTable where
  isPrint c := 0x20 ≤ c.toNat && c.toNat ≤ 0x7e
  isPrint_newline := by decide

def hexDigit (n : Nat) : Char :=
  if n < 10 then Char.ofNat ('0'.toNat + n) else Char.ofNat ('a'.toNat + (n - 10))

def hexValue (c : Char) : Option Nat :=
  if '0' ≤ c ∧ c ≤ '9' then some (c.toNat - '0'.toNat)
  else if 'a' ≤ c ∧ c ≤ 'f' then some (c.toNat - 'a'.toNat + 10)
  else none

def hexDigits : Nat → Nat → List Char
  | 0, _ => []
  | width + 1, n => hexDigit (n / 16 ^ width % 16) :: hexDigits width n

def readHex : Nat → Nat → List Char → Option (Nat × List Char)
  | 0, value, rest => some (value, rest)
  | width + 1, value, c :: rest => (hexValue c).bind fun digit => readHex width (16 * value + digit) rest
  | _ + 1, _, [] => none

def escapeLetters : List (Char × Char) :=
  [('\x07', 'a'), ('\x08', 'b'), ('\x0c', 'f'), ('\n', 'n'), ('\r', 'r'), ('\t', 't'), ('\x0b', 'v')]

def simpleEscape (letter : Char) : Option Char :=
  if letter = '"' ∨ letter = '\\' then some letter
  else (escapeLetters.find? fun entry => entry.2 = letter).map Prod.fst

section

variable [PrintTable]

def hexEscape (c : Char) : List Char :=
  if c.toNat < 0x20 ∨ c.toNat = 0x7f then '\\' :: 'x' :: hexDigits 2 c.toNat
  else if c.toNat < 0x10000 then '\\' :: 'u' :: hexDigits 4 c.toNat
  else '\\' :: 'U' :: hexDigits 8 c.toNat

/-- `appendEscapedRune`. -/
def quoteChar (c : Char) : List Char :=
  if c = '"' ∨ c = '\\' then ['\\', c]
  else if PrintTable.isPrint c then [c]
  else match escapeLetters.lookup c with
    | some letter => ['\\', letter]
    | none => hexEscape c

def quoteBody (s : List Char) : List Char := s.flatMap quoteChar

/-- `strconv.Quote`. -/
def quote (s : String) : String :=
  String.ofList ('"' :: (quoteBody s.toList ++ ['"']))

end

def escapeWidth (c : Char) : Option Nat :=
  if c = 'x' then some 2 else if c = 'u' then some 4 else if c = 'U' then some 8 else none

/-- `unquoteChar`: the first character of a literal's body and what follows it. -/
def unquoteChar : List Char → Option (Char × List Char)
  | [] => none
  | '\\' :: [] => none
  | '\\' :: c :: rest =>
    match escapeWidth c with
    | some width => (readHex width 0 rest).map fun read => (Char.ofNat read.1, read.2)
    | none => (simpleEscape c).map fun escaped => (escaped, rest)
  | c :: rest => if c = '"' ∨ c = '\n' then none else some (c, rest)

/-- The body of a literal up to its closing quote; `fuel` bounds its length. -/
def unquoteBody : Nat → List Char → Option (List Char)
  | 0, _ => none
  | fuel + 1, body =>
    if body = ['"'] then some []
    else (unquoteChar body).bind fun read => (unquoteBody fuel read.2).map (read.1 :: ·)

/-- `strconv.Unquote` on a double-quoted literal. -/
def unquote (literal : String) : Option String :=
  match literal.toList with
  | '"' :: body => (unquoteBody body.length body).map String.ofList
  | _ => none

theorem hexValue_hexDigit : ∀ n < 16, hexValue (hexDigit n) = some n := by decide

theorem readHex_hexDigits (width n value : Nat) (rest : List Char) :
    readHex width value (hexDigits width n ++ rest) = some (value * 16 ^ width + n % 16 ^ width, rest) := by
  induction width generalizing value with
  | zero => simp [readHex, hexDigits, Nat.mod_one]
  | succ width ih =>
    have digit : n / 16 ^ width % 16 < 16 := Nat.mod_lt _ (by decide)
    simp only [hexDigits, List.cons_append, readHex, hexValue_hexDigit _ digit, Option.bind_some,
      ih]
    have split : n % 16 ^ (width + 1) = 16 ^ width * (n / 16 ^ width % 16) + n % 16 ^ width := by
      rw [pow_succ, Nat.mod_mul]
      omega
    rw [split]
    congr 2
    ring

theorem length_hexDigits (width n : Nat) : (hexDigits width n).length = width := by
  induction width with
  | zero => rfl
  | succ width ih => simp [hexDigits, ih]

theorem readHex_char {width : Nat} {c : Char} (fits : c.toNat < 16 ^ width) (rest : List Char) :
    (readHex width 0 (hexDigits width c.toNat ++ rest)).map (fun read => (Char.ofNat read.1, read.2)) =
      some (c, rest) := by
  simp [readHex_hexDigits, Nat.mod_eq_of_lt fits]

theorem unquoteChar_hex {marker : Char} {width : Nat} (known : escapeWidth marker = some width)
    {c : Char} (fits : c.toNat < 16 ^ width) (rest : List Char) :
    unquoteChar ('\\' :: marker :: (hexDigits width c.toNat ++ rest)) = some (c, rest) := by
  simp only [unquoteChar, known]
  exact readHex_char fits rest

variable (c : Char)

theorem toNat_lt : c.toNat < 16 ^ 8 := by
  rcases c.valid with low | ⟨_, high⟩
  · exact lt_trans low (by decide)
  · exact lt_trans high (by decide)

variable (rest : List Char)

theorem unquoteChar_hexEscape : unquoteChar (hexEscape c ++ rest) = some (c, rest) := by
  unfold hexEscape
  split
  · rw [List.cons_append]
    exact unquoteChar_hex (by decide) (by omega) rest
  · split
    · rw [List.cons_append]
      exact unquoteChar_hex (by decide) (by omega) rest
    · rw [List.cons_append]
      exact unquoteChar_hex (by decide) (toNat_lt c) rest

theorem escapeLetters_read : ∀ entry ∈ escapeLetters,
    escapeWidth entry.2 = none ∧ simpleEscape entry.2 = some entry.1 := by decide

theorem lookup_escapeLetters {c letter : Char} (found : escapeLetters.lookup c = some letter) :
    (c, letter) ∈ escapeLetters := by
  rw [List.lookup_eq_some_iff] at found
  obtain ⟨before, after, split, _⟩ := found
  rw [split]
  simp

variable [PrintTable]

theorem unquoteChar_quoteChar : unquoteChar (quoteChar c ++ rest) = some (c, rest) := by
  unfold quoteChar
  split
  · rename_i backslashed
    rcases backslashed with rfl | rfl <;> simp [unquoteChar, escapeWidth, simpleEscape]
  · rename_i plain
    rw [not_or] at plain
    split
    · rename_i printable
      have notNewline : c ≠ '\n' := by
        rintro rfl
        simp [PrintTable.isPrint_newline] at printable
      simp [unquoteChar, plain, notNewline]
    · split
      · rename_i letter found
        obtain ⟨noWidth, escaped⟩ := escapeLetters_read _ (lookup_escapeLetters found)
        simp [unquoteChar, noWidth, escaped]
      · exact unquoteChar_hexEscape c rest

theorem quoteChar_append_ne : quoteChar c ++ rest ≠ ['"'] := by
  intro closing
  have read := unquoteChar_quoteChar c rest
  rw [closing] at read
  simp [unquoteChar] at read

theorem unquoteBody_quoteBody (s : List Char) (fuel : Nat) (enough : s.length < fuel) :
    unquoteBody fuel (quoteBody s ++ ['"']) = some s := by
  induction s generalizing fuel with
  | nil =>
    obtain ⟨fuel, rfl⟩ := Nat.exists_eq_add_of_lt enough
    simp [unquoteBody, quoteBody]
  | cons c s ih =>
    cases fuel with
    | zero => simp at enough
    | succ fuel =>
      have tail := ih fuel (by simpa using enough)
      have split : quoteBody (c :: s) ++ ['"'] = quoteChar c ++ (quoteBody s ++ ['"']) := by
        simp [quoteBody]
      rw [split, unquoteBody, if_neg (quoteChar_append_ne c _), unquoteChar_quoteChar]
      simp [tail]

theorem length_le_quoteBody (s : List Char) : s.length ≤ (quoteBody s).length := by
  induction s with
  | nil => simp
  | cons c s ih =>
    have nonempty : quoteChar c ≠ [] := by
      intro empty
      have read := unquoteChar_quoteChar c []
      simp [empty, unquoteChar] at read
    have := List.length_pos_of_ne_nil nonempty
    simp only [quoteBody, List.flatMap_cons, List.length_append, List.length_cons] at ih ⊢
    omega

theorem unquote_quote (s : String) : unquote (quote s) = some s := by
  have length := length_le_quoteBody s.toList
  simp only [unquote, quote, String.toList_ofList]
  rw [unquoteBody_quoteBody _ _ (by simp; omega)]
  simp

end OtelFleet.Data
