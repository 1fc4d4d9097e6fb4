import Mathlib.Data.List.Basic

/-! # Case and white space of texts

The two functions of Go's `strings` package that normalise what a person types.
Nothing is assumed of them; `CaseMap.ascii` is what they do on ASCII texts.
-/

namespace OtelFleet.Data

structure CaseMap where
  toLower : String → String
  trimSpace : String → String

namespace CaseMap

def normalize (text : CaseMap) (value : String) : String := text.toLower (text.trimSpace value)

def EqualFold (text : CaseMap) (left right : String) : Prop := text.toLower left = text.toLower right

instance (text : CaseMap) (left right : String) : Decidable (text.EqualFold left right) :=
  inferInstanceAs (Decidable (_ = _))

def asciiLower (c : Char) : Char := if 'A' ≤ c ∧ c ≤ 'Z' then Char.ofNat (c.toNat + 32) else c

def ascii : CaseMap where
  toLower value := String.ofList (value.toList.map asciiLower)
  trimSpace value :=
    let left := value.toList.dropWhile Char.isWhitespace
    String.ofList (left.reverse.dropWhile Char.isWhitespace).reverse

end CaseMap

end OtelFleet.Data
