import TgFile.Go.Strings

/-! # Query strings

The values of a request's query, `url.Values`, and the numbers in them. -/

namespace TgFile.Go

/-- The UTF-8 encoding of a text. -/
def utf8 (text : Text) : List UInt8 := text.flatMap String.utf8EncodeChar

lemma length_utf8 (text : Text) : (utf8 text).length = byteLength text := by
  rw [utf8, List.length_flatMap, byteLength]
  simp only [String.length_utf8EncodeChar]

/-- The text that bytes encode. -/
def decodeUTF8 (raw : List UInt8) : Option Text := raw.toByteArray.utf8Decode?.map Array.toList

lemma decodeUTF8_utf8 (text : Text) : decodeUTF8 (utf8 text) = some text := by
  have decoded : (utf8 text).toByteArray.utf8Decode? = some text.toArray :=
    List.utf8Decode?_utf8Encode
  rw [decodeUTF8, decoded, Option.map_some]

/-- A string that a client sent: a text, or bytes that are not UTF-8. -/
inductive GoString
  | text (text : Text)
  | malformed (raw : List UInt8) (invalid : decodeUTF8 raw = none)
  deriving DecidableEq

/-- `url.Values`: the parameters by name, each with its values. -/
abbrev Values := List (Text × List GoString)

namespace Values

/-- The values of a parameter. -/
def all (query : Values) (name : Text) : List GoString := (query.lookup name).getD []

/-- `Get`: the first value, or the empty string. -/
def get (query : Values) (name : Text) : GoString := (query.all name).headD (.text [])

end Values

/-- `strconv.Atoi`.  A number that does not fit an `int` is an error there and stays large here. -/
def atoi : GoString → Option Int
  | .malformed _ _ => none
  | .text ('-' :: digits) => (digitsValue digits).map fun n => -(n : Int)
  | .text ('+' :: digits) => (digitsValue digits).map fun n => (n : Int)
  | .text digits => (digitsValue digits).map fun n => (n : Int)
where
  /-- One or more digits. -/
  digitsValue (digits : Text) : Option Nat :=
    if digits ≠ [] ∧ digits.all Char.isDigit then some (Nat.ofDigitChars 10 digits 0) else none

lemma atoi_decimal (n : Nat) : atoi (.text (decimal n)) = some (n : Int) := by
  have digit : ∀ c ∈ decimal n, c.isDigit = true := fun c member =>
    Nat.isDigit_of_mem_toDigits (by decide) (by decide) member
  have digits : atoi.digitsValue (decimal n) = some n := by
    rw [atoi.digitsValue, if_pos ⟨Nat.toDigits_ne_nil, List.all_eq_true.mpr digit⟩, decimal,
      Nat.ofDigitChars_ten_toDigits]
  have sign : ∀ c, c.isDigit = false → ∀ rest, decimal n ≠ c :: rest := by
    intro c notDigit rest same
    have isDigit := digit c (same ▸ List.mem_cons_self)
    rw [notDigit] at isDigit
    cases isDigit
  rw [atoi.eq_4, digits]
  · rfl
  · exact fun rest same => sign '-' rfl rest same
  · exact fun rest same => sign '+' rfl rest same

end TgFile.Go
