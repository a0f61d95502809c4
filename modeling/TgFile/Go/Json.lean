import TgFile.Go.Path

/-! # JSON strings

The string literals that `encoding/json`'s `Marshal` writes, with its escapes for HTML, and the
reading of such literals. -/

namespace TgFile.Go.Json

/-- A hexadecimal digit. -/
def hexDigit (value : Nat) : Char := "0123456789abcdef".toList.getD value '0'

/-- The value of a hexadecimal digit. -/
def hexValue (c : Char) : Option Nat :=
  if "0123456789abcdef".toList.idxOf c < 16 then some ("0123456789abcdef".toList.idxOf c) else none

/-- The letter of a two-character escape. -/
def escapeLetter (c : Char) : Option Char :=
  if c = '"' ∨ c = '\\' then some c
  else if c.toNat = 8 then some 'b'
  else if c.toNat = 12 then some 'f'
  else if c = '\n' then some 'n'
  else if c = '\r' then some 'r'
  else if c = '\t' then some 't'
  else none

/-- The characters written as `\uXXXX`: other control characters, those with a meaning in HTML, and
the line separators of JavaScript. -/
def EscapedByCode (c : Char) : Prop :=
  c.toNat < 32 ∨ c = '<' ∨ c = '>' ∨ c = '&' ∨ c.toNat = 8232 ∨ c.toNat = 8233

instance (c : Char) : Decidable (EscapedByCode c) := inferInstanceAs (Decidable (_ ∨ _))

/-- The escape `\uXXXX`. -/
def escapeCode (code : Nat) : Text :=
  ['\\', 'u', hexDigit (code / 4096), hexDigit (code / 256 % 16), hexDigit (code / 16 % 16),
    hexDigit (code % 16)]

/-- A character in a literal. -/
def quoteChar (c : Char) : Text :=
  match escapeLetter c with
  | some letter => ['\\', letter]
  | none => if EscapedByCode c then escapeCode c.toNat else [c]

/-- A string literal. -/
def quote (text : Text) : Text := '"' :: text.flatMap quoteChar ++ ['"']

/-- The character of a two-character escape. -/
def unescapeLetter (letter : Char) : Option Char :=
  if letter = '"' ∨ letter = '\\' ∨ letter = '/' then some letter
  else if letter = 'b' then some (Char.ofNat 8)
  else if letter = 'f' then some (Char.ofNat 12)
  else if letter = 'n' then some '\n'
  else if letter = 'r' then some '\r'
  else if letter = 't' then some '\t'
  else none

/-- The rest of a string literal after its opening quote, and the text after it. -/
def readString : Text → Option (Text × Text)
  | '"' :: rest => some ([], rest)
  | '\\' :: 'u' :: p :: q :: r :: t :: rest => do
      let code := (((← hexValue p) * 16 + (← hexValue q)) * 16 + (← hexValue r)) * 16 +
        (← hexValue t)
      let (text, after) ← readString rest
      some (Char.ofNat code :: text, after)
  | '\\' :: letter :: rest => do
      let c ← unescapeLetter letter
      let (text, after) ← readString rest
      some (c :: text, after)
  | c :: rest => do
      let (text, after) ← readString rest
      some (c :: text, after)
  | [] => none

lemma hexValue_hexDigit {v : Nat} (small : v < 16) : hexValue (hexDigit v) = some v := by
  have all : ∀ v < 16, hexValue (hexDigit v) = some v := by decide +kernel
  exact all v small

lemma unescapeLetter_of_escapeLetter {c letter : Char} (escaped : escapeLetter c = some letter) :
    unescapeLetter letter = some c ∧ letter ≠ 'u' := by
  have back : ∀ code, c.toNat = code → Char.ofNat code = c := by
    rintro _ rfl
    exact Char.ofNat_toNat c
  simp only [escapeLetter] at escaped
  split_ifs at escaped with quoted b f n r t
  · obtain rfl := Option.some.inj escaped
    rcases quoted with rfl | rfl
    · decide
    · decide
  · obtain rfl := Option.some.inj escaped
    rw [← back 8 b]
    decide
  · obtain rfl := Option.some.inj escaped
    rw [← back 12 f]
    decide
  · obtain rfl := Option.some.inj escaped
    rw [n]
    decide
  · obtain rfl := Option.some.inj escaped
    rw [r]
    decide
  · obtain rfl := Option.some.inj escaped
    rw [t]
    decide

lemma toNat_of_escapedByCode {c : Char} (escaped : EscapedByCode c) : c.toNat < 65536 := by
  rcases escaped with low | rfl | rfl | rfl | same | same
  · omega
  · decide
  · decide
  · decide
  · omega
  · omega

lemma readString_quoteChar (c : Char) (rest : Text) :
    readString (quoteChar c ++ rest) =
      (readString rest).map fun (text, after) => (c :: text, after) := by
  unfold quoteChar
  cases letter : escapeLetter c with
  | some l =>
    obtain ⟨back, notU⟩ := unescapeLetter_of_escapeLetter letter
    rw [List.cons_append, List.cons_append, List.nil_append, readString.eq_3]
    · rw [back]
      cases readString rest with
      | none => rfl
      | some read => rfl
    · intro p q r t more same
      exact absurd same notU
  | none =>
    simp only
    split_ifs with escaped
    · have small := toNat_of_escapedByCode escaped
      have code : (((c.toNat / 4096 * 16 + c.toNat / 256 % 16) * 16 + c.toNat / 16 % 16) * 16 +
          c.toNat % 16) = c.toNat := by omega
      simp only [escapeCode, List.cons_append, List.nil_append, readString,
        hexValue_hexDigit (show c.toNat / 4096 < 16 by omega),
        hexValue_hexDigit (show c.toNat / 256 % 16 < 16 by omega),
        hexValue_hexDigit (show c.toNat / 16 % 16 < 16 by omega),
        hexValue_hexDigit (show c.toNat % 16 < 16 by omega), Option.bind_eq_bind,
        Option.bind_some, code, Char.ofNat_toNat]
      cases readString rest with
      | none => rfl
      | some read => rfl
    · have notQuote : c ≠ '"' := by
        rintro rfl
        cases letter
      have notSlash : c ≠ '\\' := by
        rintro rfl
        cases letter
      rw [List.cons_append, List.nil_append, readString.eq_4 c rest notQuote
        (fun p q r t more same => absurd same notSlash) fun l more same => absurd same notSlash]
      cases readString rest with
      | none => rfl
      | some read => rfl

lemma readString_quote (text rest : Text) :
    readString (text.flatMap quoteChar ++ '"' :: rest) = some (text, rest) := by
  induction text with
  | nil => rfl
  | cons c text ih =>
    rw [List.flatMap_cons, List.append_assoc, readString_quoteChar, ih]
    rfl

end TgFile.Go.Json
