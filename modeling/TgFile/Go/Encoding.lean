import TgFile.Go.Base64
import TgFile.Go.Json

/-! # Digests as text

`encoding/hex`, and the padded `StdEncoding` of `encoding/base64`. -/

namespace TgFile.Go

namespace Hex

/-- `EncodeToString`: two digits for each byte. -/
def encodeToString (raw : List UInt8) : Text :=
  raw.flatMap fun b => [Json.hexDigit (b.toNat / 16), Json.hexDigit (b.toNat % 16)]

/-- `DecodeString`, which takes letters of either case. -/
def decodeString : Text → Option (List UInt8)
  | [] => some []
  | [_] => none
  | p :: q :: rest => do
      let high ← Json.hexValue p.toLower
      let low ← Json.hexValue q.toLower
      let more ← decodeString rest
      some (.ofNat (high * 16 + low) :: more)

lemma hexValue_toLower_hexDigit {v : Nat} (small : v < 16) :
    Json.hexValue (Json.hexDigit v).toLower = some v := by
  have all : ∀ v < 16, Json.hexValue (Json.hexDigit v).toLower = some v := by decide +kernel
  exact all v small

lemma decodeString_encodeToString (raw : List UInt8) :
    decodeString (encodeToString raw) = some raw := by
  induction raw with
  | nil => rfl
  | cons b raw ih =>
    have := b.toNat_lt
    have whole : b.toNat / 16 * 16 + b.toNat % 16 = b.toNat := Nat.div_add_mod' _ _
    have split : encodeToString (b :: raw) =
        Json.hexDigit (b.toNat / 16) :: Json.hexDigit (b.toNat % 16) :: encodeToString raw := rfl
    rw [split, decodeString, hexValue_toLower_hexDigit (show b.toNat / 16 < 16 by omega),
      hexValue_toLower_hexDigit (show b.toNat % 16 < 16 by omega), ih]
    simp only [Option.bind_eq_bind, Option.bind_some]
    rw [Base64.ofNat_eq whole]

end Hex

namespace Base64

/-- The digits of `StdEncoding`. -/
def stdAlphabet : Text := "ABCDEFGHIJKLMNOPQRSTUVWXYZabcdefghijklmnopqrstuvwxyz0123456789+/".toList

/-- The digit of a value. -/
def stdDigit (value : Nat) : Char := stdAlphabet.getD value 'A'

/-- The value of a digit. -/
def stdValue (c : Char) : Option Nat :=
  if stdAlphabet.idxOf c < 64 then some (stdAlphabet.idxOf c) else none

/-- The number of padding characters after bytes. -/
def padding (raw : List UInt8) : Nat := (3 - raw.length % 3) % 3

/-- `StdEncoding.EncodeToString`. -/
def encodeStd (raw : List UInt8) : Text :=
  (encodeValues raw).map stdDigit ++ List.replicate (padding raw) '='

/-- A text without up to two padding characters at its end. -/
def unpad (text : Text) : Text :=
  if text.drop (text.length - 2) = ['=', '='] then text.take (text.length - 2)
  else if text.drop (text.length - 1) = ['='] then text.take (text.length - 1)
  else text

/-- `StdEncoding.DecodeString`: whole groups of four, padding only at the end, line ends skipped. -/
def decodeStd (text : Text) : Option (List UInt8) :=
  let text := text.filter fun c => c ≠ '\n' ∧ c ≠ '\r'
  if text.length % 4 ≠ 0 then none else ((unpad text).mapM stdValue).bind decodeValues

lemma stdValue_stdDigit {v : Nat} (small : v < 64) : stdValue (stdDigit v) = some v := by
  have all : ∀ v < 64, stdValue (stdDigit v) = some v := by decide +kernel
  exact all v small

lemma stdDigit_plain {v : Nat} (small : v < 64) :
    stdDigit v ≠ '\n' ∧ stdDigit v ≠ '\r' ∧ stdDigit v ≠ '=' ∧ stdDigit v ≠ '-' := by
  have all : ∀ v < 64, stdDigit v ≠ '\n' ∧ stdDigit v ≠ '\r' ∧ stdDigit v ≠ '=' ∧
      stdDigit v ≠ '-' := by decide +kernel
  exact all v small

lemma encodeValues_length (raw : List UInt8) :
    ((encodeValues raw).length + padding raw) % 4 = 0 ∧ (encodeValues raw).length % 4 ≠ 1 := by
  fun_induction encodeValues raw with
  | case1 => decide
  | case2 a => simp [padding]
  | case3 a b bits => simp [padding]
  | case4 a b c rest bits ih =>
    simp only [padding, List.length_cons] at ih ⊢
    omega

lemma mem_encodeStd {raw : List UInt8} {c : Char} (member : c ∈ encodeStd raw) :
    c ≠ '\n' ∧ c ≠ '\r' ∧ c ≠ '-' := by
  rcases List.mem_append.mp member with digit | pad
  · obtain ⟨v, inside, rfl⟩ := List.mem_map.mp digit
    have plain := stdDigit_plain (encodeValues_lt raw v inside)
    exact ⟨plain.1, plain.2.1, plain.2.2.2⟩
  · obtain rfl := List.eq_of_mem_replicate pad
    decide

/-- Padding is taken off a text that does not end with it. -/
lemma unpad_append {text : Text} (plain : '=' ∉ text) {count : Nat} (few : count ≤ 2) :
    unpad (text ++ List.replicate count '=') = text := by
  have last : ∀ n, '=' ∉ text.drop n := fun n member => plain (List.mem_of_mem_drop member)
  rcases (by omega : count = 0 ∨ count = 1 ∨ count = 2) with rfl | rfl | rfl
  · rw [List.replicate_zero, List.append_nil, unpad, if_neg, if_neg]
    · exact fun same => last _ (same ▸ List.mem_cons_self)
    · exact fun same => last _ (same ▸ List.mem_cons_self)
  · have drop : (text ++ ['=']).drop (text.length + 1 - 1) = ['='] := by simp
    have take : (text ++ ['=']).take (text.length + 1 - 1) = text := by simp
    have two : (text ++ ['=']).drop (text.length + 1 - 2) ≠ ['=', '='] := by
      intro same
      rw [List.drop_append_of_le_length (by omega)] at same
      have front : text.drop (text.length + 1 - 2) = ['='] := by
        exact List.append_cancel_right (same.trans rfl : _ = ['='] ++ ['='])
      exact last _ (front ▸ List.mem_cons_self)
    rw [List.replicate_one, unpad, List.length_append, List.length_singleton, if_neg two,
      if_pos drop, take]
  · have drop : (text ++ ['=', '=']).drop (text.length + 2 - 2) = ['=', '='] := by simp
    have take : (text ++ ['=', '=']).take (text.length + 2 - 2) = text := by simp
    rw [show List.replicate 2 '=' = ['=', '='] from rfl, unpad, List.length_append,
      show ['=', '='].length = 2 from rfl, if_pos drop, take]

lemma decodeStd_encodeStd (raw : List UInt8) : decodeStd (encodeStd raw) = some raw := by
  have small := encodeValues_lt raw
  have kept : (encodeStd raw).filter (fun c => c ≠ '\n' ∧ c ≠ '\r') = encodeStd raw :=
    List.filter_eq_self.mpr fun c member =>
      decide_eq_true ⟨(mem_encodeStd member).1, (mem_encodeStd member).2.1⟩
  have whole : (encodeStd raw).length % 4 = 0 := by
    rw [encodeStd, List.length_append, List.length_map, List.length_replicate]
    exact (encodeValues_length raw).1
  have plain : '=' ∉ (encodeValues raw).map stdDigit := by
    intro member
    obtain ⟨v, inside, same⟩ := List.mem_map.mp member
    exact (stdDigit_plain (small v inside)).2.2.1 same
  simp only [decodeStd, kept]
  rw [if_neg (by simpa using whole), encodeStd, unpad_append plain (by rw [padding]; omega),
    mapM_map_of_inverse fun v inside => stdValue_stdDigit (small v inside)]
  exact decodeValues_encodeValues raw

end Base64

end TgFile.Go
