import TgFile.Go.Path

/-! # Base64

`encoding/base64`'s `RawURLEncoding`: three bytes in four characters, without padding. -/

namespace TgFile.Go.Base64

/-- The digits of `RawURLEncoding`. -/
def alphabet : Text := "ABCDEFGHIJKLMNOPQRSTUVWXYZabcdefghijklmnopqrstuvwxyz0123456789-_".toList

/-- The digit of a value. -/
def digit (value : Nat) : Char := alphabet.getD value 'A'

/-- The value of a digit. -/
def value (c : Char) : Option Nat :=
  if alphabet.idxOf c < 64 then some (alphabet.idxOf c) else none

/-- `EncodeToString`. -/
def encodeToString : List UInt8 → Text
  | [] => []
  | [a] =>
    let bits := a.toNat * 16
    [digit (bits / 64), digit (bits % 64)]
  | [a, b] =>
    let bits := (a.toNat * 256 + b.toNat) * 4
    [digit (bits / 4096), digit (bits / 64 % 64), digit (bits % 64)]
  | a :: b :: c :: rest =>
    let bits := (a.toNat * 256 + b.toNat) * 256 + c.toNat
    digit (bits / 262144) :: digit (bits / 4096 % 64) :: digit (bits / 64 % 64) ::
      digit (bits % 64) :: encodeToString rest

/-- The bytes of the values of characters.  A last group of one character is an error, and the
unused bits of a last group are not looked at. -/
def decodeValues : List Nat → Option (List UInt8)
  | [] => some []
  | [_] => none
  | [p, q] => some [.ofNat ((p * 64 + q) / 16)]
  | [p, q, r] =>
    let bits := (p * 64 + q) * 64 + r
    some [.ofNat (bits / 1024), .ofNat (bits / 4 % 256)]
  | p :: q :: r :: t :: rest => do
      let bits := ((p * 64 + q) * 64 + r) * 64 + t
      let more ← decodeValues rest
      some (.ofNat (bits / 65536) :: .ofNat (bits / 256 % 256) :: .ofNat (bits % 256) :: more)

/-- `DecodeString`, which skips line ends. -/
def decodeString (text : Text) : Option (List UInt8) :=
  ((text.filter fun c => c ≠ '\n' ∧ c ≠ '\r').mapM value).bind decodeValues

/-! ## Round trip -/

lemma value_digit {v : Nat} (small : v < 64) : value (digit v) = some v := by
  have all : ∀ v < 64, value (digit v) = some v := by decide +kernel
  exact all v small

lemma digit_plain {v : Nat} (small : v < 64) :
    digit v ≠ '\n' ∧ digit v ≠ '\r' ∧ (digit v).utf8Size = 1 := by
  have all : ∀ v < 64, digit v ≠ '\n' ∧ digit v ≠ '\r' ∧ (digit v).utf8Size = 1 := by
    decide +kernel
  exact all v small

/-- The values of the characters of an encoding. -/
def encodeValues : List UInt8 → List Nat
  | [] => []
  | [a] => [a.toNat * 16 / 64, a.toNat * 16 % 64]
  | [a, b] =>
    let bits := (a.toNat * 256 + b.toNat) * 4
    [bits / 4096, bits / 64 % 64, bits % 64]
  | a :: b :: c :: rest =>
    let bits := (a.toNat * 256 + b.toNat) * 256 + c.toNat
    bits / 262144 :: bits / 4096 % 64 :: bits / 64 % 64 :: bits % 64 :: encodeValues rest

lemma encodeToString_eq (raw : List UInt8) :
    encodeToString raw = (encodeValues raw).map digit := by
  fun_induction encodeValues raw with
  | case1 => rfl
  | case2 a => rfl
  | case3 a b bits => rfl
  | case4 a b c rest bits ih =>
    rw [encodeToString, ih]
    rfl

lemma encodeValues_lt (raw : List UInt8) : ∀ v ∈ encodeValues raw, v < 64 := by
  fun_induction encodeValues raw with
  | case1 => exact fun v member => nomatch member
  | case2 a =>
    have := a.toNat_lt
    simp only [List.mem_cons, List.not_mem_nil, or_false]
    omega
  | case3 a b bits =>
    have := a.toNat_lt
    have := b.toNat_lt
    simp only [List.mem_cons, List.not_mem_nil, or_false, bits]
    omega
  | case4 a b c rest bits ih =>
    have := a.toNat_lt
    have := b.toNat_lt
    have := c.toNat_lt
    simp only [List.mem_cons, bits]
    rintro v (rfl | rfl | rfl | rfl | member)
    · omega
    · omega
    · omega
    · omega
    · exact ih v member

lemma ofNat_eq {a : UInt8} {n : Nat} (same : n = a.toNat) : UInt8.ofNat n = a := by
  rw [same, UInt8.ofNat_toNat]

lemma decodeValues_encodeValues (raw : List UInt8) :
    decodeValues (encodeValues raw) = some raw := by
  fun_induction encodeValues raw with
  | case1 => rfl
  | case2 a =>
    have := a.toNat_lt
    rw [decodeValues, ofNat_eq (a := a) (by omega)]
  | case3 a b bits =>
    have := a.toNat_lt
    have := b.toNat_lt
    simp only [decodeValues, bits]
    rw [ofNat_eq (a := a) (by omega), ofNat_eq (a := b) (by omega)]
  | case4 a b c rest bits ih =>
    have := a.toNat_lt
    have := b.toNat_lt
    have := c.toNat_lt
    simp only [decodeValues, ih, bits]
    rw [ofNat_eq (a := a) (by omega), ofNat_eq (a := b) (by omega), ofNat_eq (a := c) (by omega)]
    rfl

/-- Reading back what was written item by item. -/
lemma mapM_map_of_inverse {α β : Type} {write : α → β} {read : β → Option α} {items : List α}
    (inverse : ∀ item ∈ items, read (write item) = some item) :
    (items.map write).mapM read = some items := by
  induction items with
  | nil => rfl
  | cons item items ih =>
    rw [List.map_cons, List.mapM_cons, inverse item List.mem_cons_self,
      ih fun other member => inverse other (List.mem_cons_of_mem _ member)]
    rfl

lemma decodeString_encodeToString (raw : List UInt8) :
    decodeString (encodeToString raw) = some raw := by
  have small := encodeValues_lt raw
  have kept : ((encodeValues raw).map digit).filter (fun c => c ≠ '\n' ∧ c ≠ '\r') =
      (encodeValues raw).map digit := by
    refine List.filter_eq_self.mpr fun c member => ?_
    obtain ⟨v, inside, rfl⟩ := List.mem_map.mp member
    have plain := digit_plain (small v inside)
    exact decide_eq_true ⟨plain.1, plain.2.1⟩
  rw [encodeToString_eq, decodeString, kept,
    mapM_map_of_inverse fun v inside => value_digit (small v inside)]
  exact decodeValues_encodeValues raw

/-! ## Length -/

lemma length_encodeToString (raw : List UInt8) :
    (encodeToString raw).length = (8 * raw.length + 5) / 6 := by
  fun_induction encodeToString raw with
  | case1 => rfl
  | case2 a bits => simp
  | case3 a b bits => simp
  | case4 a b c rest bits ih =>
    simp only [List.length_cons, ih]
    omega

/-- The characters take one byte each. -/
lemma byteLength_encodeToString (raw : List UInt8) :
    byteLength (encodeToString raw) = (8 * raw.length + 5) / 6 := by
  rw [← length_encodeToString, byteLength_of_ascii]
  intro c member
  rw [encodeToString_eq] at member
  obtain ⟨v, inside, rfl⟩ := List.mem_map.mp member
  exact (digit_plain (encodeValues_lt raw v inside)).2.2

end TgFile.Go.Base64
