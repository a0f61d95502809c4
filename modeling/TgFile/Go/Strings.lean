import TgFile.Go.Path

/-! # Text functions of the Go standard library -/

namespace TgFile.Go

/-- `strconv.FormatUint` in base ten. -/
def decimal (n : Nat) : Text := Nat.toDigits 10 n

/-- `strconv.FormatInt` in base ten. -/
def decimalInt : Int → Text
  | .ofNat n => decimal n
  | .negSucc n => '-' :: decimal (n + 1)

/-- The text without the characters of a kind at its ends. -/
def trim (kind : Char → Bool) (s : Text) : Text :=
  ((s.dropWhile kind).reverse.dropWhile kind).reverse

/-- `unicode.IsSpace`. -/
def isSpace (c : Char) : Bool :=
  c.toNat ∈ [9, 10, 11, 12, 13, 32, 0x85, 0xa0, 0x1680, 0x2028, 0x2029, 0x202f, 0x205f, 0x3000] ∨
    0x2000 ≤ c.toNat ∧ c.toNat ≤ 0x200a

/-- `strings.TrimSpace`. -/
def trimSpace : Text → Text := trim isSpace

/-- `textproto.TrimString`: space, tab, carriage return and line feed. -/
def trimString : Text → Text := trim Char.isWhitespace

/-- `strings.TrimPrefix`. -/
def trimFront (s front : Text) : Text := if front <+: s then s.drop front.length else s

/-- The text from the last dot on, or nothing: the extension the media type table is asked for. -/
def extension (s : Text) : Text :=
  if '.' ∈ s then '.' :: (s.reverse.takeWhile (· ≠ '.')).reverse else []

/-- `time.UnixMilli(m).Truncate(time.Second)`, in milliseconds. -/
def truncateSecond (m : Int) : Int := m - m % 1000

lemma decimal_inj {m n : Nat} (same : decimal m = decimal n) : m = n := by
  have value : ∀ k, Nat.ofDigitChars 10 (decimal k) 0 = k := fun _ => Nat.ofDigitChars_ten_toDigits
  rw [← value m, same, value n]

lemma notMem_decimal {n : Nat} {c : Char} (noDigit : c.isDigit = false) : c ∉ decimal n := by
  intro member
  rw [Nat.isDigit_of_mem_toDigits (by decide) (by decide) member] at noDigit
  cases noDigit

/-- A text is determined up to the first separator. -/
lemma append_separator_inj {a b rest rest' : Text} {separator : Char} (inA : separator ∉ a)
    (inB : separator ∉ b) (same : a ++ separator :: rest = b ++ separator :: rest') :
    a = b ∧ rest = rest' := by
  induction a generalizing b with
  | nil =>
    cases b with
    | nil => exact ⟨rfl, (List.cons.inj same).2⟩
    | cons c b => exact absurd ((List.cons.inj same).1 ▸ List.mem_cons_self) inB
  | cons c a ih =>
    cases b with
    | nil => exact absurd ((List.cons.inj same).1 ▸ List.mem_cons_self) inA
    | cons c' b =>
      obtain ⟨rfl, tails⟩ := List.cons.inj same
      obtain ⟨rfl, rests⟩ := ih (fun member => inA (List.mem_cons_of_mem _ member))
        (fun member => inB (List.mem_cons_of_mem _ member)) tails
      exact ⟨rfl, rests⟩

end TgFile.Go
