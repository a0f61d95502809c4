import TgFile.Go.Path
import Mathlib.Data.List.Infix
import Mathlib.Data.List.TakeWhile

/-! # Text functions of SQLite

`LIKE` with its default ASCII case folding, and `substr` and `instr`, which count characters.  A
pattern that ends in `%` after an escaped text matches exactly the texts that start with it up to
ASCII case. -/

namespace TgFile.Sqlite

open Go

variable {text : Text}

/-- A piece of a `LIKE` pattern. -/
inductive LikeToken
  /-- `%` -/
  | any
  /-- `_` -/
  | one
  | lit (c : Char)
  deriving DecidableEq, Repr

/-- The pieces of a pattern, read after an escape character or not; a pattern that ends in its
escape character matches nothing. -/
def likeTokens (escape : Option Char) : Bool → Text → Option (List LikeToken)
  | escaped, [] => if escaped then none else some []
  | escaped, c :: rest =>
    if escaped then (likeTokens escape false rest).map (.lit c :: ·)
    else if c = '%' then (likeTokens escape false rest).map (.any :: ·)
    else if escape = some c then likeTokens escape true rest
    else if c = '_' then (likeTokens escape false rest).map (.one :: ·)
    else (likeTokens escape false rest).map (.lit c :: ·)

/-- The texts a list of pieces matches. -/
def likeMatches : List LikeToken → Text → Bool
  | [], s => s = []
  | .any :: tokens, s => s.tails.any fun t => likeMatches tokens t
  | .one :: tokens, s =>
    match s with
    | [] => false
    | _ :: s => likeMatches tokens s
  | .lit a :: tokens, s =>
    match s with
    | [] => false
    | c :: s => a.toLower = c.toLower && likeMatches tokens s

/-- `text LIKE pattern ESCAPE escape`. -/
def like (escape : Option Char) (pattern text : Text) : Bool :=
  match likeTokens escape false pattern with
  | none => false
  | some tokens => likeMatches tokens text

variable (text)

/-- `substr(text, start)` for a positive start. -/
def substr (start : Nat) : Text := text.drop (start - 1)

/-- Put the escape character before every special character. -/
def escapeLike : Text :=
  text.flatMap fun c => if c = '\\' ∨ c = '%' ∨ c = '_' then ['\\', c] else [c]

/-- ASCII case folding. -/
def foldCase : Text := text.map Char.toLower

lemma likeTokens_escapeLike (rest : Text) :
    likeTokens (some '\\') false (escapeLike text ++ rest) =
      (likeTokens (some '\\') false rest).map (text.map LikeToken.lit ++ ·) := by
  induction text with
  | nil => simp [escapeLike]
  | cons c text ih =>
    have unfolded : escapeLike (c :: text) ++ rest =
        (if c = '\\' ∨ c = '%' ∨ c = '_' then ['\\', c] else [c]) ++ (escapeLike text ++ rest) := by
      simp [escapeLike]
    rw [unfolded]
    split_ifs with special
    · have escaped : likeTokens (some '\\') false (['\\', c] ++ (escapeLike text ++ rest)) =
          (likeTokens (some '\\') false (escapeLike text ++ rest)).map (.lit c :: ·) := rfl
      rw [escaped, ih, Option.map_map]
      rfl
    · obtain ⟨notEscape, notAny, notOne⟩ : c ≠ '\\' ∧ c ≠ '%' ∧ c ≠ '_' := by
        simpa [not_or] using special
      have other : ¬(some '\\' : Option Char) = some c := fun same =>
        notEscape (Option.some.inj same).symm
      have plain : likeTokens (some '\\') false ([c] ++ (escapeLike text ++ rest)) =
          (likeTokens (some '\\') false (escapeLike text ++ rest)).map (.lit c :: ·) := by
        simp only [List.cons_append, List.nil_append, likeTokens, notAny, other, notOne,
          Bool.false_eq_true, if_false]
      rw [plain, ih, Option.map_map]
      rfl

lemma likeMatches_any_only : likeMatches [.any] text = true := by
  simp only [likeMatches, List.any_eq_true, List.mem_tails]
  exact ⟨[], List.nil_suffix, by simp⟩

lemma likeMatches_lits_any (start text : Text) :
    likeMatches (start.map LikeToken.lit ++ [.any]) text = true ↔
      foldCase start <+: foldCase text := by
  induction start generalizing text with
  | nil => exact ⟨fun _ => List.nil_prefix, fun _ => likeMatches_any_only text⟩
  | cons a start ih =>
    cases text with
    | nil => simp [likeMatches, foldCase]
    | cons c text =>
      simp only [List.map_cons, List.cons_append, likeMatches, Bool.and_eq_true,
        decide_eq_true_eq, ih, foldCase, List.cons_prefix_cons]

/-- **An escaped text followed by `%` matches the texts it starts, up to ASCII case.** -/
lemma like_escapeLike_any (start text : Text) :
    like (some '\\') (escapeLike start ++ ['%']) text = true ↔
      foldCase start <+: foldCase text := by
  have tokens : likeTokens (some '\\') false (escapeLike start ++ ['%']) =
      some (start.map LikeToken.lit ++ [.any]) := by
    rw [likeTokens_escapeLike]
    rfl
  rw [like, tokens]
  exact likeMatches_lits_any start text

/-- Every piece of an unescaped pattern matches the characters the pattern was written with. -/
lemma like_any_of_prefix (start rest : Text) :
    like none (start ++ ['%']) (start ++ rest) = true := by
  have tokens : ∃ pieces, likeTokens none false (start ++ ['%']) = some pieces ∧
      likeMatches pieces (start ++ rest) = true := by
    induction start with
    | nil => exact ⟨[.any], rfl, likeMatches_any_only rest⟩
    | cons c start ih =>
      obtain ⟨pieces, parsed, matched⟩ := ih
      by_cases any : c = '%'
      · refine ⟨.any :: pieces, by simp [likeTokens, any, parsed], ?_⟩
        simp only [likeMatches, List.any_eq_true, List.mem_tails]
        exact ⟨start ++ rest, List.suffix_cons c _, matched⟩
      · by_cases one : c = '_'
        · exact ⟨.one :: pieces, by simp [likeTokens, one, parsed], by
            simpa [likeMatches] using matched⟩
        · exact ⟨.lit c :: pieces, by simp [likeTokens, any, one, parsed], by
            simpa [likeMatches] using matched⟩
  obtain ⟨pieces, parsed, matched⟩ := tokens
  rw [like, parsed]
  exact matched

/-- A text is not matched by a longer one that ends in a literal. -/
lemma likeMatches_nil (tokens : List LikeToken) (c : Char) (rest : List LikeToken) :
    likeMatches (tokens ++ .lit c :: rest) [] = false := by
  induction tokens with
  | nil => rfl
  | cons token tokens ih =>
    cases token with
    | any => simp [likeMatches, ih]
    | one => rfl
    | lit a => rfl

lemma likeTokens_none : ∃ tokens, ∀ rest, likeTokens none false (text ++ rest) =
    (likeTokens none false rest).map (tokens ++ ·) := by
  induction text with
  | nil => exact ⟨[], fun rest => by simp⟩
  | cons c text ih =>
    obtain ⟨tokens, extended⟩ := ih
    have unfolded : ∀ text, likeTokens none false (c :: text) = (likeTokens none false text).map
        ((if c = '%' then .any else if c = '_' then .one else .lit c) :: ·) := by
      intro text
      simp only [likeTokens, Bool.false_eq_true, if_false, reduceCtorEq]
      split_ifs <;> rfl
    refine ⟨(if c = '%' then .any else if c = '_' then .one else .lit c) :: tokens, fun rest => ?_⟩
    rw [List.cons_append, unfolded, extended, Option.map_map]
    rfl

/-- A pattern with two separators does not match the root. -/
lemma like_slash : like none ('/' :: text ++ ['/', '%']) ['/'] = false := by
  obtain ⟨tokens, extended⟩ := likeTokens_none text
  have parsed : likeTokens none false ('/' :: text ++ ['/', '%']) =
      some (.lit '/' :: (tokens ++ [.lit '/', .any])) := by
    rw [List.cons_append, show likeTokens none false ('/' :: (text ++ ['/', '%'])) =
      (likeTokens none false (text ++ ['/', '%'])).map (.lit '/' :: ·) from rfl, extended]
    rfl
  rw [like, parsed]
  simp only [likeMatches, likeMatches_nil, Bool.and_false]

variable {text}

lemma toLower_slash {c : Char} (same : c.toLower = '/') : c = '/' := by
  unfold Char.toLower at same
  split_ifs at same with upper
  · have low : 65 ≤ c.val.toNat ∧ c.val.toNat ≤ 90 :=
      ⟨UInt32.le_iff_toNat_le.mp upper.1, UInt32.le_iff_toNat_le.mp upper.2⟩
    have value : (c.val + 32).toNat = 47 := congrArg (fun c : Char => c.val.toNat) same
    rw [UInt32.toNat_add, show (32 : UInt32).toNat = 32 from rfl] at value
    omega
  · exact same

lemma foldCase_isPrefix {start : Text} (front : start <+: text) :
    foldCase start <+: foldCase text := by
  obtain ⟨rest, rfl⟩ := front
  exact ⟨foldCase rest, by simp [foldCase]⟩

/-! ## Texts with NUL -/

/-- The character that ends a C string. -/
def nul : Char := Char.ofNat 0

variable (text)

/-- The text before its first NUL, where `LIKE`, `length` and `substr` stop. -/
def cText : Text := text.takeWhile fun c => c ≠ nul

/-- `length(text)`. -/
def textLength : Nat := (cText text).length

/-- `substr(text, start)` for a positive start. -/
def substrFrom (start : Nat) : Text := substr (cText text) start

/-- `substr(text, 1, count)`. -/
def substrFront (count : Nat) : Text := (cText text).take count

/-- `instr(text, c)`: the position of the first occurrence, 0 for none. -/
def instr (c : Char) : Nat := if c ∈ text then text.idxOf c + 1 else 0

variable {text}

/-- `SQLITE_MAX_LIKE_PATTERN_LENGTH`; a longer pattern is an error. -/
def maxLikePatternLength : Nat := 50000

/-- `text LIKE pattern ESCAPE escape` up to NUL. -/
def likeText (escape : Option Char) (pattern text : Text) : Bool :=
  like escape (cText pattern) (cText text)

lemma likeMatches_lits (start text : Text) :
    likeMatches (start.map LikeToken.lit) text = true ↔ foldCase start = foldCase text := by
  induction start generalizing text with
  | nil =>
    cases text with
    | nil => simp [likeMatches, foldCase]
    | cons c text => simp [likeMatches, foldCase]
  | cons a start ih =>
    cases text with
    | nil => simp [likeMatches, foldCase]
    | cons c text =>
      simp only [List.map_cons, likeMatches, Bool.and_eq_true, decide_eq_true_eq, ih, foldCase,
        List.cons.injEq]

/-- An escaped text alone matches itself, up to ASCII case. -/
lemma like_escapeLike (start text : Text) :
    like (some '\\') (escapeLike start) text = true ↔ foldCase start = foldCase text := by
  have tokens := likeTokens_escapeLike start []
  rw [List.append_nil] at tokens
  rw [like, tokens]
  simpa [likeTokens] using likeMatches_lits start text

lemma cText_eq (plain : nul ∉ text) : cText text = text := by
  refine List.takeWhile_eq_self_iff.mpr fun c member => ?_
  simp only [ne_eq, decide_eq_true_eq]
  rintro rfl
  exact plain member

lemma nul_notMem_cText (text : Text) : nul ∉ cText text := by
  intro member
  have test := List.mem_takeWhile_imp member
  simp at test

lemma cText_append {front : Text} (plain : nul ∉ front) (rest : Text) :
    cText (front ++ rest) = front ++ cText rest := by
  refine List.takeWhile_append_of_pos fun c member => ?_
  simp only [ne_eq, decide_eq_true_eq]
  rintro rfl
  exact plain member

lemma cText_nul (rest : Text) : cText (nul :: rest) = [] := by
  simp [cText]

lemma cText_append_of_mem {front : Text} (cut : nul ∈ front) (rest : Text) :
    cText (front ++ rest) = cText front := by
  obtain ⟨before, after, rfl, first⟩ := List.eq_append_cons_of_mem cut
  rw [List.append_assoc, List.cons_append, cText_append first, cText_append first, cText_nul,
    cText_nul]

lemma nul_mem_escapeLike : nul ∈ escapeLike text ↔ nul ∈ text := by
  simp only [escapeLike, List.mem_flatMap]
  constructor
  · rintro ⟨c, member, inside⟩
    split_ifs at inside with special
    · rcases List.mem_cons.mp inside with same | same
      · exact absurd same (by decide)
      · rwa [List.mem_singleton.mp same]
    · rwa [List.mem_singleton.mp inside]
  · intro member
    exact ⟨nul, member, by decide⟩

/-- A pattern that is cut at a NUL loses its `%`. -/
lemma cText_escapeLike_any (text : Text) :
    cText (escapeLike text ++ ['%']) =
      if nul ∈ text then escapeLike (cText text) else escapeLike text ++ ['%'] := by
  split_ifs with cut
  · obtain ⟨front, rest, rfl, first⟩ := List.eq_append_cons_of_mem cut
    have split : escapeLike (front ++ nul :: rest) =
      escapeLike front ++ nul :: escapeLike rest := by
      rw [escapeLike, List.flatMap_append, List.flatMap_cons]
      rfl
    have plain : nul ∉ escapeLike front := fun member => first (nul_mem_escapeLike.mp member)
    rw [split, List.append_assoc, List.cons_append, cText_append plain, cText_append first,
      cText_nul, cText_nul, List.append_nil, List.append_nil]
  · refine cText_eq fun member => ?_
    rcases List.mem_append.mp member with inText | inAny
    · exact cut (nul_mem_escapeLike.mp inText)
    · exact absurd (List.mem_singleton.mp inAny) (by decide)

/-- An escaped text followed by `%` accepts what starts with the text. -/
lemma likeText_of_isPrefix {start : Text} (front : start <+: text) :
    likeText (some '\\') (escapeLike start ++ ['%']) text = true := by
  obtain ⟨rest, rfl⟩ := front
  rw [likeText, cText_escapeLike_any]
  split_ifs with cut
  · rw [cText_append_of_mem cut]
    exact (like_escapeLike _ _).mpr rfl
  · rw [cText_append cut]
    exact (like_escapeLike_any _ _).mpr (foldCase_isPrefix (List.prefix_append _ _))

end TgFile.Sqlite
