import Mathlib.Algebra.Ring.Nat
import Mathlib.Data.List.Basic

/-! # Readers

`io.Reader` as a state together with what one `Read` does to it, the readers of the standard
library that wrap another reader, and reading a reader to its end with buffers of any sizes. -/

namespace TgFile.Go

/-- A byte. -/
abbrev Byte := UInt8

/-- The error that ends a reader. -/
inductive ReadEnd
  | eof
  | failed
  deriving DecidableEq, Repr

/-- What one `Read` returns, and the reader afterwards. -/
structure Got (σ : Type) where
  data : List Byte
  err : Option ReadEnd
  next : σ

/-- `Read` with a buffer of the given size. -/
abbrev ReadFn (σ : Type) := σ → Nat → Got σ

/-- A reader that returns its pieces one after another, each as far as the buffer goes, and then
its end; or the end together with the last bytes. -/
structure Reader where
  pieces : List (List Byte)
  ending : ReadEnd
  together : Bool
  deriving DecidableEq, Repr

namespace Reader

/-- All the bytes that are still to come. -/
def content (r : Reader) : List Byte := r.pieces.flatten

/-- `Read`: at most one piece with each call. -/
def read : ReadFn Reader := fun r size =>
  match r.pieces with
  | [] => ⟨[], some r.ending, r⟩
  | piece :: rest =>
    let left := if piece.length ≤ size then rest else piece.drop size :: rest
    ⟨piece.take size, if r.together ∧ left = [] then some r.ending else none,
      { r with pieces := left }⟩

/-- The reader of a byte slice. -/
def ofBytes (bytes : List Byte) : Reader := ⟨[bytes], .eof, false⟩

/-- The number of reads that empty the reader, at most. -/
def weight (r : Reader) : Nat := (r.pieces.map fun piece => piece.length + 1).sum

end Reader

variable {σ : Type}

/-! ## Readers that wrap a reader -/

/-- `io.LimitReader`, with the number of bytes it still lets through. -/
def limitRead (read : ReadFn σ) : ReadFn (σ × Nat) := fun r size =>
  if r.2 = 0 then ⟨[], some .eof, r⟩
  else
    let got := read r.1 (min size r.2)
    ⟨got.data, got.err, (got.next, r.2 - got.data.length)⟩

/-- A reader that counts the bytes it passes on. -/
def countRead (read : ReadFn σ) : ReadFn (σ × Nat) := fun r size =>
  let got := read r.1 size
  ⟨got.data, got.err, (got.next, r.2 + got.data.length)⟩

/-- `io.TeeReader`, with the bytes written so far. -/
def teeRead (read : ReadFn σ) : ReadFn (σ × List Byte) := fun r size =>
  let got := read r.1 size
  ⟨got.data, got.err, (got.next, r.2 ++ got.data)⟩

/-- A reader that changes every byte. -/
def mapRead (f : Byte → Byte) (read : ReadFn σ) : ReadFn σ := fun r size =>
  let got := read r size
  ⟨got.data.map f, got.err, got.next⟩

/-- The bytes of the pieces changed. -/
def Reader.map (f : Byte → Byte) (r : Reader) : Reader :=
  { r with pieces := r.pieces.map (List.map f) }

lemma Reader.content_map (f : Byte → Byte) (r : Reader) : (r.map f).content = r.content.map f := by
  simp [Reader.map, Reader.content, List.map_flatten]

/-! ## Reading -/

/-- Every read takes a front of what is to come. -/
def Splits (read : ReadFn σ) (content : σ → List Byte) : Prop :=
  ∀ r size, content r = (read r size).data ++ content (read r size).next

lemma Reader.splits : Splits Reader.read Reader.content := by
  intro r size
  obtain ⟨pieces, ending, together⟩ := r
  cases pieces with
  | nil => rfl
  | cons piece rest =>
    simp only [Reader.read, Reader.content]
    split_ifs with fits
    · rw [List.take_of_length_le fits, List.flatten_cons]
    · rw [List.flatten_cons, List.flatten_cons, ← List.append_assoc, List.take_append_drop]

lemma Reader.read_length (r : Reader) (size : Nat) : (r.read size).data.length ≤ size := by
  obtain ⟨pieces, ending, together⟩ := r
  cases pieces with
  | nil => exact Nat.zero_le _
  | cons piece rest => exact List.length_take_le size piece

@[simp]
lemma Reader.ending_read (r : Reader) (size : Nat) : (r.read size).next.ending = r.ending := by
  obtain ⟨pieces, ending, together⟩ := r
  cases pieces with
  | nil => rfl
  | cons piece rest => rfl

/-- A reader that is empty ends with its error. -/
lemma Reader.read_ending {r : Reader} {size : Nat} {ending : ReadEnd}
    (ended : (r.read size).err = some ending) :
    ending = r.ending ∧ (r.read size).next.content = [] := by
  obtain ⟨pieces, last, together⟩ := r
  cases pieces with
  | nil => exact ⟨(Option.some.inj ended).symm, rfl⟩
  | cons piece rest =>
    simp only [Reader.read, Option.ite_none_right_eq_some, Option.some.injEq] at ended
    obtain ⟨⟨-, empty⟩, rfl⟩ := ended
    refine ⟨rfl, ?_⟩
    simp only [Reader.read, Reader.content, empty]
    rfl

/-- Reading with a buffer uses up a reader that does not end. -/
lemma Reader.weight_read {r : Reader} {size : Nat} (buffer : 0 < size)
    (goesOn : (r.read size).err = none) : (r.read size).next.weight < r.weight := by
  obtain ⟨pieces, ending, together⟩ := r
  cases pieces with
  | nil => cases goesOn
  | cons piece rest =>
    simp only [Reader.read, Reader.weight]
    split_ifs with fits
    · simp
    · simp only [List.map_cons, List.sum_cons, List.length_drop]
      omega

lemma Splits.limit {read : ReadFn σ} {content : σ → List Byte} (splits : Splits read content) :
    Splits (limitRead read) fun r => content r.1 := by
  intro r size
  unfold limitRead
  split_ifs
  · rfl
  · exact splits r.1 (min size r.2)

/-- The reader was read to its end: these bytes and this error, with buffers of any sizes. -/
inductive Drained (read : ReadFn σ) : σ → List Byte → ReadEnd → σ → Prop
  | last {r : σ} (size : Nat) {ending : ReadEnd} (ended : (read r size).err = some ending) :
      Drained read r (read r size).data ending (read r size).next
  | more {r r' : σ} (size : Nat) {rest : List Byte} {ending : ReadEnd}
      (goesOn : (read r size).err = none) (later : Drained read (read r size).next rest ending r') :
      Drained read r ((read r size).data ++ rest) ending r'

namespace Drained

variable {read : ReadFn σ} {data : List Byte} {ending : ReadEnd}

lemma content {content : σ → List Byte} (splits : Splits read content) {r r' : σ}
    (drained : Drained read r data ending r') : content r = data ++ content r' := by
  induction drained with
  | @last r size ending ended => exact splits r size
  | @more r r' size rest ending goesOn later ih => rw [splits r size, ih, List.append_assoc]

lemma count {r r' : σ × Nat} (drained : Drained (countRead read) r data ending r') :
    Drained read r.1 data ending r'.1 ∧ r'.2 = r.2 + data.length := by
  induction drained with
  | @last r size ending ended => exact ⟨.last size ended, rfl⟩
  | @more r r' size rest ending goesOn later ih =>
    refine ⟨.more size goesOn ih.1, ?_⟩
    rw [ih.2, List.length_append, ← Nat.add_assoc]
    rfl

lemma tee {r r' : σ × List Byte} (drained : Drained (teeRead read) r data ending r') :
    Drained read r.1 data ending r'.1 ∧ r'.2 = r.2 ++ data := by
  induction drained with
  | @last r size ending ended => exact ⟨.last size ended, rfl⟩
  | @more r r' size rest ending goesOn later ih =>
    refine ⟨.more size goesOn ih.1, ?_⟩
    rw [ih.2, ← List.append_assoc]
    rfl

lemma map {f : Byte → Byte} {r r' : σ} (drained : Drained (mapRead f read) r data ending r') :
    ∃ raw, data = raw.map f ∧ Drained read r raw ending r' := by
  induction drained with
  | @last r size ending ended => exact ⟨_, rfl, .last size ended⟩
  | @more r r' size rest ending goesOn later ih =>
    obtain ⟨raw, rfl, below⟩ := ih
    exact ⟨_, (List.map_append).symm, .more size goesOn below⟩

/-- The limit is what was read and what is left of it. -/
lemma limit {r r' : σ × Nat} (fits : ∀ r size, (read r size).data.length ≤ size)
    (drained : Drained (limitRead read) r data ending r') : data.length + r'.2 = r.2 := by
  have once : ∀ (r : σ × Nat) size,
      (limitRead read r size).data.length + (limitRead read r size).next.2 = r.2 := by
    intro r size
    have bound := fits r.1 (min size r.2)
    unfold limitRead
    split_ifs with none
    · exact Nat.zero_add _
    · simp only
      omega
  induction drained with
  | @last r size ending ended => exact once r size
  | @more r r' size rest ending goesOn later ih =>
    have first := once r size
    rw [List.length_append]
    omega

end Drained

/-- Reading to the end, as `io.ReadAll` does, with the size of the buffer of each read and a bound
on the number of reads. -/
def drain (read : ReadFn σ) (buffer : Nat → Nat) : Nat → σ → Option (List Byte × ReadEnd × σ)
  | 0, _ => none
  | reads + 1, r =>
    match (read r (buffer reads)).err with
    | some ending => some ((read r (buffer reads)).data, ending, (read r (buffer reads)).next)
    | none =>
      (drain read buffer reads (read r (buffer reads)).next).map fun later =>
        ((read r (buffer reads)).data ++ later.1, later.2)

lemma drained_of_drain {read : ReadFn σ} {buffer : Nat → Nat} {reads : Nat} {r r' : σ}
    {data : List Byte} {ending : ReadEnd}
    (run : drain read buffer reads r = some (data, ending, r')) :
      Drained read r data ending r' := by
  induction reads generalizing r data with
  | zero => cases run
  | succ reads ih =>
    rw [drain] at run
    split at run
    · rename_i ended
      obtain ⟨rfl, rfl, rfl⟩ : _ ∧ _ ∧ _ := by simpa using run
      exact .last _ ended
    · rename_i goesOn
      obtain ⟨⟨rest, later⟩, below, same⟩ := Option.map_eq_some_iff.mp run
      obtain ⟨rfl, rfl⟩ := Prod.mk.inj same
      exact .more _ goesOn (ih below)

end TgFile.Go
