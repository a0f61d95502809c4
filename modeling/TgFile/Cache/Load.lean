import TgFile.Go.Stream
import TgFile.Store.Model

/-! # Opening a File through the cache

`Load` of `filemgr/file_io_cache.go` for one caller: an entry that a level of the cache holds for
the File, the File's own stream where the File is too large, and otherwise a copy that is read from
that stream in full.  A local failure of the disk level falls back to the stream. -/

namespace TgFile

open Go

/-- What the disk level does with a File that it is to keep. -/
inductive DiskFill
  /-- The copy was written and opened. -/
  | kept
  /-- A local failure while it was written, after this many chunks. -/
  | writeFailed (chunks : Nat)
  /-- A local failure after the last byte was read. -/
  | publishFailed
  /-- The copy could not be opened. -/
  | openFailed
  deriving DecidableEq, Repr

/-- The limits of the levels, `none` for a level that is disabled, and what they hold under the
identity of a File. -/
structure FileCache where
  l1KeySizeLimit : Option Int
  l2KeySizeLimit : Option Int
  entry : StoredFile → Option (List Byte)
  disk : DiskFill

/-- A stream that `Load` returns: the File's own, or one over a copy of its bytes. -/
inductive Opened (τ : Type)
  | source (f : τ)
  | copy (f : BytesReader)

namespace FileCache

variable {ε τ : Type}

/-- The size of the chunks that are copied. -/
def diskCopyBufferSize : Nat := 64 * 1024

section
variable (stream : ReadSeeker ε τ) (isEOF : ε → Bool) (reads : Nat)

/-- The read of one more byte has to fail with `io.EOF`. -/
def verifyCacheSourceTrailer (f : τ) : Option (Except Err τ) :=
  (stream.readFull reads f 1).map fun
    | ((extra, err), f') =>
      if extra ≠ [] ∨ err.isNone then .error .internal
      else if err.any isEOF then .ok f' else .error .internal

/-- Exactly so many bytes, and then the end. -/
def readExactBytes (f : τ) (expected : Nat) : Option (Except Err (List Byte)) :=
  match stream.readFull reads f expected with
  | none => none
  | some ((_, some _), _) => some (.error .internal)
  | some ((raw, none), f') =>
    (verifyCacheSourceTrailer stream isEOF reads f').map (Except.map fun _ => raw)

/-- The loop of `copyExactToFile`, with a bound on its rounds. -/
def copyChunks : Nat → τ → Nat → Option (Except Err (List Byte × τ))
  | _, f, 0 => some (.ok ([], f))
  | 0, _, _ + 1 => none
  | rounds + 1, f, remaining + 1 =>
    match stream.readFull reads f (min diskCopyBufferSize (remaining + 1)) with
    | none => none
    | some ((_, some _), _) => some (.error .internal)
    | some ((data, none), f') =>
      (copyChunks rounds f' (remaining + 1 - data.length)).map
        (Except.map fun later => (data ++ later.1, later.2))

/-- The bytes of the copy, and the source afterwards. -/
def copyExactToFile (f : τ) (expected : Nat) : Option (Except Err (List Byte × τ)) :=
  match copyChunks stream reads expected f expected with
  | none => none
  | some (.error err) => some (.error err)
  | some (.ok (raw, f')) =>
    (verifyCacheSourceTrailer stream isEOF reads f').map (Except.map fun last => (raw, last))

/-- The source from its start, or a new stream if it cannot go back there. -/
def fallbackSource (loaded f : τ) : Opened τ :=
  match stream.seek f 0 .start with
  | (.ok _, f') => .source f'
  | (.error _, _) => .source loaded

/-- A copy of the bytes in memory. -/
def fillBuffered (loaded : τ) (size : Nat) : Option (Except Err (Opened τ)) :=
  (readExactBytes stream isEOF reads loaded size).map (Except.map fun raw => .copy ⟨raw, 0⟩)

/-- A copy on disk, or the source itself after a local failure. -/
def fillDisk (disk : DiskFill) (loaded : τ) (size : Nat) : Option (Except Err (Opened τ)) :=
  match disk with
  | .writeFailed chunks =>
    (copyChunks stream reads size loaded (min size (chunks * diskCopyBufferSize))).map
      (Except.map fun copied => fallbackSource stream loaded copied.2)
  | .publishFailed =>
    (copyExactToFile stream isEOF reads loaded size).map
      (Except.map fun copied => fallbackSource stream loaded copied.2)
  | .openFailed =>
    (copyExactToFile stream isEOF reads loaded size).map (Except.map fun _ => .source loaded)
  | .kept =>
    (copyExactToFile stream isEOF reads loaded size).map
      (Except.map fun copied => .copy ⟨copied.1, 0⟩)

/-- An entry of another size is dropped. -/
def lookup (cache : FileCache) (file : StoredFile) : Option (List Byte) :=
  (cache.entry file).filter fun raw => (raw.length : Int) = file.fileSize

/-- `Load`: a hit, a new copy, or the File's own stream. -/
def load (cache : FileCache) (file : StoredFile) (loaded : Except Err τ) :
    Option (Except Err (Opened τ)) :=
  if file.fileSize < 0 then some (.error .invalidFileSize)
  else
    let l1Eligible := cache.l1KeySizeLimit.any fun limit => file.fileSize ≤ limit
    let l2Eligible := !l1Eligible && cache.l2KeySizeLimit.any fun limit => file.fileSize ≤ limit
    if !l1Eligible && !l2Eligible then some (loaded.map .source)
    else
      match cache.lookup file with
      | some raw => some (.ok (.copy ⟨raw, 0⟩))
      | none =>
        match loaded with
        | .error err => some (.error err)
        | .ok loaded =>
          if l1Eligible then fillBuffered stream isEOF reads loaded file.fileSize.toNat
          else fillDisk stream isEOF reads cache.disk loaded file.fileSize.toNat

end

end FileCache

/-! ## What is opened serves the bytes of the File -/

namespace Opened

variable {ε τ : Type}

/-- The methods of a stream that `Load` returns. -/
def stream (source : ReadSeeker ε τ) (eof negative : ε) : ReadSeeker ε (Opened τ) where
  read
    | .source f, size => ((source.read f size).1, .source (source.read f size).2)
    | .copy f, size =>
      let bytes := BytesReader.stream eof negative
      ((bytes.read f size).1, .copy (bytes.read f size).2)
  seek
    | .source f, offset, whence =>
      ((source.seek f offset whence).1, .source (source.seek f offset whence).2)
    | .copy f, offset, whence =>
      let bytes := BytesReader.stream eof negative
      ((bytes.seek f offset whence).1, .copy (bytes.seek f offset whence).2)

/-- The cursor of either stream. -/
def At (content : List Byte) (inv : τ → Nat → Prop) : Opened τ → Nat → Prop
  | .source f, cursor => inv f cursor
  | .copy f, cursor => f = ⟨content, cursor⟩

variable {source : ReadSeeker ε τ} {eof negative : ε} {content : List Byte} {inv : τ → Nat → Prop}

lemma embeds_source : Embeds source (stream source eof negative) .source :=
  ⟨fun _ _ => rfl, fun _ _ _ => rfl⟩

lemma embeds_copy : Embeds (BytesReader.stream eof negative) (stream source eof negative) .copy :=
  ⟨fun _ _ => rfl, fun _ _ _ => rfl⟩

lemma streams (negative : ε) (served : Streams source eof content inv) :
    Streams (stream source eof negative) eof content (At content inv) where
  serves := by
    intro opened cursor here call
    cases opened with
    | source f =>
      obtain ⟨next, serves, after⟩ := served.serves here call
      rw [embeds_source.call]
      exact ⟨next, serves, after⟩
    | copy f =>
      obtain ⟨next, serves, after⟩ := (BytesReader.streams eof negative content).serves here call
      rw [embeds_copy.call]
      exact ⟨next, serves, after⟩
  ends := by
    intro opened cursor here
    cases opened with
    | source f => exact embeds_source.ends (served.ends here)
    | copy f => exact embeds_copy.ends ((BytesReader.streams eof negative content).ends here)

end Opened

namespace FileCache

variable {ε τ : Type} {stream : ReadSeeker ε τ} {eof : ε} {isEOF : ε → Bool} {content : List Byte}
  {inv : τ → Nat → Prop} {f : τ}

lemma verifyCacheSourceTrailer_ok (isEnd : isEOF eof = true) (ends : stream.Ends eof f []) :
    ∃ reads f', ∀ more, reads ≤ more →
      stream.readFull more f 1 = some (([], some eof), f') ∧
      verifyCacheSourceTrailer stream isEOF more f = some (.ok f') := by
  obtain ⟨reads, f', run⟩ := ends.readFull_end 0
  refine ⟨reads, f', fun more bound => ⟨run more bound, ?_⟩⟩
  simp [verifyCacheSourceTrailer, run more bound, isEnd]

lemma readExactBytes_ok (isEnd : isEOF eof = true) (ends : stream.Ends eof f content) :
    ∃ reads, ∀ more, reads ≤ more →
      readExactBytes stream isEOF more f content.length = some (.ok content) := by
  obtain ⟨reads, f', after, run⟩ := ends.readFull content.length (Nat.le_refl _)
  rw [List.drop_length] at after
  obtain ⟨last, f'', check⟩ := verifyCacheSourceTrailer_ok isEnd after
  refine ⟨max reads last, fun more bound => ?_⟩
  rw [readExactBytes, run more (Nat.le_trans (Nat.le_max_left _ _) bound), List.take_length]
  simp only [(check more (Nat.le_trans (Nat.le_max_right _ _) bound)).2]
  rfl

/-- The loop copies a front of what is to come. -/
lemma copyChunks_ok (streams : Streams stream eof content inv) {cursor : Nat}
    (here : inv f cursor) {data : List Byte} (ends : stream.Ends eof f data) (expected : Nat)
    (enough : expected ≤ data.length) :
    ∃ reads f' last, inv f' last ∧ stream.Ends eof f' (data.drop expected) ∧
      ∀ more, reads ≤ more → ∀ rounds, expected ≤ rounds →
        copyChunks stream more rounds f expected = some (.ok (data.take expected, f')) := by
  induction left : expected using Nat.strongRecOn generalizing f cursor data expected with
  | _ left ih =>
    subst left
    cases expected with
    | zero =>
      refine ⟨0, f, cursor, here, ends, fun more _ rounds _ => ?_⟩
      cases rounds <;> simp [copyChunks]
    | succ remaining =>
      let want := min diskCopyBufferSize (remaining + 1)
      have positive : 0 < want := Nat.lt_min.mpr ⟨by decide, Nat.succ_pos _⟩
      have small : want ≤ remaining + 1 := Nat.min_le_right _ _
      obtain ⟨reads, f₁, after, run⟩ := ends.readFull want (Nat.le_trans small enough)
      obtain ⟨next, holds⟩ := streams.readFull_inv here (run reads (Nat.le_refl _))
      have length : (data.take want).length = want := by
        rw [List.length_take]
        omega
      obtain ⟨later, f₂, last, final, rest, copied⟩ := ih (remaining + 1 - want) (by omega)
        holds after (remaining + 1 - want) (by rw [List.length_drop]; omega) rfl
      rw [List.drop_drop, Nat.add_sub_cancel' small] at rest
      refine ⟨max reads later, f₂, last, final, rest, fun more bound rounds fuel => ?_⟩
      obtain ⟨rounds, rfl⟩ := Nat.exists_eq_add_of_le' (Nat.le_trans (Nat.le_add_left 1 _) fuel)
      have joined : data.take want ++ (data.drop want).take (remaining + 1 - want) =
          data.take (remaining + 1) := by
        rw [← List.drop_take]
        conv_rhs => rw [← List.take_append_drop want (data.take (remaining + 1)), List.take_take,
          Nat.min_eq_left small]
      rw [copyChunks, run more (Nat.le_trans (Nat.le_max_left _ _) bound)]
      simp only [length]
      rw [copied more (Nat.le_trans (Nat.le_max_right _ _) bound) rounds (by omega)]
      simp only [Option.map_some, Except.map, joined]

lemma copyExactToFile_ok (isEnd : isEOF eof = true) (streams : Streams stream eof content inv)
    (here : inv f 0) :
    ∃ reads f' last, inv f' last ∧ ∀ more, reads ≤ more →
      copyExactToFile stream isEOF more f content.length = some (.ok (content, f')) := by
  obtain ⟨reads, f₁, next, holds, rest, run⟩ :=
    copyChunks_ok streams here (streams.ends here) content.length (Nat.le_refl _)
  rw [List.drop_zero, List.drop_length] at rest
  obtain ⟨later, f₂, check⟩ := verifyCacheSourceTrailer_ok isEnd rest
  obtain ⟨last, final⟩ := streams.readFull_inv holds (check later (Nat.le_refl _)).1
  refine ⟨max reads later, f₂, last, final, fun more bound => ?_⟩
  rw [copyExactToFile, run more (Nat.le_trans (Nat.le_max_left _ _) bound) _ (Nat.le_refl _),
    List.drop_zero, List.take_length]
  simp only [(check more (Nat.le_trans (Nat.le_max_right _ _) bound)).2]
  rfl

lemma fallbackSource_at (streams : Streams stream eof content inv) {cursor : Nat} (loaded : τ)
    (here : inv f cursor) : (fallbackSource stream loaded f).At content inv 0 := by
  obtain ⟨done, after⟩ := streams.seek_start here
  rw [fallbackSource]
  generalize stream.seek f 0 .start = result at done after ⊢
  obtain ⟨outcome, f'⟩ := result
  obtain rfl : outcome = .ok 0 := done
  exact after

/-- Whatever fails locally, the disk level ends with a stream at the start of the bytes. -/
lemma fillDisk_ok (isEnd : isEOF eof = true) (streams : Streams stream eof content inv)
    (here : inv f 0) (disk : DiskFill) :
    ∃ reads, ∀ more, reads ≤ more → ∃ opened : Opened τ,
      fillDisk stream isEOF more disk f content.length = some (.ok opened) ∧
      opened.At content inv 0 := by
  obtain ⟨reads, f', last, holds, run⟩ := copyExactToFile_ok isEnd streams here
  cases disk with
  | kept =>
    refine ⟨reads, fun more bound => ⟨.copy ⟨content, 0⟩, ?_, rfl⟩⟩
    rw [fillDisk, run more bound]
    rfl
  | openFailed =>
    refine ⟨reads, fun more bound => ⟨.source f, ?_, here⟩⟩
    rw [fillDisk, run more bound]
    rfl
  | publishFailed =>
    refine ⟨reads, fun more bound =>
      ⟨fallbackSource stream f f', ?_, fallbackSource_at streams f holds⟩⟩
    rw [fillDisk, run more bound]
    rfl
  | writeFailed chunks =>
    obtain ⟨reads, f', last, holds, -, run⟩ := copyChunks_ok streams here (streams.ends here)
      (min content.length (chunks * diskCopyBufferSize)) (Nat.min_le_left _ _)
    refine ⟨reads, fun more bound =>
      ⟨fallbackSource stream f f', ?_, fallbackSource_at streams f holds⟩⟩
    rw [fillDisk, run more bound _ (Nat.min_le_left _ _)]
    rfl

/-- `Load` returns a stream at the start of the bytes of the File, if the cache holds none but
these under its identity. -/
lemma load_ok (isEOF : ε → Bool) (isEnd : isEOF eof = true)
    (streams : Streams stream eof content inv) (here : inv f 0) (cache : FileCache)
    {file : StoredFile} (size : file.fileSize = content.length)
    (sound : ∀ raw, cache.entry file = some raw → raw.length = content.length → raw = content) :
    ∃ reads, ∀ more, reads ≤ more → ∃ opened : Opened τ,
      load stream isEOF more cache file (.ok f) = some (.ok opened) ∧ opened.At content inv 0 := by
  obtain ⟨buffered, readsBuffered⟩ := readExactBytes_ok isEnd (streams.ends here)
  obtain ⟨copied, readsCopied⟩ := fillDisk_ok isEnd streams here cache.disk
  refine ⟨max buffered copied, fun more bound => ?_⟩
  have nonneg : ¬file.fileSize < 0 := by omega
  rw [load, if_neg nonneg]
  simp only
  split_ifs with direct small
  · exact ⟨.source f, rfl, here⟩
  all_goals
    cases found : cache.lookup file with
    | some raw =>
      simp only [lookup, Option.filter_eq_some_iff, decide_eq_true_eq, size] at found
      obtain rfl := sound raw found.1 (by exact_mod_cast found.2)
      exact ⟨.copy ⟨raw, 0⟩, rfl, rfl⟩
    | none => ?_
  · refine ⟨.copy ⟨content, 0⟩, ?_, rfl⟩
    have run := readsBuffered more (Nat.le_trans (Nat.le_max_left _ _) bound)
    rw [List.drop_zero] at run
    simp only [size, Int.toNat_natCast, fillBuffered, run]
    rfl
  · simp only [size, Int.toNat_natCast]
    exact readsCopied more (Nat.le_trans (Nat.le_max_right _ _) bound)

end FileCache

end TgFile
