import TgFile.BlockIO.Model
import TgFile.Go.Stream
import TgFile.Store.Files

/-! # The stream of a physical File

`defaultFsIO` of `filemgr/file_stream.go`: a cursor and the reader of the block it is in.  A block
is found by dividing the cursor by the block size and downloaded from the remainder on. -/

namespace TgFile

open Go

/-- The errors of streams. -/
inductive StreamErr
  /-- `io.EOF` -/
  | eof
  | fileNotOpen
  | invalidOffset
  | seekPastEnd
  | invalidBlockSize
  | invalidFilePart
  | filePartNotFound
  /-- The download failed three times. -/
  | download
  /-- The reader of a block failed. -/
  | readPart
  | invalidComposite
  /-- `io.ErrUnexpectedEOF` -/
  | unexpectedEOF
  /-- The read did not return within the bound on its rounds. -/
  | unfinished
  deriving DecidableEq, Repr

/-- `defaultFsIO`. -/
structure FileStream where
  fsize : Int
  isOpen : Bool
  cursor : Int
  tmpReader : Option Reader
  deriving DecidableEq, Repr

namespace FileStream

variable {β : Type} {r : Reader}

/-- A stream at its start. -/
def newFileStream (fsize : Int) : FileStream := ⟨fsize, true, 0, none⟩

/-- A failed download is tried again, with the same result while the backend is unchanged. -/
def retryGetDownloadStream (io : BlockIO β) (blocks : β) (fileKey : Text) (pos : Int) :
    Except StreamErr Reader :=
  match io.download blocks fileKey pos with
  | .error _ => .error .download
  | .ok reader => .ok reader

/-- The download of the block at the cursor. -/
def openCurrentPart (io : BlockIO β) (blocks : β) (b2f : Int → Except StreamErr Text)
    (f : FileStream) :
    Except StreamErr Reader :=
  if f.cursor = f.fsize then .error .eof
  else if io.maxFileSize ≤ 0 then .error .invalidBlockSize
  else
    let blockID := f.cursor.tdiv io.maxFileSize
    let position := f.cursor.tmod io.maxFileSize
    if blockID < 0 ∨ Store.maxFilePartCount < blockID then .error .invalidFilePart
    else do
      let fileKey ← b2f blockID
      retryGetDownloadStream io blocks fileKey position

/-- The reader of the current block, opened if there is none. -/
def currentReader (io : BlockIO β) (blocks : β) (b2f : Int → Except StreamErr Text)
    (f : FileStream) :
    Except StreamErr Reader :=
  match f.tmpReader with
  | some reader => .ok reader
  | none => f.openCurrentPart io blocks b2f

/-- The end of a block closes its reader and is no error. -/
def read (io : BlockIO β) (blocks : β) (b2f : Int → Except StreamErr Text)
    (f : FileStream) (size : Nat) :
    (List Byte × Option StreamErr) × FileStream :=
  if f.isOpen = false then (([], some .fileNotOpen), f)
  else
    match f.currentReader io blocks b2f with
    | .error err => (([], some err), f)
    | .ok reader =>
      let got := reader.read size
      match got.err with
      | some .failed => ((got.data, some .readPart), { f with tmpReader := some got.next })
      | some .eof =>
        ((got.data, none), { f with cursor := f.cursor + got.data.length, tmpReader := none })
      | none =>
        ((got.data, none),
          { f with cursor := f.cursor + got.data.length, tmpReader := some got.next })

/-- A refused position closes the reader of the block too; the cursor stays. -/
def seek (f : FileStream) (offset : Int) (whence : Whence) : Except StreamErr Int × FileStream :=
  if f.isOpen = false then (.error .fileNotOpen, f)
  else
    let f := { f with tmpReader := none }
    let cur := whence.target f.fsize f.cursor offset
    if cur < 0 then (.error .invalidOffset, f)
    else if f.fsize < cur then (.error .seekPastEnd, f)
    else (.ok cur, { f with cursor := cur })

/-- The two calls of the stream. -/
def stream (io : BlockIO β) (blocks : β) (b2f : Int → Except StreamErr Text) :
    ReadSeeker StreamErr FileStream where
  read := read io blocks b2f
  seek := seek

/-! ## The stream serves the blocks -/

/-- The block of an index, of blocks of a size. -/
def block (content : List Byte) (size index : Nat) : List Byte :=
  (content.drop (index * size)).take size

/-- The bytes are in blocks of `MaxFileSize` bytes, the last one shorter, as `CreateFile` makes
them, and every block can be downloaded from any position. -/
structure HoldsBlocks (io : BlockIO β) (blocks : β) (b2f : Int → Except StreamErr Text)
    (content : List Byte) (size : Nat) : Prop where
  blockSize : io.maxFileSize = size
  positive : 0 < size
  few : content.length ≤ Store.maxFilePartCount.toNat * size
  present : ∀ index : Nat, index * size < content.length → ∃ key, b2f index = .ok key ∧
    ∀ pos : Nat, ∃ r, io.download blocks key pos = .ok r ∧
      r.content = (block content size index).drop pos ∧ r.ending = .eof

/-- The stream is open at a cursor, and the reader of its block holds bytes from there on. -/
structure At (content : List Byte) (f : FileStream) (cursor : Nat) : Prop where
  opened : f.isOpen = true
  fsize : f.fsize = content.length
  here : f.cursor = cursor
  inside : cursor ≤ content.length
  reader : ∀ r, f.tmpReader = some r → r.ending = .eof ∧ r.content <+: content.drop cursor

variable {io : BlockIO β} {blocks : β} {b2f : Int → Except StreamErr Text} {content : List Byte}
  {size cursor : Nat} {f : FileStream}

lemma block_drop (content : List Byte) (size : Nat) (cursor : Nat) :
    (block content size (cursor / size)).drop (cursor % size) =
      (content.drop cursor).take (size - cursor % size) := by
  rw [block, List.drop_take, List.drop_drop, Nat.div_add_mod']

section
variable (holds : HoldsBlocks io blocks b2f content size) (fsize : f.fsize = content.length)
  (here : f.cursor = cursor) (before : cursor < content.length)
include holds fsize here before

/-- Opening the block at a cursor before the end downloads the rest of that block. -/
lemma HoldsBlocks.openCurrentPart_block :
    ∃ key pos r, f.openCurrentPart io blocks b2f = .ok r ∧ io.download blocks key pos = .ok r ∧
      r.ending = .eof ∧ r.content = (content.drop cursor).take (size - cursor % size) := by
  have index : f.cursor.tdiv io.maxFileSize = ((cursor / size : Nat) : Int) := by
    rw [here, holds.blockSize, Int.tdiv_eq_ediv_of_nonneg (Int.natCast_nonneg _)]
    rfl
  have position : f.cursor.tmod io.maxFileSize = ((cursor % size : Nat) : Int) := by
    rw [here, holds.blockSize, Int.tmod_eq_emod_of_nonneg (Int.natCast_nonneg _)]
    rfl
  have starts : cursor / size * size < content.length :=
    Nat.lt_of_le_of_lt (Nat.div_mul_le_self _ _) before
  have low : cursor / size < Store.maxFilePartCount.toNat :=
    Nat.lt_of_mul_lt_mul_right (Nat.lt_of_lt_of_le starts holds.few)
  obtain ⟨key, found, downloads⟩ := holds.present (cursor / size) starts
  obtain ⟨r, run, same, ending⟩ := downloads (cursor % size)
  rw [block_drop] at same
  have notEnd : f.cursor ≠ f.fsize := by
    rw [here, fsize]
    exact_mod_cast Nat.ne_of_lt before
  have sized : ¬io.maxFileSize ≤ 0 := by
    have positive := holds.positive
    rw [holds.blockSize]
    omega
  have valid : ¬(((cursor / size : Nat) : Int) < 0 ∨
      Store.maxFilePartCount < ((cursor / size : Nat) : Int)) := by
    have bound : (Store.maxFilePartCount.toNat : Int) = Store.maxFilePartCount := rfl
    generalize cursor / size = index at low
    omega
  refine ⟨key, _, r, ?_, run, ending, same⟩
  rw [FileStream.openCurrentPart, if_neg notEnd, if_neg sized, index, position]
  simp only [if_neg valid, found]
  change retryGetDownloadStream io blocks key _ = _
  rw [retryGetDownloadStream, run]

/-- Opening the block at a cursor before the end returns bytes from there on. -/
lemma HoldsBlocks.openCurrentPart :
    ∃ r, f.openCurrentPart io blocks b2f = .ok r ∧ r.ending = .eof ∧
      r.content <+: content.drop cursor ∧ r.content ≠ [] := by
  obtain ⟨key, pos, r, run, -, ending, same⟩ := holds.openCurrentPart_block fsize here before
  refine ⟨r, run, ending, ?_, ?_⟩
  · rw [same]
    exact List.take_prefix _ _
  · have later : cursor % size < size := Nat.mod_lt _ holds.positive
    rw [same, Ne, ← List.length_eq_zero_iff, List.length_take, List.length_drop]
    omega

end

lemma read_of_reader (opened : f.isOpen = true) (current : f.currentReader io blocks b2f = .ok r)
    (ending : r.ending = .eof) (size : Nat) :
    f.read io blocks b2f size =
      (((r.read size).data, none),
        { f with
          cursor := f.cursor + (r.read size).data.length
          tmpReader :=
            if (r.read size).err = some .eof then none else some (r.read size).next }) := by
  have notFailed : (r.read size).err ≠ some .failed := fun failed => by
    have same := (Reader.read_ending failed).1
    rw [ending] at same
    cases same
  rw [read, if_neg (by simp [opened]), current]
  simp only
  cases got : (r.read size).err with
  | none => simp
  | some last =>
    cases last with
    | eof => simp
    | failed => exact absurd got notFailed

lemma prefix_drop {data rest whole : List Byte} (front : data ++ rest <+: whole) :
    rest <+: whole.drop data.length := by
  obtain ⟨more, rfl⟩ := front
  rw [List.append_assoc, List.drop_left]
  exact List.prefix_append _ _

/-- After a read from the reader of a block the stream is at the next byte. -/
lemma At.advance (here : At content f cursor) (ending : r.ending = .eof)
    (front : r.content <+: content.drop cursor) (size : Nat) :
    let got := r.read size
    got.data <+: content.drop cursor ∧
      At content { f with
        cursor := f.cursor + got.data.length
        tmpReader := if got.err = some .eof then none else some got.next }
        (cursor + got.data.length) := by
  intro got
  have split : r.content = got.data ++ got.next.content := Reader.splits r size
  rw [split] at front
  have data := (List.prefix_append _ _).trans front
  refine ⟨data, here.opened, here.fsize, ?_, ?_, fun next same => ?_⟩
  · rw [here.here, Int.natCast_add]
  · have short := data.length_le
    have inside := here.inside
    rw [List.length_drop] at short
    omega
  · split_ifs at same
    obtain rfl := Option.some.inj same
    refine ⟨(Reader.ending_read r size).trans ending, ?_⟩
    rw [← List.drop_drop]
    exact prefix_drop front

/-- Before the end, the stream has a reader with bytes from the cursor on. -/
lemma HoldsBlocks.currentReader (holds : HoldsBlocks io blocks b2f content size)
    (here : At content f cursor) (before : cursor < content.length) :
    ∃ r, f.currentReader io blocks b2f = .ok r ∧ r.ending = .eof ∧
      r.content <+: content.drop cursor ∧ (f.tmpReader = none → r.content ≠ []) := by
  cases current : f.tmpReader with
  | some r =>
    obtain ⟨ending, front⟩ := here.reader r current
    exact ⟨r, by rw [FileStream.currentReader, current], ending, front, fun none => by cases none⟩
  | none =>
    obtain ⟨r, run, ending, front, nonempty⟩ :=
      holds.openCurrentPart here.fsize here.here before
    exact ⟨r, by rw [FileStream.currentReader, current]; exact run, ending, front,
      fun _ => nonempty⟩

/-- At the end there is nothing to open. -/
lemma At.openCurrentPart_end (here : At content f content.length) :
    f.openCurrentPart io blocks b2f = .error .eof := by
  rw [openCurrentPart, if_pos (here.here.trans here.fsize.symm)]

lemma At.serves_read (here : At content f cursor)
    (current : f.currentReader io blocks b2f = .ok r) (ending : r.ending = .eof)
    (front : r.content <+: content.drop cursor) (buffer : Nat) :
    ∃ next, Serves .eof content cursor (.read buffer)
        (.read (f.read io blocks b2f buffer).1.1 (f.read io blocks b2f buffer).1.2) next ∧
      At content (f.read io blocks b2f buffer).2 next := by
  obtain ⟨data, after⟩ := here.advance ending front buffer
  rw [read_of_reader here.opened current ending buffer]
  exact ⟨_, .read (Reader.read_length r buffer) data, after⟩

lemma At.read_end (here : At content f content.length) (closed : f.tmpReader = none)
    (buffer : Nat) : f.read io blocks b2f buffer = (([], some .eof), f) := by
  have ended : f.currentReader io blocks b2f = .error .eof := by
    rw [currentReader, closed]
    exact here.openCurrentPart_end
  rw [read, if_neg (by simp [here.opened]), ended]

lemma HoldsBlocks.serves_read (holds : HoldsBlocks io blocks b2f content size)
    (here : At content f cursor) (buffer : Nat) :
    ∃ next, Serves .eof content cursor (.read buffer)
        (.read (f.read io blocks b2f buffer).1.1 (f.read io blocks b2f buffer).1.2) next ∧
      At content (f.read io blocks b2f buffer).2 next := by
  by_cases before : cursor < content.length
  · obtain ⟨r, current, ending, front, -⟩ := holds.currentReader here before
    exact here.serves_read current ending front buffer
  · obtain rfl : cursor = content.length := Nat.le_antisymm here.inside (Nat.not_lt.mp before)
    cases current : f.tmpReader with
    | some r =>
      obtain ⟨ending, front⟩ := here.reader r current
      exact here.serves_read (by rw [FileStream.currentReader, current]) ending front buffer
    | none =>
      rw [here.read_end current]
      exact ⟨content.length, .done (Nat.le_refl _), here⟩

lemma At.serves_seek (here : At content f cursor) (offset : Int) (whence : Whence) :
    ∃ next, Serves .eof content cursor (.seek offset whence) (.seek (f.seek offset whence).1) next ∧
      At content (f.seek offset whence).2 next := by
  have target : whence.target f.fsize f.cursor offset =
      whence.target content.length cursor offset := by rw [here.fsize, here.here]
  have closed : At content { f with tmpReader := none } cursor :=
    ⟨here.opened, here.fsize, here.here, here.inside, fun _ same => by cases same⟩
  have opened : ¬f.isOpen = false := by simp [here.opened]
  simp only [seek, if_neg opened, target]
  split_ifs with negative past
  · exact ⟨cursor, .refused (.inl negative), closed⟩
  · rw [here.fsize] at past
    exact ⟨cursor, .refused (.inr (.inl past)), closed⟩
  · have same : ((whence.target content.length cursor offset).toNat : Int) =
        whence.target content.length cursor offset := by omega
    refine ⟨(whence.target content.length cursor offset).toNat, ?_, closed.opened, closed.fsize,
      same.symm, ?_, fun _ same => by cases same⟩
    · rw [← same]
      exact .seek same.symm
    · rw [here.fsize] at past
      omega

/-- Reading on from the reader of a block: the reader is used up first, then the blocks after it. -/
lemma At.ends_of_reader (here : At content f cursor)
    (current : f.currentReader io blocks b2f = .ok r) (ending : r.ending = .eof)
    (front : r.content <+: content.drop cursor)
    (after : ∀ {f next}, At content f next → f.tmpReader = none →
      next = cursor + r.content.length → (stream io blocks b2f).Ends .eof f (content.drop next)) :
    (stream io blocks b2f).Ends .eof f (content.drop cursor) := by
  -- every read that does not end the block leaves less of its reader
  induction weight : r.weight using Nat.strongRecOn generalizing f cursor r with
  | _ weight ih =>
    have got : ∀ size, f.read io blocks b2f size = _ :=
      read_of_reader here.opened current ending
    refine .read (fun buffer _ => ?_) (fun buffer _ => ?_) fun buffer positive => ?_
    · simp only [stream, got]
    · simp only [stream, got]
      exact List.prefix_take_iff.mpr
        ⟨(here.advance ending front buffer).1, Reader.read_length r buffer⟩
    · obtain ⟨data, next⟩ := here.advance ending front buffer
      have split : r.content = (r.read buffer).data ++ (r.read buffer).next.content :=
        Reader.splits r buffer
      simp only [stream, got, List.drop_drop]
      by_cases ended : (r.read buffer).err = some .eof
      · rw [if_pos ended] at next ⊢
        refine after next rfl ?_
        rw [split, (Reader.read_ending ended).2, List.append_nil]
      · rw [if_neg ended] at next ⊢
        have goesOn : (r.read buffer).err = none := by
          cases got : (r.read buffer).err with
          | none => rfl
          | some last => exact absurd (got.trans (congrArg some
              ((Reader.read_ending got).1.trans ending))) ended
        refine ih _ (weight ▸ Reader.weight_read positive goesOn) next rfl
          ((Reader.ending_read r buffer).trans ending) (next.reader _ rfl).2
          (fun later closed reached => after later closed ?_) rfl
        rw [reached, split, List.length_append, Nat.add_assoc]

lemma HoldsBlocks.ends (holds : HoldsBlocks io blocks b2f content size)
    (here : At content f cursor) : (stream io blocks b2f).Ends .eof f (content.drop cursor) := by
  -- a stream with no reader opens a block that is not empty, so less of the bytes is left after it
  have fresh : ∀ left, ∀ {f cursor}, content.length - cursor = left → At content f cursor →
      f.tmpReader = none → (stream io blocks b2f).Ends .eof f (content.drop cursor) := by
    intro left
    induction left using Nat.strongRecOn with
    | _ left ih =>
      intro f cursor same here closed
      by_cases before : cursor < content.length
      · obtain ⟨r, current, ending, front, nonempty⟩ := holds.currentReader here before
        have longer := List.length_pos_of_ne_nil (nonempty closed)
        refine here.ends_of_reader current ending front fun next none reached => ?_
        exact ih _ (by omega) rfl next none
      · obtain rfl : cursor = content.length :=
          Nat.le_antisymm here.inside (Nat.not_lt.mp before)
        rw [List.drop_length]
        exact .done fun buffer _ => congrArg Prod.fst (here.read_end closed buffer)
  cases current : f.tmpReader with
  | none => exact fresh _ rfl here current
  | some r =>
    obtain ⟨ending, front⟩ := here.reader r current
    exact here.ends_of_reader (by rw [FileStream.currentReader, current]) ending front
      fun next closed _ => fresh _ rfl next closed

/-- The stream of a File serves the bytes of its blocks. -/
lemma HoldsBlocks.streams (holds : HoldsBlocks io blocks b2f content size) :
    Streams (stream io blocks b2f) .eof content (At content) where
  serves here call := by
    cases call with
    | read buffer => exact holds.serves_read here buffer
    | seek offset whence => exact here.serves_seek offset whence
  ends := holds.ends

lemma at_newFileStream (content : List Byte) : At content (newFileStream content.length) 0 :=
  ⟨rfl, rfl, rfl, Nat.zero_le _, fun _ same => by cases same⟩

end FileStream

end TgFile
