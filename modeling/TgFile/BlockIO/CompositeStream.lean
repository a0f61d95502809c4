import TgFile.BlockIO.RoundTrip

/-! # The stream of a composite File

`compositeFileStream` of `filemgr/composite_stream.go`: the segments of the File with their places,
a cursor, and the stream of the source that the cursor is in.  A read goes on from segment to
segment until the buffer is full; a source that returns nothing at the end of a block is set to the
next block. -/

namespace TgFile

open Go Result

variable {β : Type}

/-! ## The manifest -/

/-- `compositeSegment`. -/
structure CompositeSegment where
  index : Nat
  sourceFileID : Nat
  size : Int
  start : Int
  deriving DecidableEq, Repr

/-- `compositeFileStream`; `current` is the reader with the index of its segment. -/
structure CompositeStream where
  segments : List CompositeSegment
  size : Int
  offset : Int
  current : Option (Nat × FileStream)
  isOpen : Bool
  deriving DecidableEq, Repr

namespace CompositeStream

/-- `validateCompositeSegment`. -/
def validSegment (s : Store) (segment : Segment) (expectedIndex : Nat) (total fileSize : Int) :
    Bool :=
  segment.segmentIndex = expectedIndex ∧
    (s.readStoredFile segment.sourceFileID).any fun file =>
      file.fileState = .ready ∧ file.fileLayout = .physical ∧
        file.fileSize = segment.segmentSize ∧ 0 ≤ segment.segmentSize ∧
        total ≤ fileSize - segment.segmentSize

/-- The loop of `loadCompositeManifest`, with the next index and the size so far. -/
def loadSegments (s : Store) (fileSize : Int) : Nat → Int → List Segment →
    Except Err (List CompositeSegment × Int)
  | _, total, [] => .ok ([], total)
  | index, total, segment :: rows => do
      require (validSegment s segment index total fileSize = true) Err.internal
      let (later, size) ← loadSegments s fileSize (index + 1) (total + segment.segmentSize) rows
      pure (⟨index, segment.sourceFileID, segment.segmentSize, total⟩ :: later, size)

/-- The segments of a File, which make up its size. -/
def loadCompositeManifest (s : Store) (fileID : Nat) (fileSize : Int) :
    Except Err (List CompositeSegment) := do
  let (segments, total) ← loadSegments s fileSize 0 0 (s.segmentsOf fileID)
  require (segments ≠ [] ∧ total = fileSize) Err.internal
  pure segments

/-- The stream of a composite File, at its start. -/
def compositeIOStream (s : Store) (fileID : Nat) (fileSize : Int) : Except Err CompositeStream := do
  let segments ← loadCompositeManifest s fileID fileSize
  pure ⟨segments, fileSize, 0, none, true⟩

/-! ## Reading -/

/-- `sort.Search` for the first segment that ends after an offset. -/
def segmentAt (f : CompositeStream) (offset : Int) : Option Nat :=
  f.segments.findIdx? fun segment => offset < segment.start + segment.size

/-- Close the stream of the current segment. -/
def closeCurrent (f : CompositeStream) : CompositeStream := { f with current := none }

section
variable (io : BlockIO β) (st : Storage β)

section
variable (f : CompositeStream)

/-- The reader of a segment, opened at the offset if another one is open. -/
def openSegment (index : Nat) (segment : CompositeSegment) : Except StreamErr FileStream :=
  match f.current with
  | some (currentIndex, reader) => if currentIndex = index then .ok reader else opened
  | none => opened
where
  opened :=
    let reader := FileStream.newFileStream segment.size
    let position := f.offset - segment.start
    if position = 0 then .ok reader
    else
      match reader.seek position .start with
      | (.ok _, reader) => .ok reader
      | (.error err, _) => .error err

/-- `advancePhysicalBoundary`, with the reader after it. -/
def advancePhysicalBoundary (segment : CompositeSegment)
    (reader : FileStream) : Option StreamErr × FileStream :=
  let sourceOffset := f.offset - segment.start
  if io.maxFileSize ≤ 0 ∨ sourceOffset ≤ 0 ∨ sourceOffset.tmod io.maxFileSize ≠ 0 then
    (some .unexpectedEOF, reader)
  else
    match reader.seek sourceOffset .start with
    | (.ok _, reader) => (none, reader)
    | (.error err, reader) => (some err, reader)

/-- What `readSegment` does after the source has been read. -/
def afterRead (index : Nat) (segment : CompositeSegment)
    (got : (List Byte × Option StreamErr) × FileStream) :
    (List Byte × Option StreamErr) × CompositeStream :=
  let data := got.1.1
  let f := { f with offset := f.offset + data.length, current := some (index, got.2) }
  match got.1.2.filter (· ≠ .eof) with
  | some err => ((data, some err), f)
  | none =>
    if data = [] ∧ f.offset < segment.start + segment.size then
      let advanced := advancePhysicalBoundary io f segment got.2
      (([], advanced.1), { f with current := some (index, advanced.2) })
    else if f.offset = segment.start + segment.size then ((data, none), f.closeCurrent)
    else ((data, none), f)

/-- A read from the segment at the offset. -/
def readSegment (index : Nat) (segment : CompositeSegment) (size : Nat) :
    (List Byte × Option StreamErr) × CompositeStream :=
  match f.openSegment index segment with
  | .error err => (([], some err), f.closeCurrent)
  | .ok reader =>
    let remaining := segment.start + segment.size - f.offset
    let requestSize := min size remaining.toNat
    f.afterRead io index segment (reader.read io st.blocks
      (Storage.blockKey st.store segment.sourceFileID) requestSize)

end

/-- The loop of `Read` over the rest of the buffer, with a bound on its rounds. -/
def readLoop : Nat → CompositeStream → Nat →
    Option ((List Byte × Option StreamErr) × CompositeStream)
  | _, f, 0 => some (([], none), f)
  | rounds, f, left + 1 =>
    if f.size ≤ f.offset then some (([], none), f)
    else
      match rounds with
      | 0 => none
      | rounds + 1 =>
        match f.segmentAt f.offset with
        | none => some (([], some .invalidComposite), f)
        | some index =>
          match f.segments[index]? with
          | none => some (([], some .invalidComposite), f)
          | some segment =>
            let got := f.readSegment io st index segment (left + 1)
            match got.1.2 with
            | some err => some ((got.1.1, some err), got.2)
            | none =>
              (readLoop rounds got.2 (left + 1 - got.1.1.length)).map fun later =>
                ((got.1.1 ++ later.1.1, later.1.2), later.2)

/-- `Read`, with a bound on the rounds of its loop. -/
def read (rounds : Nat) (f : CompositeStream) (size : Nat) :
    Option ((List Byte × Option StreamErr) × CompositeStream) :=
  if f.isOpen = false then some (([], some .fileNotOpen), f)
  else if size = 0 then some (([], none), f)
  else if f.offset = f.size then some (([], some .eof), f)
  else readLoop io st rounds f size

end

/-- `Seek`; a valid one closes the current segment. -/
def seek (f : CompositeStream) (offset : Int) (whence : Whence) :
    Except StreamErr Int × CompositeStream :=
  if f.isOpen = false then (.error .fileNotOpen, f)
  else
    let next := whence.target f.size f.offset offset
    if whence = .other then (.error .invalidOffset, f)
    else if next < 0 then (.error .invalidOffset, f)
    else if f.size < next then (.error .seekPastEnd, f)
    else (.ok next, { f.closeCurrent with offset := next })

/-- The methods, with a bound on the rounds of a read. -/
def stream (io : BlockIO β) (st : Storage β) (rounds : Nat) :
    ReadSeeker StreamErr CompositeStream where
  read f size := (f.read io st rounds size).getD (([], some .unfinished), f)
  seek := seek

end CompositeStream

end TgFile
