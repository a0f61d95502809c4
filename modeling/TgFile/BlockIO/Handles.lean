import TgFile.BlockIO.CompositeServes

/-! # The streams over any calls

Beside what the calls return, the download streams they open and close: at most one is open at any
time. -/

namespace TgFile

open Go

variable {β : Type}

/-- A download stream is opened or closed. -/
inductive HandleEvent
  | opened
  | closed
  deriving DecidableEq, Repr

/-- No stream is opened while one is open; the flags say whether one is open before and after. -/
inductive OneHandle : Bool → List HandleEvent → Bool → Prop
  | nil {open₁ : Bool} : OneHandle open₁ [] open₁
  | opened {events : List HandleEvent} {after : Bool} (later : OneHandle true events after) :
      OneHandle false (.opened :: events) after
  | closed {events : List HandleEvent} {after : Bool} (later : OneHandle false events after) :
      OneHandle true (.closed :: events) after

lemma OneHandle.append {before between after : Bool} {first second : List HandleEvent}
    (one : OneHandle before first between) (two : OneHandle between second after) :
    OneHandle before (first ++ second) after := by
  induction one with
  | nil => exact two
  | opened _ ih => exact .opened (ih two)
  | closed _ ih => exact .closed (ih two)

/-- The events of a sequence of calls. -/
def runEvents {ε τ : Type} (stream : ReadSeeker ε τ) (events : τ → StreamCall → List HandleEvent) :
    τ → List StreamCall → List HandleEvent
  | _, [] => []
  | f, call :: calls => events f call ++ runEvents stream events (stream.call f call).2 calls

lemma runEvents_oneHandle {ε τ : Type} {stream : ReadSeeker ε τ}
    {events : τ → StreamCall → List HandleEvent} {handle : τ → Bool}
    (step : ∀ f call, OneHandle (handle f) (events f call) (handle (stream.call f call).2))
    (f : τ) (calls : List StreamCall) :
    OneHandle (handle f) (runEvents stream events f calls) (handle (stream.run f calls).2) := by
  induction calls generalizing f with
  | nil => exact .nil
  | cons call calls ih => exact (step f call).append (ih _)

/-! ## The stream of a physical File -/

namespace FileStream

/-- A download stream is open. -/
def handle (f : FileStream) : Bool := f.tmpReader.isSome

/-- `Close`, and the beginning of `Seek`. -/
def closeEvents (f : FileStream) : List HandleEvent := if f.handle then [.closed] else []

/-- The events of `Read`: the block is opened if none is, and its end closes it. -/
def readEvents (io : BlockIO β) (blocks : β) (b2f : Int → Except StreamErr Text) (f : FileStream)
    (size : Nat) : List HandleEvent :=
  if f.isOpen = false then []
  else
    match f.currentReader io blocks b2f with
    | .error _ => []
    | .ok reader =>
      (if f.handle then [] else [.opened]) ++
        if (reader.read size).err = some .eof then [.closed] else []

/-- `Seek` closes the block. -/
def seekEvents (f : FileStream) : List HandleEvent := if f.isOpen = false then [] else f.closeEvents

/-- The handles that a call opens and closes. -/
def events (io : BlockIO β) (blocks : β) (b2f : Int → Except StreamErr Text) (f : FileStream) :
    StreamCall → List HandleEvent
  | .read size => f.readEvents io blocks b2f size
  | .seek _ _ => f.seekEvents

variable {io : BlockIO β} {blocks : β} {b2f : Int → Except StreamErr Text} {f : FileStream}

lemma close_oneHandle (f : FileStream) : OneHandle f.handle f.closeEvents false := by
  rw [closeEvents]
  cases f.handle with
  | false => exact .nil
  | true => exact .closed .nil

lemma read_oneHandle (f : FileStream) (size : Nat) :
    OneHandle f.handle (f.readEvents io blocks b2f size) (f.read io blocks b2f size).2.handle := by
  by_cases shut : f.isOpen = false
  · rw [readEvents, if_pos shut, read, if_pos shut]
    exact .nil
  · rw [readEvents, if_neg shut, read, if_neg shut]
    cases f.currentReader io blocks b2f with
    | error err => exact .nil
    | ok reader =>
      have opens : OneHandle f.handle (if f.handle then [] else [.opened]) true := by
        cases f.handle with
        | false => exact .opened .nil
        | true => exact .nil
      refine opens.append ?_
      simp only
      cases (reader.read size).err with
      | none => exact .nil
      | some ending =>
        cases ending with
        | eof => exact .closed .nil
        | failed => exact .nil

lemma handle_seek (offset : Int) (whence : Whence) (opened : f.isOpen = true) :
    (f.seek offset whence).2.handle = false := by
  rw [seek, if_neg (by simp [opened])]
  simp only
  split_ifs <;> rfl

lemma seek_oneHandle (f : FileStream) (offset : Int) (whence : Whence) :
    OneHandle f.handle f.seekEvents (f.seek offset whence).2.handle := by
  by_cases shut : f.isOpen = false
  · rw [seekEvents, if_pos shut, seek, if_pos shut]
    exact .nil
  · rw [seekEvents, if_neg shut, handle_seek offset whence (by simpa using shut)]
    exact f.close_oneHandle

lemma events_oneHandle (f : FileStream) (call : StreamCall) :
    OneHandle f.handle (f.events io blocks b2f call)
      ((stream io blocks b2f).call f call).2.handle := by
  cases call with
  | read size => exact f.read_oneHandle size
  | seek offset whence => exact f.seek_oneHandle offset whence

end FileStream

/-! ## The stream of a composite File -/

namespace CompositeStream

/-- A block is open. -/
def handle (f : CompositeStream) : Bool := f.current.any fun current => current.2.handle

/-- The handles that `closeCurrent` closes. -/
def closeCurrentEvents (f : CompositeStream) : List HandleEvent :=
  match f.current with
  | none => []
  | some (_, reader) => reader.closeEvents

/-- The events of `openSegment`: another reader is closed, the new one opens no block yet. -/
def openSegmentEvents (f : CompositeStream) (index : Nat) : List HandleEvent :=
  match f.current with
  | none => []
  | some (currentIndex, reader) => if currentIndex = index then [] else reader.closeEvents

section
variable (io : BlockIO β) (st : Storage β)

/-- The handle closed at the end of a block. -/
def advanceEvents (f : CompositeStream) (segment : CompositeSegment) (reader : FileStream) :
    List HandleEvent :=
  let sourceOffset := f.offset - segment.start
  if io.maxFileSize ≤ 0 ∨ sourceOffset ≤ 0 ∨ sourceOffset.tmod io.maxFileSize ≠ 0 then []
  else reader.seekEvents

/-- The events after the source has been read. -/
def afterReadEvents (f : CompositeStream) (segment : CompositeSegment)
    (got : (List Byte × Option StreamErr) × FileStream) : List HandleEvent :=
  let f := { f with offset := f.offset + got.1.1.length }
  match got.1.2.filter (· ≠ .eof) with
  | some _ => []
  | none =>
    if got.1.1 = [] ∧ f.offset < segment.start + segment.size then
      f.advanceEvents io segment got.2
    else if f.offset = segment.start + segment.size then got.2.closeEvents
    else []

/-- The handles of `readSegment`. -/
def readSegmentEvents (f : CompositeStream) (index : Nat)
    (segment : CompositeSegment) (size : Nat) :
    List HandleEvent :=
  f.openSegmentEvents index ++
    match f.openSegment index segment with
    | .error _ => []
    | .ok reader =>
      let requestSize := min size (segment.start + segment.size - f.offset).toNat
      let b2f := Storage.blockKey st.store segment.sourceFileID
      reader.readEvents io st.blocks b2f requestSize ++
        f.afterReadEvents io segment (reader.read io st.blocks b2f requestSize)

/-- The handles of `readLoop`. -/
def readLoopEvents : Nat → CompositeStream → Nat → List HandleEvent
  | _, _, 0 => []
  | rounds, f, left + 1 =>
    if f.size ≤ f.offset then []
    else
      match rounds with
      | 0 => []
      | rounds + 1 =>
        match f.segmentAt f.offset with
        | none => []
        | some index =>
          match f.segments[index]? with
          | none => []
          | some segment =>
            let got := f.readSegment io st index segment (left + 1)
            f.readSegmentEvents io st index segment (left + 1) ++
              match got.1.2 with
              | some _ => []
              | none => readLoopEvents rounds got.2 (left + 1 - got.1.1.length)

/-- The handles of `Read`. -/
def readEvents (rounds : Nat) (f : CompositeStream) (size : Nat) : List HandleEvent :=
  if f.isOpen = false ∨ size = 0 ∨ f.offset = f.size then []
  else readLoopEvents io st rounds f size

end

/-- The handles of `Seek`. -/
def seekEvents (f : CompositeStream) (offset : Int) (whence : Whence) : List HandleEvent :=
  match f.seek offset whence with
  | (.ok _, _) => f.closeCurrentEvents
  | (.error _, _) => []

/-- The events of a call; a read that runs out of rounds is left out, as it is in the stream. -/
def events (io : BlockIO β) (st : Storage β) (rounds : Nat) (f : CompositeStream) :
    StreamCall → List HandleEvent
  | .read size => if (f.read io st rounds size).isSome then f.readEvents io st rounds size else []
  | .seek offset whence => f.seekEvents offset whence

variable {io : BlockIO β} {st : Storage β} {f : CompositeStream} {segment : CompositeSegment}

lemma closeCurrent_oneHandle (f : CompositeStream) :
    OneHandle f.handle f.closeCurrentEvents false := by
  rw [handle, closeCurrentEvents]
  cases f.current with
  | none => exact .nil
  | some current => exact current.2.close_oneHandle

/-- A reader that is opened for a segment has no block open. -/
lemma opened_handle {reader : FileStream} (run : openSegment.opened f segment = .ok reader) :
    reader.handle = false := by
  simp only [openSegment.opened] at run
  split_ifs at run with start
  · obtain rfl := Except.ok.inj run
    rfl
  · split at run
    · rename_i seeked
      obtain rfl := Except.ok.inj run
      have closed := FileStream.handle_seek (f := FileStream.newFileStream segment.size)
        (f.offset - segment.start) .start rfl
      rwa [seeked] at closed
    · cases run

lemma openSegment_oneHandle {index : Nat} {reader : FileStream}
    (run : f.openSegment index segment = .ok reader) :
    OneHandle f.handle (f.openSegmentEvents index) reader.handle := by
  rw [handle, openSegmentEvents]
  rw [openSegment] at run
  cases current : f.current with
  | none =>
    rw [current] at run
    rw [opened_handle run]
    exact .nil
  | some held =>
    obtain ⟨currentIndex, held⟩ := held
    simp only [current] at run
    simp only [Option.any_some]
    split_ifs at run ⊢ with same
    · obtain rfl := Except.ok.inj run
      exact .nil
    · rw [opened_handle run]
      exact held.close_oneHandle

lemma openSegment_error {index : Nat} {err : StreamErr}
    (run : f.openSegment index segment = .error err) :
    OneHandle f.handle (f.openSegmentEvents index) false := by
  rw [handle, openSegmentEvents]
  rw [openSegment] at run
  cases current : f.current with
  | none => exact .nil
  | some held =>
    obtain ⟨currentIndex, held⟩ := held
    simp only [current] at run
    simp only [Option.any_some]
    split_ifs at run ⊢ with same
    exact held.close_oneHandle

lemma advance_oneHandle (f : CompositeStream) (segment : CompositeSegment) (reader : FileStream) :
    OneHandle reader.handle (f.advanceEvents io segment reader)
      (f.advancePhysicalBoundary io segment reader).2.handle := by
  simp only [advanceEvents, advancePhysicalBoundary]
  split_ifs with bad
  · exact .nil
  · have seeked := reader.seek_oneHandle (f.offset - segment.start) .start
    split
    all_goals
      rename_i run
      rwa [run] at seeked

lemma afterRead_oneHandle (f : CompositeStream) (index : Nat) (segment : CompositeSegment)
    (got : (List Byte × Option StreamErr) × FileStream) :
    OneHandle got.2.handle (f.afterReadEvents io segment got)
      (f.afterRead io index segment got).2.handle := by
  simp only [afterReadEvents, afterRead]
  cases got.1.2.filter (· ≠ .eof) with
  | some err => exact .nil
  | none =>
    simp only
    by_cases stuck : got.1.1 = [] ∧
        f.offset + (got.1.1.length : Int) < segment.start + segment.size
    · rw [if_pos stuck, if_pos stuck]
      exact advance_oneHandle _ segment got.2
    · rw [if_neg stuck, if_neg stuck]
      by_cases ended : f.offset + (got.1.1.length : Int) = segment.start + segment.size
      · rw [if_pos ended, if_pos ended]
        exact got.2.close_oneHandle
      · rw [if_neg ended, if_neg ended]
        exact .nil

lemma readSegment_oneHandle (f : CompositeStream) (index : Nat) (segment : CompositeSegment)
    (size : Nat) : OneHandle f.handle (f.readSegmentEvents io st index segment size)
      (f.readSegment io st index segment size).2.handle := by
  rw [readSegmentEvents, readSegment]
  cases opened : f.openSegment index segment with
  | error err => exact (openSegment_error opened).append .nil
  | ok reader =>
    exact (openSegment_oneHandle opened).append
      ((reader.read_oneHandle _).append (f.afterRead_oneHandle index segment _))

/-- A read that returns opened and closed blocks in turn. -/
lemma readLoop_oneHandle {rounds left : Nat} {got : List Byte × Option StreamErr}
    {f' : CompositeStream} (run : readLoop io st rounds f left = some (got, f')) :
    OneHandle f.handle (readLoopEvents io st rounds f left) f'.handle := by
  induction rounds generalizing f left got with
  | zero =>
    cases left with
    | zero =>
      obtain ⟨-, rfl⟩ := Prod.mk.inj (Option.some.inj run)
      exact .nil
    | succ left =>
      rw [readLoop] at run
      rw [readLoopEvents]
      split_ifs at run ⊢ with ended
      obtain ⟨-, rfl⟩ := Prod.mk.inj (Option.some.inj run)
      exact .nil
  | succ rounds ih =>
    cases left with
    | zero =>
      obtain ⟨-, rfl⟩ := Prod.mk.inj (Option.some.inj run)
      exact .nil
    | succ left =>
      rw [readLoop] at run
      rw [readLoopEvents]
      by_cases ended : f.size ≤ f.offset
      · rw [if_pos ended] at run ⊢
        obtain ⟨-, rfl⟩ := Prod.mk.inj (Option.some.inj run)
        exact .nil
      · rw [if_neg ended] at run ⊢
        cases found : f.segmentAt f.offset with
        | none =>
          simp only [found] at run
          obtain ⟨-, rfl⟩ := Prod.mk.inj (Option.some.inj run)
          exact .nil
        | some index =>
          cases segment : f.segments[index]? with
          | none =>
            simp only [found, segment] at run
            obtain ⟨-, rfl⟩ := Prod.mk.inj (Option.some.inj run)
            simp only [segment]
            exact .nil
          | some segment' =>
            have first : OneHandle _ (f.readSegmentEvents io st index segment' (left + 1)) _ :=
              f.readSegment_oneHandle index segment' (left + 1)
            simp only [found, segment] at run
            simp only [segment]
            cases failed : (f.readSegment io st index segment' (left + 1)).1.2 with
            | some err =>
              simp only [failed] at run
              obtain ⟨-, rfl⟩ := Prod.mk.inj (Option.some.inj run)
              simp only [List.append_nil]
              exact first
            | none =>
              simp only [failed] at run
              obtain ⟨later, below, same⟩ := Option.map_eq_some_iff.mp run
              obtain ⟨-, rfl⟩ := Prod.mk.inj same
              exact first.append (ih below)

lemma read_oneHandle {rounds size : Nat} {got : List Byte × Option StreamErr}
    {f' : CompositeStream} (run : f.read io st rounds size = some (got, f')) :
    OneHandle f.handle (f.readEvents io st rounds size) f'.handle := by
  rw [read] at run
  rw [readEvents]
  by_cases early : f.isOpen = false ∨ size = 0 ∨ f.offset = f.size
  · rw [if_pos early]
    split_ifs at run with shut empty ended
    · obtain ⟨-, rfl⟩ := Prod.mk.inj (Option.some.inj run)
      exact .nil
    · obtain ⟨-, rfl⟩ := Prod.mk.inj (Option.some.inj run)
      exact .nil
    · obtain ⟨-, rfl⟩ := Prod.mk.inj (Option.some.inj run)
      exact .nil
    · rcases early with shut' | empty' | ended'
      · exact absurd shut' shut
      · exact absurd empty' empty
      · exact absurd ended' ended
  · rw [if_neg early]
    rw [if_neg fun shut => early (.inl shut), if_neg fun empty => early (.inr (.inl empty)),
      if_neg fun ended => early (.inr (.inr ended))] at run
    exact readLoop_oneHandle run

lemma seek_oneHandle (f : CompositeStream) (offset : Int) (whence : Whence) :
    OneHandle f.handle (f.seekEvents offset whence) (f.seek offset whence).2.handle := by
  simp only [seekEvents, seek]
  split_ifs
  · exact .nil
  · exact .nil
  · exact .nil
  · exact .nil
  · exact f.closeCurrent_oneHandle

lemma events_oneHandle (rounds : Nat) (f : CompositeStream) (call : StreamCall) :
    OneHandle f.handle (f.events io st rounds call)
      ((stream io st rounds).call f call).2.handle := by
  cases call with
  | seek offset whence => exact f.seek_oneHandle offset whence
  | read size =>
    simp only [events, ReadSeeker.call, stream]
    cases run : f.read io st rounds size with
    | none => exact .nil
    | some result => exact read_oneHandle run

end CompositeStream

/-! ## Any calls -/

/-- What a stream that starts at the first byte does over any calls: reads return the bytes at the
cursor and advance it, the end is reported there only and comes after finitely many reads, an
invalid `Seek` leaves the cursor, and at most one download stream is open. -/
structure ServesContent {τ : Type} (stream : ReadSeeker StreamErr τ) (content : List Byte)
    (events : τ → StreamCall → List HandleEvent) (f : τ) : Prop where
  served : ∀ calls, ∃ last, ServesAll .eof content 0 calls (stream.run f calls).1 last ∧
    stream.Ends .eof (stream.run f calls).2 (content.drop last)
  handles : ∀ calls, ∃ after, OneHandle false (runEvents stream events f calls) after

lemma FileStream.HoldsBlocks.servesContent {io : BlockIO β} {blocks : β}
    {b2f : Int → Except StreamErr Text} {content : List Byte} {size : Nat}
    (holds : FileStream.HoldsBlocks io blocks b2f content size) :
    ServesContent (FileStream.stream io blocks b2f) content (FileStream.events io blocks b2f)
      (FileStream.newFileStream content.length) where
  served calls := by
    obtain ⟨last, serves, after⟩ := holds.streams.run (FileStream.at_newFileStream content) calls
    exact ⟨last, serves, holds.streams.ends after⟩
  handles calls := ⟨_, runEvents_oneHandle FileStream.events_oneHandle
    (FileStream.newFileStream content.length) calls⟩

namespace CompositeStream

variable {io : BlockIO β} {st : Storage β} {size rounds : Nat} {sources : List (Nat × List Byte)}

/-- The stream of a composite File when it is opened. -/
def ofSources (sources : List (Nat × List Byte)) : CompositeStream :=
  ⟨segmentsFrom 0 0 sources, (joined sources).length, 0, none, true⟩

lemma compositeAt_ofSources (sources : List (Nat × List Byte)) (size : Nat) :
    CompositeAt sources size (ofSources sources) 0 :=
  ⟨rfl, rfl, rfl, rfl, Nat.zero_le _, nofun⟩

lemma HoldsSources.servesContent (holds : HoldsSources io st size sources) (prompt : io.Prompt)
    (enough : roundsFor sources ≤ rounds) :
    ServesContent (stream io st rounds) (joined sources) (events io st rounds)
      (ofSources sources) where
  served calls := by
    have streams := streams holds prompt enough
    obtain ⟨last, serves, after⟩ := streams.run (compositeAt_ofSources sources size) calls
    exact ⟨last, serves, streams.ends after⟩
  handles calls := ⟨_, runEvents_oneHandle (events_oneHandle rounds) (ofSources sources) calls⟩

lemma CompositeAt.read_eof_iff {f : CompositeStream} {cursor buffer : Nat}
    (here : CompositeAt sources size f cursor) (holds : HoldsSources io st size sources)
    (prompt : io.Prompt) (enough : roundsFor sources ≤ rounds) (positive : 0 < buffer) :
    ((stream io st rounds).read f buffer).1.2 = some .eof ↔ cursor = (joined sources).length := by
  by_cases before : cursor < (joined sources).length
  · obtain ⟨f', run, -⟩ := here.read holds prompt enough positive before
    rw [run]
    exact ⟨nofun, fun ended => absurd ended (Nat.ne_of_lt before)⟩
  · rw [here.read_end positive (Nat.not_lt.mp before)]
    exact ⟨fun _ => Nat.le_antisymm here.inside (Nat.not_lt.mp before), fun _ => rfl⟩

end CompositeStream

open BlockIO

/-- A block of three bytes under one key. -/
def threeByteBlock : Storage MemBlocks := ⟨.empty, [(['k'], [1, 2, 3])], [], []⟩

lemma threeByteBlock_holds : FileStream.HoldsBlocks (newMemBackend 4 8 1)
    threeByteBlock.blocks (fun _ => .ok ['k']) [1, 2, 3] 4 where
  blockSize := rfl
  positive := by decide
  few := by decide
  present index inside := by
    obtain rfl : index = 0 := by
      simp only [List.length_cons, List.length_nil] at inside
      omega
    refine ⟨['k'], rfl, fun pos => ⟨Reader.ofBytes ([1, 2, 3].drop pos), rfl, ?_, rfl⟩⟩
    simp [Reader.ofBytes, Reader.content, FileStream.block]

/-- Two parts of four bytes, as an import from a backend with smaller blocks leaves them. -/
def fourByteParts : Storage MemBlocks :=
  ⟨.empty, [(['k'], [1, 2, 3, 4]), (['l'], [5, 6, 7, 8])], [], []⟩

end TgFile
