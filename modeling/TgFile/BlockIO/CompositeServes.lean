import TgFile.BlockIO.CompositeStream

/-! # A composite stream serves its sources one after another

A source is read block by block.  It returns nothing only when the reader of a block is used up,
and then the cursor is at the end of that block, so that going on with the next block is right. -/

namespace TgFile

open Go

variable {β : Type}

/-- No read of the reader returns nothing before the end. -/
def Go.Reader.Brisk (r : Reader) : Prop := ∀ piece ∈ r.pieces, piece ≠ []

lemma Go.Reader.Brisk.next {r : Reader} (brisk : r.Brisk) (size : Nat) :
    (r.read size).next.Brisk := by
  obtain ⟨pieces, ending, together⟩ := r
  cases pieces with
  | nil => exact brisk
  | cons piece rest =>
    intro other member
    simp only [Reader.read] at member
    split_ifs at member with fits
    · exact brisk other (List.mem_cons_of_mem _ member)
    · rcases List.mem_cons.mp member with rfl | later
      · intro empty
        exact fits (by simpa [List.drop_eq_nil_iff] using empty)
      · exact brisk other (List.mem_cons_of_mem _ later)

/-- A read that returns nothing found the reader used up. -/
lemma Go.Reader.Brisk.content_nil {r : Reader} (brisk : r.Brisk) {size : Nat} (positive : 0 < size)
    (nothing : (r.read size).data = []) : r.content = [] := by
  obtain ⟨pieces, ending, together⟩ := r
  cases pieces with
  | nil => rfl
  | cons piece rest =>
    have some : piece ≠ [] := brisk piece List.mem_cons_self
    simp only [Reader.read, List.take_eq_nil_iff] at nothing
    rcases nothing with zero | empty
    · omega
    · exact absurd empty some

namespace BlockIO

/-- A download that has bytes returns some of them with every read. -/
def Prompt (io : BlockIO β) : Prop :=
  ∀ (blocks : β) (key : Text) (pos : Int) (r : Reader), io.download blocks key pos = .ok r →
    r.content ≠ [] → r.Brisk

lemma newMemBackend_prompt (bksize : Int) (reads : Nat) (now : Int) :
    (newMemBackend bksize reads now).Prompt := by
  intro blocks key pos r run some
  simp only [newMemBackend] at run
  split at run
  · cases run
  · obtain rfl := Except.ok.inj run
    intro piece member
    simp only [Reader.ofBytes, List.mem_singleton] at member
    subst member
    simpa [Reader.ofBytes, Reader.content] using some

end BlockIO

/-! ## The source at a cursor -/

namespace FileStream

variable {io : BlockIO β} {blocks : β} {b2f : Int → Except StreamErr Text} {content : List Byte}
  {size cursor : Nat} {f : FileStream}

/-- The stream is at a cursor, and its reader ends with a block. -/
structure BlockAt (content : List Byte) (size : Nat) (f : FileStream) (cursor : Nat) : Prop where
  place : At content f cursor
  brisk : ∀ r, f.tmpReader = some r → r.Brisk
  ends : ∀ r, f.tmpReader = some r → 0 < cursor + r.content.length ∧
    (cursor + r.content.length = content.length ∨ (cursor + r.content.length) % size = 0)

/-- The reader of a block that is opened ends with the block. -/
lemma HoldsBlocks.opened_ends (holds : HoldsBlocks io blocks b2f content size)
    (prompt : io.Prompt) (fsize : f.fsize = content.length) (here : f.cursor = cursor)
    (before : cursor < content.length) {r : Reader}
    (run : f.openCurrentPart io blocks b2f = .ok r) :
    r.Brisk ∧ 0 < cursor + r.content.length ∧
      (cursor + r.content.length = content.length ∨ (cursor + r.content.length) % size = 0) := by
  obtain ⟨key, pos, r', run', downloaded, -, same⟩ := holds.openCurrentPart_block fsize here before
  obtain rfl : r' = r := Except.ok.inj (run'.symm.trans run)
  have low : cursor % size < size := Nat.mod_lt _ holds.positive
  have length : r'.content.length = min (size - cursor % size) (content.length - cursor) := by
    rw [same, List.length_take, List.length_drop]
  refine ⟨prompt blocks key pos r' downloaded ?_, by omega, ?_⟩
  · rw [← List.length_pos_iff]
    omega
  · by_cases short : content.length - cursor ≤ size - cursor % size
    · left
      omega
    · right
      rw [length, Nat.min_eq_left (by omega)]
      have whole : cursor + (size - cursor % size) = (cursor / size + 1) * size := by
        have split := Nat.div_add_mod' cursor size
        rw [Nat.succ_mul]
        omega
      rw [whole, Nat.mul_mod_left]

/-- A read before the end returns bytes, unless the reader of a block was used up. -/
lemma HoldsBlocks.block_read (holds : HoldsBlocks io blocks b2f content size)
    (prompt : io.Prompt) (here : BlockAt content size f cursor) (before : cursor < content.length)
    {buffer : Nat} (positive : 0 < buffer) :
    ∃ data f', f.read io blocks b2f buffer = ((data, none), f') ∧ data.length ≤ buffer ∧
      data <+: content.drop cursor ∧ BlockAt content size f' (cursor + data.length) ∧
      (data = [] → 0 < cursor ∧ cursor % size = 0 ∧ f.tmpReader ≠ none) := by
  -- The reader, whether it is open or not, holds the rest of a block.
  obtain ⟨r, current, ending, front, brisk, ends, fresh⟩ : ∃ r,
      f.currentReader io blocks b2f = .ok r ∧ r.ending = .eof ∧ r.content <+: content.drop cursor ∧
      r.Brisk ∧ (0 < cursor + r.content.length ∧ (cursor + r.content.length = content.length ∨
        (cursor + r.content.length) % size = 0)) ∧ (f.tmpReader = none → r.content ≠ []) := by
    obtain ⟨r, current, ending, front, fresh⟩ := holds.currentReader here.place before
    cases closed : f.tmpReader with
    | some r' =>
      have same : r' = r := by
        rw [FileStream.currentReader, closed] at current
        exact Except.ok.inj current
      subst same
      exact ⟨r', current, ending, front, here.brisk r' closed, here.ends r' closed,
        fun none => absurd none (Option.some_ne_none r')⟩
    | none =>
      have run : f.openCurrentPart io blocks b2f = .ok r := by
        rw [FileStream.currentReader, closed] at current
        exact current
      obtain ⟨brisk, ends⟩ :=
        holds.opened_ends prompt here.place.fsize here.place.here before run
      exact ⟨r, current, ending, front, brisk, ends, fun _ => fresh closed⟩
  obtain ⟨data, after⟩ := here.place.advance ending front buffer
  refine ⟨(r.read buffer).data, _, read_of_reader here.place.opened current ending buffer,
    Reader.read_length r buffer, data, ⟨after, fun next same => ?_, fun next same => ?_⟩,
    fun nothing => ?_⟩
  · split_ifs at same
    obtain rfl := Option.some.inj same
    exact brisk.next buffer
  · split_ifs at same
    obtain rfl := Option.some.inj same
    have split : r.content = (r.read buffer).data ++ (r.read buffer).next.content :=
      Reader.splits r buffer
    rw [Nat.add_assoc, ← List.length_append, ← split]
    exact ends
  · have empty := brisk.content_nil positive nothing
    rw [empty, List.length_nil, Nat.add_zero] at ends
    refine ⟨ends.1, ends.2.resolve_left (Nat.ne_of_lt before), fun closed => fresh closed empty⟩

lemma blockAt_newFileStream (content : List Byte) (size : Nat) :
    BlockAt content size (newFileStream content.length) 0 :=
  ⟨at_newFileStream content, nofun, nofun⟩

/-- A stream that is set to a position opens the block there. -/
lemma BlockAt.seek (here : BlockAt content size f cursor) {position : Nat}
    (inside : position ≤ content.length) :
    ∃ f', f.seek position .start = (.ok (position : Int), f') ∧ BlockAt content size f' position ∧
      f'.tmpReader = none := by
  have opened : ¬f.isOpen = false := by simp [here.place.opened]
  have low : ¬(position : Int) < 0 := by omega
  have high : ¬f.fsize < position := by
    rw [here.place.fsize]
    omega
  refine ⟨{ f with tmpReader := none, cursor := position }, ?_,
    ⟨⟨here.place.opened, here.place.fsize, rfl, inside, nofun⟩, nofun, nofun⟩, rfl⟩
  rw [FileStream.seek, if_neg opened]
  exact (if_neg low).trans (if_neg high)

end FileStream

/-! ## The segments of the sources -/

namespace CompositeStream

/-- The bytes of the sources, one after another. -/
def joined (sources : List (Nat × List Byte)) : List Byte := sources.flatMap Prod.snd

/-- The segments of sources from an index and a start on. -/
def segmentsFrom (index start : Nat) : List (Nat × List Byte) → List CompositeSegment
  | [] => []
  | (fileID, bytes) :: rest =>
    ⟨index, fileID, bytes.length, start⟩ :: segmentsFrom (index + 1) (start + bytes.length) rest

/-- A source among the others, with the place of its bytes. -/
structure Source (sources : List (Nat × List Byte)) (index fileID start : Nat) (bytes : List Byte) :
    Prop where
  split : ∃ front back, sources = front ++ (fileID, bytes) :: back ∧ front.length = index ∧
    (joined front).length = start

variable {sources : List (Nat × List Byte)} {index fileID start cursor buffer rounds : Nat}
  {bytes : List Byte}

section
variable (source : Source sources index fileID start bytes)
include source

lemma Source.unique {fileID' start' : Nat}
    {bytes' : List Byte} (other : Source sources index fileID' start' bytes') :
    fileID = fileID' ∧ start = start' ∧ bytes = bytes' := by
  obtain ⟨front, back, same, rfl, rfl⟩ := source.split
  obtain ⟨front', back', rfl, length, rfl⟩ := other.split
  obtain ⟨rfl, rest⟩ := List.append_inj same length
  obtain ⟨head, -⟩ := List.cons.inj rest
  obtain ⟨rfl, rfl⟩ := Prod.mk.inj head
  exact ⟨rfl, rfl, rfl⟩

/-- The bytes of a source are where they belong. -/
lemma Source.drop {position : Nat} (inside : position ≤ bytes.length) :
    ∃ rest, (joined sources).drop (start + position) = bytes.drop position ++ rest := by
  obtain ⟨front, back, rfl, rfl, rfl⟩ := source.split
  refine ⟨joined back, ?_⟩
  have whole : joined (front ++ (fileID, bytes) :: back) =
    joined front ++ (bytes ++ joined back) := by
    simp [joined]
  rw [whole, ← List.drop_drop, List.drop_left, List.drop_append_of_le_length inside]

lemma Source.end_le : start + bytes.length ≤ (joined sources).length := by
  obtain ⟨front, back, rfl, rfl, rfl⟩ := source.split
  simp only [joined, List.flatMap_append, List.flatMap_cons, List.length_append]
  omega

end

/-- The search finds the source that a cursor is in. -/
lemma exists_source (sources : List (Nat × List Byte)) (index start : Nat) {cursor : Nat}
    (before : cursor < (joined sources).length) :
    ∃ front fileID bytes back, sources = front ++ (fileID, bytes) :: back ∧
      (joined front).length ≤ cursor ∧ cursor < (joined front).length + bytes.length ∧
      (segmentsFrom index start sources).findIdx?
        (fun segment => ((start + cursor : Nat) : Int) < segment.start + segment.size) =
          some front.length ∧
      (segmentsFrom index start sources)[front.length]? =
        some ⟨index + front.length, fileID, bytes.length,
          (start + (joined front).length : Nat)⟩ := by
  induction sources generalizing index start cursor with
  | nil => simp [joined] at before
  | cons source rest ih =>
    obtain ⟨fileID, bytes⟩ := source
    by_cases here : cursor < bytes.length
    · refine ⟨[], fileID, bytes, rest, rfl, by simp [joined], by simpa [joined] using here, ?_, ?_⟩
      · rw [segmentsFrom, List.findIdx?_cons, if_pos]
        · rfl
        · simp only [decide_eq_true_eq]
          omega
      · simp [segmentsFrom, joined]
    · have later : cursor - bytes.length < (joined rest).length := by
        simp only [joined, List.flatMap_cons, List.length_append] at before ⊢
        omega
      obtain ⟨front, fileID', bytes', back, rfl, low, high, found, placed⟩ :=
        ih (index + 1) (start + bytes.length) later
      have moved : start + bytes.length + (cursor - bytes.length) = start + cursor := by omega
      have length : (joined ((fileID, bytes) :: front)).length =
          bytes.length + (joined front).length := by simp [joined]
      refine ⟨(fileID, bytes) :: front, fileID', bytes', back, rfl, by omega, by omega, ?_, ?_⟩
      · rw [moved] at found
        rw [segmentsFrom, List.findIdx?_cons, if_neg, found]
        · rfl
        · simp only [decide_eq_true_eq]
          omega
      · rw [segmentsFrom, List.length_cons, List.getElem?_cons_succ, placed, length]
        congr 2
        · omega
        · rw [Nat.add_assoc]

/-! ## One read of a segment -/

variable {io : BlockIO β} {st : Storage β} {size : Nat} {f : CompositeStream}

/-- The blocks of every source can be downloaded. -/
def HoldsSources (io : BlockIO β) (st : Storage β) (size : Nat)
    (sources : List (Nat × List Byte)) : Prop :=
  ∀ source ∈ sources, FileStream.HoldsBlocks io st.blocks (Storage.blockKey st.store source.1)
    source.2 size

lemma Source.holds (source : Source sources index fileID start bytes)
    (holds : HoldsSources io st size sources) :
    FileStream.HoldsBlocks io st.blocks (Storage.blockKey st.store fileID) bytes size := by
  obtain ⟨front, back, rfl, -, -⟩ := source.split
  exact holds (fileID, bytes) (by simp)

/-- The stream is open at a cursor; its reader is that of the source the cursor is in. -/
structure CompositeAt (sources : List (Nat × List Byte)) (size : Nat) (f : CompositeStream)
    (cursor : Nat) : Prop where
  opened : f.isOpen = true
  segments : f.segments = segmentsFrom 0 0 sources
  sized : f.size = (joined sources).length
  here : f.offset = cursor
  inside : cursor ≤ (joined sources).length
  current : ∀ index g, f.current = some (index, g) → ∃ fileID start bytes,
    Source sources index fileID start bytes ∧ start ≤ cursor ∧ cursor < start + bytes.length ∧
      FileStream.BlockAt bytes size g (cursor - start)

/-- What is left to read, with a round for a reader that may be used up. -/
def weight (f : CompositeStream) : Nat :=
  2 * (f.size - f.offset).toNat +
    if f.current.any fun current => current.2.tmpReader.isSome then 1 else 0

lemma CompositeAt.segmentAt (here : CompositeAt sources size f cursor)
    (before : cursor < (joined sources).length) :
    ∃ index fileID start bytes, Source sources index fileID start bytes ∧ start ≤ cursor ∧
      cursor < start + bytes.length ∧ f.segmentAt f.offset = some index ∧
      f.segments[index]? = some ⟨index, fileID, bytes.length, start⟩ := by
  obtain ⟨front, fileID, bytes, back, same, low, high, found, placed⟩ :=
    exists_source sources 0 0 before
  refine ⟨front.length, fileID, _, bytes, ⟨front, back, same, rfl, rfl⟩, low, high, ?_, ?_⟩
  · rw [CompositeStream.segmentAt, here.segments, here.here]
    simpa using found
  · rw [here.segments, placed]
    simp

/-- The reader of the segment at the cursor. -/
lemma CompositeAt.openSegment (here : CompositeAt sources size f cursor)
    (source : Source sources index fileID start bytes) (low : start ≤ cursor)
    (high : cursor < start + bytes.length) :
    ∃ g, f.openSegment index ⟨index, fileID, bytes.length, start⟩ = .ok g ∧
      FileStream.BlockAt bytes size g (cursor - start) ∧
      (g.tmpReader ≠ none → f.current = some (index, g)) := by
  have fresh : ∃ g, openSegment.opened f ⟨index, fileID, bytes.length, start⟩ = .ok g ∧
      FileStream.BlockAt bytes size g (cursor - start) ∧ g.tmpReader = none := by
    have opened := FileStream.blockAt_newFileStream bytes size
    by_cases atStart : cursor = start
    · refine ⟨FileStream.newFileStream bytes.length, ?_, ?_, rfl⟩
      · rw [openSegment.opened, if_pos]
        rw [here.here, atStart, Int.sub_self]
      · rw [atStart, Nat.sub_self]
        exact opened
    · have position : f.offset - ((start : Nat) : Int) = ((cursor - start : Nat) : Int) := by
        rw [here.here]
        omega
      have moved : ((cursor - start : Nat) : Int) ≠ 0 := by omega
      obtain ⟨g, seeked, placed, closed⟩ := opened.seek
        (show cursor - start ≤ bytes.length by omega)
      refine ⟨g, ?_, placed, closed⟩
      rw [openSegment.opened]
      simp only [position, if_neg moved, seeked]
  rw [CompositeStream.openSegment]
  cases held : f.current with
  | none =>
    obtain ⟨g, run, placed, closed⟩ := fresh
    exact ⟨g, run, placed, fun opened => absurd closed opened⟩
  | some current =>
    obtain ⟨place, g⟩ := current
    simp only
    split_ifs with same
    · subst same
      obtain ⟨fileID', start', bytes', source', -, -, placed⟩ := here.current place g held
      obtain ⟨-, rfl, rfl⟩ := source.unique source'
      exact ⟨g, rfl, placed, fun _ => rfl⟩
    · obtain ⟨g, run, placed, closed⟩ := fresh
      exact ⟨g, run, placed, fun opened => absurd closed opened⟩

/-- A read of the segment at the cursor returns bytes of its source, or sets the source to its next
block. -/
lemma CompositeAt.readSegment (holds : HoldsSources io st size sources) (prompt : io.Prompt)
    (here : CompositeAt sources size f cursor) (source : Source sources index fileID start bytes)
    (low : start ≤ cursor) (high : cursor < start + bytes.length) (positive : 0 < buffer) :
    ∃ data f', f.readSegment io st index ⟨index, fileID, bytes.length, start⟩ buffer =
        ((data, none), f') ∧ data.length ≤ buffer ∧ data <+: (joined sources).drop cursor ∧
      CompositeAt sources size f' (cursor + data.length) ∧ f'.weight < f.weight := by
  obtain ⟨g, opened, placed, kept⟩ := here.openSegment source low high
  have sourceHolds := source.holds holds
  have remaining : (((start : Nat) : Int) + bytes.length - f.offset).toNat =
      start + bytes.length - cursor := by
    rw [here.here]
    omega
  obtain ⟨data, g', run, fits, front, after, stuck⟩ := sourceHolds.block_read prompt placed
    (show cursor - start < bytes.length by omega)
    (show 0 < min buffer (start + bytes.length - cursor) by omega)
  have short : data.length ≤ start + bytes.length - cursor :=
    Nat.le_trans fits (Nat.min_le_right _ _)
  have total := source.end_le
  obtain ⟨rest, dropped⟩ := source.drop (show cursor - start ≤ bytes.length by omega)
  rw [Nat.add_sub_cancel' low] at dropped
  have whole : data <+: (joined sources).drop cursor := by
    rw [dropped]
    exact front.trans (List.prefix_append _ _)
  rw [CompositeStream.readSegment, opened]
  simp only [remaining, run, afterRead, Option.filter_none]
  have moved : f.offset + (data.length : Int) = ((cursor + data.length : Nat) : Int) := by
    rw [here.here, Int.natCast_add]
  have lighter : ∀ current, data ≠ [] →
      ({ f with offset := f.offset + (data.length : Int), current } : CompositeStream).weight <
        f.weight := by
    intro current some
    have longer := List.length_pos_of_ne_nil some
    simp only [weight, here.sized, here.here]
    split_ifs <;> omega
  by_cases nothing : data = []
  · -- The reader of a block is used up: the source goes on with the next block.
    obtain ⟨later, boundary, used⟩ := stuck nothing
    subst nothing
    obtain ⟨g'', seeked, reset, closed⟩ := after.seek (show cursor - start ≤ bytes.length by omega)
    have inside : f.offset + (([] : List Byte).length : Int) <
      ((start : Nat) : Int) + bytes.length := by
      rw [moved]
      simp only [List.length_nil]
      omega
    have position : f.offset + (([] : List Byte).length : Int) - ((start : Nat) : Int) =
        ((cursor - start : Nat) : Int) := by
      rw [moved]
      simp only [List.length_nil]
      omega
    have valid : ¬(io.maxFileSize ≤ 0 ∨ ((cursor - start : Nat) : Int) ≤ 0 ∨
        ((cursor - start : Nat) : Int).tmod io.maxFileSize ≠ 0) := by
      have blocks := sourceHolds.positive
      rw [sourceHolds.blockSize, Int.tmod_eq_emod_of_nonneg (Int.natCast_nonneg _)]
      have zero : ((cursor - start : Nat) : Int) % (size : Int) = 0 := by exact_mod_cast boundary
      omega
    have advanced : advancePhysicalBoundary io
        { f with offset := f.offset + (([] : List Byte).length : Int), current := some (index, g') }
        ⟨index, fileID, bytes.length, start⟩ g' = (none, g'') := by
      simp only [advancePhysicalBoundary, position, if_neg valid, seeked]
    rw [if_pos ⟨rfl, inside⟩, advanced]
    refine ⟨[], _, rfl, Nat.zero_le _, whole, ⟨here.opened, here.segments, here.sized, moved,
      here.inside, fun place held same => ?_⟩, ?_⟩
    · obtain ⟨rfl, rfl⟩ := Prod.mk.inj (Option.some.inj same)
      exact ⟨fileID, start, bytes, source, low, high, reset⟩
    · have full : f.current = some (index, g) := kept used
      have held : g.tmpReader.isSome = true := Option.isSome_iff_ne_none.mpr used
      simp only [weight, full, Option.any_some, held, closed, Option.isSome_none, if_true,
        List.length_nil, Int.natCast_zero, Int.add_zero, Bool.false_eq_true, if_false]
      omega
  · rw [if_neg fun both => nothing both.1, moved]
    have same : ((start : Nat) : Int) + bytes.length = ((start + bytes.length : Nat) : Int) := by
      rw [Int.natCast_add]
    rw [same]
    split_ifs with ended
    · exact ⟨data, _, rfl, Nat.le_trans fits (Nat.min_le_left _ _), whole, ⟨here.opened,
        here.segments, here.sized, rfl, by omega, nofun⟩, moved ▸ lighter none nothing⟩
    · refine ⟨data, _, rfl, Nat.le_trans fits (Nat.min_le_left _ _), whole, ⟨here.opened,
        here.segments, here.sized, rfl, by omega, fun place held same => ?_⟩,
        moved ▸ lighter _ nothing⟩
      obtain ⟨rfl, rfl⟩ := Prod.mk.inj (Option.some.inj same)
      refine ⟨fileID, start, bytes, source, by omega, by omega, ?_⟩
      rw [show cursor + data.length - start = cursor - start + data.length by omega]
      exact after

/-! ## The stream -/

lemma prefix_take {data whole : List Byte} {size : Nat} (front : data <+: whole)
    (fits : data.length ≤ size) :
    data ++ (whole.drop data.length).take (size - data.length) = whole.take size := by
  obtain ⟨rest, rfl⟩ := front
  rw [List.drop_left, List.take_append, List.take_of_length_le fits]

/-- The loop fills the buffer, as far as the bytes go. -/
lemma CompositeAt.readLoop (holds : HoldsSources io st size sources) (prompt : io.Prompt)
    (here : CompositeAt sources size f cursor) (left : Nat) (enough : f.weight ≤ rounds) :
    ∃ f', f.readLoop io st rounds left =
        some ((((joined sources).drop cursor).take left, none), f') ∧
      CompositeAt sources size f' (cursor + (((joined sources).drop cursor).take left).length) := by
  induction rounds generalizing f cursor left with
  | zero =>
    have ended : (joined sources).length ≤ cursor := by
      have light := Nat.le_zero.mp enough
      simp only [weight, here.sized, here.here] at light
      omega
    have past : f.size ≤ f.offset := by
      rw [here.sized, here.here]
      omega
    rw [List.drop_eq_nil_of_le ended, List.take_nil]
    refine ⟨f, ?_, here⟩
    cases left with
    | zero => rfl
    | succ left => rw [CompositeStream.readLoop, if_pos past]
  | succ rounds ih =>
    cases left with
    | zero => exact ⟨f, rfl, by simpa using here⟩
    | succ left =>
      by_cases before : cursor < (joined sources).length
      · obtain ⟨index, fileID, start, bytes, source, low, high, found, segment⟩ :=
          here.segmentAt before
        obtain ⟨data, f₁, run, fits, front, after, lighter⟩ :=
          here.readSegment holds prompt source low high (Nat.succ_pos left)
        have inside : ¬f.size ≤ f.offset := by
          rw [here.sized, here.here]
          omega
        obtain ⟨f', later, reached⟩ := ih after (left + 1 - data.length)
          (Nat.le_of_lt_succ (Nat.lt_of_lt_of_le lighter enough))
        rw [← List.drop_drop] at later reached
        refine ⟨f', ?_, ?_⟩
        · rw [CompositeStream.readLoop, if_neg inside]
          simp only [found, segment, run, later, Option.map_some, prefix_take front fits]
        · rw [← prefix_take front fits, List.length_append, ← Nat.add_assoc]
          exact reached
      · have past : f.size ≤ f.offset := by
          rw [here.sized, here.here]
          omega
        rw [List.drop_eq_nil_of_le (Nat.not_lt.mp before), List.take_nil]
        exact ⟨f, by rw [CompositeStream.readLoop, if_pos past], here⟩

/-- Rounds that suffice for any read. -/
def roundsFor (sources : List (Nat × List Byte)) : Nat := 2 * (joined sources).length + 1

lemma CompositeAt.weight_le (here : CompositeAt sources size f cursor) :
    f.weight ≤ roundsFor sources := by
  simp only [weight, roundsFor, here.sized, here.here]
  split_ifs <;> omega

lemma CompositeAt.read (holds : HoldsSources io st size sources) (prompt : io.Prompt)
    (here : CompositeAt sources size f cursor) (enough : roundsFor sources ≤ rounds)
    (positive : 0 < buffer) (before : cursor < (joined sources).length) :
    ∃ f', (stream io st rounds).read f buffer =
        ((((joined sources).drop cursor).take buffer, none), f') ∧
      CompositeAt sources size f' (cursor + (((joined sources).drop cursor).take
        buffer).length) := by
  obtain ⟨f', run, after⟩ :=
    here.readLoop holds prompt buffer (Nat.le_trans here.weight_le enough)
  have inside : f.offset ≠ f.size := by
    rw [here.sized, here.here]
    omega
  refine ⟨f', ?_, after⟩
  simp only [stream, CompositeStream.read]
  rw [if_neg (by simp [here.opened]), if_neg (Nat.ne_of_gt positive), if_neg inside, run]
  rfl

lemma CompositeAt.read_end (here : CompositeAt sources size f cursor) (positive : 0 < buffer)
    (ended : (joined sources).length ≤ cursor) :
    (stream io st rounds).read f buffer = (([], some .eof), f) := by
  have inside := here.inside
  have same : f.offset = f.size := by
    rw [here.sized, here.here]
    omega
  simp only [stream, CompositeStream.read]
  rw [if_neg (by simp [here.opened]), if_neg (Nat.ne_of_gt positive), if_pos same]
  rfl

lemma CompositeAt.serves_seek (here : CompositeAt sources size f cursor) (offset : Int)
    (whence : Whence) :
    ∃ next, Serves StreamErr.eof (joined sources) cursor (.seek offset whence)
        (.seek (f.seek offset whence).1) next ∧
      CompositeAt sources size (f.seek offset whence).2 next := by
  have target : whence.target f.size f.offset offset =
      whence.target (joined sources).length cursor offset := by rw [here.sized, here.here]
  have opened : ¬f.isOpen = false := by simp [here.opened]
  simp only [CompositeStream.seek, if_neg opened, target]
  split_ifs with unknown negative past
  · exact ⟨cursor, .refused (.inr (.inr unknown)), here⟩
  · exact ⟨cursor, .refused (.inl negative), here⟩
  · rw [here.sized] at past
    exact ⟨cursor, .refused (.inr (.inl past)), here⟩
  · have same : ((whence.target (joined sources).length cursor offset).toNat : Int) =
        whence.target (joined sources).length cursor offset := by omega
    refine ⟨(whence.target (joined sources).length cursor offset).toNat, ?_, here.opened,
      here.segments, here.sized, same.symm, ?_, nofun⟩
    · rw [← same]
      exact .seek same.symm
    · rw [here.sized] at past
      omega

/-- **A composite stream serves the bytes of its sources.** -/
lemma streams (holds : HoldsSources io st size sources) (prompt : io.Prompt)
    (enough : roundsFor sources ≤ rounds) :
    Streams (stream io st rounds) .eof (joined sources) (CompositeAt sources size) where
  serves := by
    intro f cursor here call
    cases call with
    | seek offset whence => exact here.serves_seek offset whence
    | read buffer =>
      simp only [ReadSeeker.call]
      cases buffer with
      | zero =>
        have opened : ¬f.isOpen = false := by simp [here.opened]
        have empty : (stream io st rounds).read f 0 = (([], none), f) := by
          simp only [stream, CompositeStream.read, if_neg opened, if_true]
          rfl
        rw [empty]
        exact ⟨cursor, .read (Nat.zero_le _) (List.nil_prefix), here⟩
      | succ buffer =>
        by_cases before : cursor < (joined sources).length
        · obtain ⟨f', run, after⟩ :=
            here.read holds prompt enough (Nat.succ_pos buffer) before
          rw [run]
          exact ⟨_, .read (List.length_take_le _ _) (List.take_prefix _ _), after⟩
        · rw [here.read_end (Nat.succ_pos buffer) (Nat.not_lt.mp before)]
          exact ⟨cursor, .done (Nat.not_lt.mp before), here⟩
  ends := by
    intro f cursor here
    induction left : (joined sources).length - cursor using Nat.strongRecOn
      generalizing f cursor with
    | _ left ih =>
      by_cases before : cursor < (joined sources).length
      · have got := fun buffer (positive : 0 < buffer) =>
          here.read holds prompt enough positive before
        refine .read (fun buffer positive => ?_) (fun buffer positive => ?_)
          fun buffer positive => ?_
        · obtain ⟨f', run, -⟩ := got buffer positive
          rw [run]
        · obtain ⟨f', run, -⟩ := got buffer positive
          simp only [run, List.prefix_rfl]
        · obtain ⟨f', run, after⟩ := got buffer positive
          have longer : 0 < (((joined sources).drop cursor).take buffer).length := by
            rw [List.length_take, List.length_drop]
            omega
          have nearer : (joined sources).length -
              (cursor + (((joined sources).drop cursor).take buffer).length) <
              (joined sources).length - cursor := by omega
          rw [run, List.drop_drop]
          exact ih _ (left ▸ nearer) after rfl
      · rw [List.drop_eq_nil_of_le (Nat.not_lt.mp before)]
        refine .done fun buffer positive => ?_
        rw [here.read_end positive (Nat.not_lt.mp before)]

end CompositeStream

end TgFile
