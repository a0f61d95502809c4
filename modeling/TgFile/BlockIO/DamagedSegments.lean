import TgFile.BlockIO.Damaged

/-! # Reading damaged sources

The blocks of the sources of a composite File may be any byte strings.  A block that ends early is
noticed, unless the end is at a multiple of the block size: there the next block is opened, and one
that is empty is opened again and again. -/

namespace TgFile

open Go CompositeStream

variable {β : Type}

/-- A source with its declared size and what the backend returns for its blocks. -/
structure DamagedSource where
  fileID : Nat
  size : Nat
  blocks : DamagedBlocks

namespace DamagedSource

/-- The place of a source in the File, with zeros for its bytes. -/
def declared (s : DamagedSource) : Nat × List Byte := (s.fileID, List.replicate s.size 0)

/-- The block at a cursor has bytes, and after them reading goes on in this source. -/
structure Steps (s : DamagedSource) (block cursor : Nat) : Prop where
  before : cursor < s.size
  inside : cursor / block < s.blocks.count
  some : (s.blocks.opened block cursor).content ≠ []
  short : s.blocks.after block cursor < s.size
  closes : (s.blocks.opened block cursor).together = true ∨ s.blocks.after block cursor % block = 0

/-- An empty block at the beginning of a later block. -/
structure Stuck (s : DamagedSource) (block cursor : Nat) : Prop where
  moved : 0 < cursor
  aligned : cursor % block = 0
  before : cursor < s.size
  inside : cursor / block < s.blocks.count
  empty : (s.blocks.opened block cursor).content = []

/-- The source has been read, or is with the block at the cursor. -/
inductive Final (s : DamagedSource) (block cursor : Nat) : Prop
  | done (ended : s.size ≤ cursor)
  | last (inside : cursor / block < s.blocks.count)
      (some : (s.blocks.opened block cursor).content ≠ [])
      (ends : s.size ≤ s.blocks.after block cursor)

/-- Reading on from a position comes to a point where it stays. -/
def Loops (s : DamagedSource) (block : Nat) : Nat → Prop :=
  s.blocks.Reaches block (s.Steps block) (s.Stuck block)

/-- Reading on from a position comes to the end of the source. -/
def Finishes (s : DamagedSource) (block : Nat) : Nat → Prop :=
  s.blocks.Reaches block (s.Steps block) (s.Final block)

/-- Reading comes to an empty block at the beginning of a later block. -/
inductive LoopsIn (block : Nat) : List DamagedSource → Prop
  | here {s : DamagedSource} {rest : List DamagedSource} (loops : s.Loops block 0) :
      LoopsIn block (s :: rest)
  | later {s : DamagedSource} {rest : List DamagedSource} (finishes : s.Finishes block 0)
      (loops : LoopsIn block rest) : LoopsIn block (s :: rest)

/-- Reading on from a cursor of a source comes to such a block. -/
def Bad (s : DamagedSource) (block : Nat) (rest : List DamagedSource) (cursor : Nat) : Prop :=
  s.Loops block cursor ∨ (s.Finishes block cursor ∧ LoopsIn block rest)

variable {s : DamagedSource} {block cursor : Nat} {rest : List DamagedSource}

lemma bad_zero_iff : LoopsIn block (s :: rest) ↔ s.Bad block rest 0 := by
  constructor
  · rintro (loops | ⟨finishes, loops⟩)
    · exact .inl loops
    · exact .inr ⟨finishes, loops⟩
  · rintro (loops | ⟨finishes, loops⟩)
    · exact .here loops
    · exact .later finishes loops

/-- A source that has been read leads on to the next. -/
lemma bad_of_end (ended : s.size ≤ cursor) : s.Bad block rest cursor ↔ LoopsIn block rest := by
  refine ⟨?_, fun loops => .inr ⟨.here (.done ended), loops⟩⟩
  rintro (loops | ⟨-, loops⟩)
  · cases loops with
    | here stuck => exact absurd stuck.before (Nat.not_lt.mpr ended)
    | later steps _ => exact absurd steps.before (Nat.not_lt.mpr ended)
  · exact loops

/-- A block with bytes leads to its end, if that is not noticed. -/
lemma bad_after (before : cursor < s.size) (inside : cursor / block < s.blocks.count)
    (some : (s.blocks.opened block cursor).content ≠ []) :
    s.Bad block rest cursor ↔
      (s.size ≤ s.blocks.after block cursor ∨
        (s.blocks.opened block cursor).together = true ∨
        s.blocks.after block cursor % block = 0) ∧
      s.Bad block rest (s.blocks.after block cursor) := by
  constructor
  · rintro (loops | ⟨finishes, loops⟩)
    · cases loops with
      | here stuck => exact absurd stuck.empty some
      | later steps next => exact ⟨.inr steps.closes, .inl next⟩
    · cases finishes with
      | here final =>
        cases final with
        | done ended => exact absurd before (Nat.not_lt.mpr ended)
        | last _ _ ends => exact ⟨.inl ends, .inr ⟨.here (.done ends), loops⟩⟩
      | later steps next => exact ⟨.inr steps.closes, .inr ⟨next, loops⟩⟩
  · rintro ⟨closes, bad⟩
    by_cases ends : s.size ≤ s.blocks.after block cursor
    · exact .inr ⟨.here (.last inside some ends), (bad_of_end ends).mp bad⟩
    · have steps : s.Steps block cursor :=
        ⟨before, inside, some, Nat.not_le.mp ends, closes.resolve_left ends⟩
      rcases bad with loops | ⟨finishes, loops⟩
      · exact .inl (.later steps loops)
      · exact .inr ⟨.later steps finishes, loops⟩

/-- Nothing leads on from an empty block, unless it is stuck. -/
lemma bad_of_empty (before : cursor < s.size)
    (none : (s.blocks.opened block cursor).content = []) :
    s.Bad block rest cursor ↔ s.Stuck block cursor := by
  refine ⟨?_, fun stuck => .inl (.here stuck)⟩
  rintro (loops | ⟨finishes, -⟩)
  · cases loops with
    | here stuck => exact stuck
    | later steps _ => exact absurd none steps.some
  · cases finishes with
    | here final =>
      cases final with
      | done ended => exact absurd before (Nat.not_lt.mpr ended)
      | last _ some _ => exact absurd none some
    | later steps _ => exact absurd none steps.some

lemma not_bad_of_absent (before : cursor < s.size) (outside : s.blocks.count ≤ cursor / block) :
    ¬s.Bad block rest cursor := by
  have absent := Nat.not_lt.mpr outside
  rintro (loops | ⟨finishes, -⟩)
  · cases loops with
    | here stuck => exact absent stuck.inside
    | later steps _ => exact absent steps.inside
  · cases finishes with
    | here final =>
      cases final with
      | done ended => exact absurd before (Nat.not_lt.mpr ended)
      | last inside _ _ => exact absent inside
    | later steps _ => exact absent steps.inside

/-! ## One read of a source -/

/-- Where reading on from a reader leads. -/
def LeadsFrom (s : DamagedSource) (block : Nat) (rest : List DamagedSource) (cursor : Nat)
    (g : FileStream) : Prop :=
  match g.tmpReader with
  | none => s.Bad block rest cursor
  | some r =>
    (s.size ≤ cursor + r.content.length ∨ r.together = true ∨
      (cursor + r.content.length) % block = 0) ∧
    s.Bad block rest (cursor + r.content.length)

/-- The reader of a source at a cursor, without a block or in one. -/
inductive ReaderAt (s : DamagedSource) (cursor : Nat) (g : FileStream) : Prop
  | closed (closed : DamagedBlocks.Closed g s.size cursor)
  | inBlock {r : Reader} (opened : DamagedBlocks.Open g s.size cursor r) (brisk : r.Brisk)
      (moved : 0 < cursor) (together : r.together = true → r.content ≠ [])

end DamagedSource

namespace Go.Reader

lemma together_read (r : Reader) (size : Nat) : (r.read size).next.together = r.together := by
  obtain ⟨pieces, ending, together⟩ := r
  cases pieces with
  | nil => rfl
  | cons piece rest => rfl

lemma together_of_data {r : Reader} {size : Nat} {ending : ReadEnd}
    (ended : (r.read size).err = some ending) (some : (r.read size).data ≠ []) :
    r.together = true := by
  obtain ⟨pieces, last, together⟩ := r
  cases pieces with
  | nil => exact absurd rfl some
  | cons piece rest =>
    simp only [Reader.read, Option.ite_none_right_eq_some] at ended
    exact ended.1.1

/-- A reader that ends with its last bytes has bytes until it ends. -/
lemma Brisk.content_next {r : Reader} (brisk : r.Brisk) {size : Nat} (together : r.together = true)
    (goesOn : (r.read size).err = none) : (r.read size).next.content ≠ [] := by
  have later := brisk.next size
  obtain ⟨pieces, last, flag⟩ := r
  cases pieces with
  | nil => cases goesOn
  | cons piece rest =>
    simp only [Reader.read, ite_eq_right_iff, reduceCtorEq, imp_false, not_and] at goesOn
    have left := goesOn together
    simp only [Reader.read] at later ⊢
    intro none
    rw [Reader.content, List.flatten_eq_nil_iff] at none
    obtain ⟨first, member⟩ := List.exists_mem_of_ne_nil _ left
    exact later first member (none first member)

end Go.Reader

namespace DamagedSource

variable {s : DamagedSource} {block cursor : Nat} {rest sources back front : List DamagedSource}
  {io : BlockIO β} {blocks : β} {b2f : Int → Except StreamErr Text} {g : FileStream}
  {f : CompositeStream} {fate : Prop}

/-- The outcomes of a read of a source. -/
inductive SourceRead (io : BlockIO β) (blocks : β) (b2f : Int → Except StreamErr Text)
    (s : DamagedSource) (block : Nat) (rest : List DamagedSource) (cursor : Nat) (g : FileStream)
    (request : Nat) : Prop
  | failed {err : StreamErr} (run : g.read io blocks b2f request = (([], some err), g))
      (noEnd : err ≠ .eof) (noFuel : err ≠ .unfinished) (safe : ¬s.LeadsFrom block rest cursor g)
  | empty {g' : FileStream} (run : g.read io blocks b2f request = (([], none), g'))
      (opened : g'.isOpen = true) (fsize : g'.fsize = s.size)
      (fate : s.LeadsFrom block rest cursor g ↔
        0 < cursor ∧ cursor % block = 0 ∧ s.Bad block rest cursor)
      (held : g.tmpReader = none → s.Bad block rest cursor ∨ ¬(0 < cursor ∧ cursor % block = 0))
  | some {data : List Byte} {g' : FileStream}
      (run : g.read io blocks b2f request = ((data, none), g')) (nonempty : data ≠ [])
      (fits : data.length ≤ request) (reader : s.ReaderAt (cursor + data.length) g')
      (fate : s.LeadsFrom block rest cursor g ↔
        if s.size ≤ cursor + data.length then LoopsIn block rest
        else s.LeadsFrom block rest (cursor + data.length) g')

lemma sourceRead_some {r : Reader} (opened : g.isOpen = true) (fsized : g.fsize = s.size)
    (here : g.cursor = cursor) (current : g.currentReader io blocks b2f = .ok r)
    (ending : r.ending = .eof) (brisk : r.Brisk) (nonempty : r.content ≠ [])
    (fate : s.LeadsFrom block rest cursor g ↔
      (s.size ≤ cursor + r.content.length ∨ r.together = true ∨
        (cursor + r.content.length) % block = 0) ∧
      s.Bad block rest (cursor + r.content.length)) {request : Nat} (positive : 0 < request) :
    SourceRead io blocks b2f s block rest cursor g request := by
  have data : (r.read request).data ≠ [] := fun none => nonempty (brisk.content_nil positive none)
  have split : r.content = (r.read request).data ++ (r.read request).next.content :=
    Reader.splits r request
  have length : cursor + (r.read request).data.length + (r.read request).next.content.length =
      cursor + r.content.length := by rw [split, List.length_append, Nat.add_assoc]
  have longer := List.length_pos_of_ne_nil data
  obtain ⟨got, outcome⟩ :=
    DamagedBlocks.read_reader opened fsized here current ending request
  refine .some (Prod.ext got rfl) data (Reader.read_length r request) ?_ ?_
  · rcases outcome with ⟨ended, closed⟩ | ⟨goesOn, open₂⟩
    · have empty := (Reader.read_ending ended).2
      rw [empty, List.length_nil, Nat.add_zero] at length
      rw [length]
      exact .closed closed
    · exact .inBlock open₂ (brisk.next request) (by omega) fun together =>
        brisk.content_next (by rwa [Reader.together_read] at together) goesOn
  · rw [fate]
    split_ifs with ended
    · have whole : s.size ≤ cursor + r.content.length := by omega
      rw [bad_of_end whole]
      exact ⟨fun both => both.2, fun loops => ⟨.inl whole, loops⟩⟩
    · rcases outcome with ⟨stop, closed⟩ | ⟨goesOn, open₂⟩
      · have empty := (Reader.read_ending stop).2
        rw [empty, List.length_nil, Nat.add_zero] at length
        rw [LeadsFrom, closed.reader]
        simp only [length]
        exact ⟨fun both => both.2, fun bad =>
          ⟨.inr (.inl (Reader.together_of_data stop data)), bad⟩⟩
      · rw [LeadsFrom, open₂.reader]
        simp only [length, Reader.together_read]

lemma sourceRead_empty {r : Reader} (opened : g.isOpen = true) (fsized : g.fsize = s.size)
    (here : g.cursor = cursor) (current : g.currentReader io blocks b2f = .ok r)
    (ending : r.ending = .eof) (nothing : r.content = []) (fate : s.LeadsFrom block rest cursor g ↔
      0 < cursor ∧ cursor % block = 0 ∧ s.Bad block rest cursor)
    (held : g.tmpReader = none → s.Bad block rest cursor ∨ ¬(0 < cursor ∧ cursor % block = 0))
    (request : Nat) : SourceRead io blocks b2f s block rest cursor g request := by
  obtain ⟨got, outcome⟩ :=
    DamagedBlocks.read_reader opened fsized here current ending request
  have data : (r.read request).data = [] := by
    have split : r.content = _ ++ _ := Reader.splits r request
    rw [nothing] at split
    exact (List.append_eq_nil_iff.mp split.symm).1
  rw [data] at got
  rcases outcome with ⟨-, closed⟩ | ⟨-, open₂⟩
  · exact .empty (Prod.ext got rfl) closed.opened closed.fsize fate held
  · exact .empty (Prod.ext got rfl) open₂.opened open₂.fsize fate held

lemma readerAt_sourceRead (returned : DamagedBlocks.Returned io blocks b2f block s.blocks)
    (prompt : io.Prompt) (reader : s.ReaderAt cursor g) (before : cursor < s.size)
    (rest : List DamagedSource) {request : Nat} (positive : 0 < request) :
    SourceRead io blocks b2f s block rest cursor g request := by
  cases reader with
  | closed closed =>
    have leads : s.LeadsFrom block rest cursor g ↔ s.Bad block rest cursor := by
      rw [LeadsFrom, closed.reader]
    have notEnd : g.cursor ≠ g.fsize := by
      rw [closed.here, closed.fsize]
      exact_mod_cast Nat.ne_of_lt before
    have opens : g.currentReader io blocks b2f = g.openCurrentPart io blocks b2f := by
      rw [FileStream.currentReader, closed.reader]
    by_cases inside : cursor / block < s.blocks.count
    · have current := opens.trans (returned.openCurrentPart closed.here notEnd inside)
      by_cases empty : (s.blocks.opened block cursor).content = []
      · refine sourceRead_empty closed.opened closed.fsize closed.here current
          (returned.ending _ _) empty ?_ (fun _ => ?_) request
        · rw [leads]
          refine ⟨fun bad => ?_, fun all => all.2.2⟩
          have stuck := (bad_of_empty before empty).mp bad
          exact ⟨stuck.moved, stuck.aligned, bad⟩
        · by_cases boundary : 0 < cursor ∧ cursor % block = 0
          · exact .inl ((bad_of_empty before empty).mpr
              ⟨boundary.1, boundary.2, before, inside, empty⟩)
          · exact .inr boundary
      · refine sourceRead_some closed.opened closed.fsize closed.here current
          (returned.ending _ _) (returned.brisk prompt inside empty) empty ?_ positive
        rw [leads]
        exact bad_after before inside empty
    · obtain ⟨err, failed, noEnd, noFuel⟩ :=
        returned.openCurrentPart_absent closed.here notEnd (Nat.not_lt.mp inside)
      refine .failed ?_ noEnd noFuel ?_
      · rw [FileStream.read, if_neg (by simp [closed.opened]), opens, failed]
      · rw [leads]
        exact not_bad_of_absent before (Nat.not_lt.mp inside)
  | @inBlock r opened brisk moved together =>
    have current : g.currentReader io blocks b2f = .ok r := by
      rw [FileStream.currentReader, opened.reader]
    have leads : s.LeadsFrom block rest cursor g ↔
        (s.size ≤ cursor + r.content.length ∨ r.together = true ∨
          (cursor + r.content.length) % block = 0) ∧
        s.Bad block rest (cursor + r.content.length) := by
      rw [LeadsFrom, opened.reader]
    by_cases empty : r.content = []
    · refine sourceRead_empty opened.opened opened.fsize opened.here current opened.ending empty ?_
        (fun none => by rw [opened.reader] at none; cases none) request
      rw [leads, empty, List.length_nil, Nat.add_zero]
      refine ⟨fun both => ⟨moved, ?_, both.2⟩, fun all => ⟨.inr (.inr all.2.1), all.2.2⟩⟩
      rcases both.1 with ended | flag | aligned
      · exact absurd before (Nat.not_lt.mpr ended)
      · exact absurd empty (together flag)
      · exact aligned
    · exact sourceRead_some opened.opened opened.fsize opened.here current opened.ending brisk empty
        leads positive

/-! ## The stream of the composite File -/

/-- The declared size of sources. -/
def total (sources : List DamagedSource) : Nat := (joined (sources.map declared)).length

lemma total_append (front back : List DamagedSource) :
    total (front ++ back) = total front + total back := by
  simp [total, joined]

lemma total_cons (s : DamagedSource) (rest : List DamagedSource) :
    total (s :: rest) = s.size + total rest := by
  simp [total, joined, declared]

/-- The segment of a source after others. -/
def segment (front : List DamagedSource) (s : DamagedSource) : CompositeSegment :=
  ⟨front.length, s.fileID, s.size, total front⟩

/-- The stream of the File when it is opened. -/
def stream (sources : List DamagedSource) : CompositeStream := ofSources (sources.map declared)

/-- The stream is at a cursor of a source, with the reader of the source. -/
structure Inside (sources : List DamagedSource) (f : CompositeStream) (front : List DamagedSource)
    (s : DamagedSource) (back : List DamagedSource) (cursor : Nat) (g : FileStream) : Prop where
  opened : f.isOpen = true
  segments : f.segments = segmentsFrom 0 0 (sources.map declared)
  sized : f.size = total sources
  split : sources = front ++ s :: back
  here : f.offset = (total front + cursor : Nat)
  before : cursor < s.size
  source : f.openSegment front.length (segment front s) = .ok g
  reader : s.ReaderAt cursor g
  held : g.tmpReader ≠ none → f.current = some (front.length, g)

/-- The stream is at the end, or in a source; and whether it will loop. -/
inductive Stage (sources : List DamagedSource) (block : Nat) (f : CompositeStream)
  (fate : Prop) : Prop
  | ended (opened : f.isOpen = true) (sized : f.size = total sources) (here : f.offset = f.size)
      (safe : ¬fate)
  | inside {front : List DamagedSource} {s : DamagedSource} {back : List DamagedSource}
      {cursor : Nat} {g : FileStream} (inside : Inside sources f front s back cursor g)
      (leads : s.LeadsFrom block back cursor g ↔ fate)

/-- At the start of a source the stream goes on with the next source that has bytes. -/
lemma stage_start (front : List DamagedSource) (opened : f.isOpen = true)
    (segments : f.segments = segmentsFrom 0 0 (sources.map declared))
    (sized : f.size = total sources) (split : sources = front ++ back)
    (here : f.offset = total front) (none : f.current = none) (leads : LoopsIn block back ↔ fate) :
    Stage sources block f fate := by
  induction back generalizing front with
  | nil =>
    refine .ended opened sized ?_ fun loops => by cases leads.mpr loops
    rw [here, sized, split, List.append_nil]
  | cons s back ih =>
    by_cases zero : s.size = 0
    · refine ih (front ++ [s]) ?_ ?_ ?_
      · rw [split, List.append_assoc, List.singleton_append]
      · rw [here, total_append, total_cons, zero]
        rfl
      · rw [← leads, bad_zero_iff, bad_of_end (by omega)]
    · refine .inside (g := FileStream.newFileStream s.size) ⟨opened, segments, sized, split, here,
        Nat.pos_of_ne_zero zero, ?_, .closed (DamagedBlocks.closed_newFileStream s.size), ?_⟩ ?_
      · rw [CompositeStream.openSegment, none]
        simp only [openSegment.opened, segment, here, Int.sub_self, if_true]
      · exact fun some => absurd rfl some
      · rw [← leads, bad_zero_iff]
        rfl

lemma stage_stream (sources : List DamagedSource) (block : Nat) :
    Stage sources block (stream sources) (LoopsIn block sources) :=
  stage_start [] rfl rfl rfl rfl rfl rfl Iff.rfl

lemma segmentAt_split (front : List (Nat × List Byte)) (index start fileID : Nat)
    {bytes : List Byte} (back : List (Nat × List Byte)) (inside : cursor < bytes.length) :
    (segmentsFrom index start (front ++ (fileID, bytes) :: back)).findIdx?
        (fun segment => ((start + (joined front).length + cursor : Nat) : Int) <
          segment.start + segment.size) = some front.length ∧
      (segmentsFrom index start (front ++ (fileID, bytes) :: back))[front.length]? =
        some ⟨index + front.length, fileID, bytes.length,
          (start + (joined front).length : Nat)⟩ := by
  induction front generalizing index start with
  | nil =>
    refine ⟨?_, by simp [segmentsFrom, joined]⟩
    rw [List.nil_append, segmentsFrom, List.findIdx?_cons, if_pos]
    · rfl
    · simp only [joined, List.flatMap_nil, List.length_nil, decide_eq_true_eq]
      omega
  | cons source front ih =>
    obtain ⟨other, more⟩ := source
    have length : (joined ((other, more) :: front)).length =
        more.length + (joined front).length := by simp [joined]
    obtain ⟨found, placed⟩ := ih (index + 1) (start + more.length)
    rw [List.cons_append, segmentsFrom, length]
    constructor
    · rw [List.findIdx?_cons, if_neg, ← Nat.add_assoc start, found]
      · rfl
      · simp only [decide_eq_true_eq]
        omega
    · rw [List.length_cons, List.getElem?_cons_succ, placed]
      congr 2
      · omega
      · rw [← Nat.add_assoc]

lemma Inside.segmentAt (inside : Inside sources f front s back cursor g) :
    f.segmentAt f.offset = some front.length ∧
      f.segments[front.length]? = some (segment front s) := by
  have before : cursor < (List.replicate s.size (0 : Byte)).length := by
    rw [List.length_replicate]
    exact inside.before
  have found := segmentAt_split (front.map declared) 0 0 s.fileID (back.map declared) before
  have same : sources.map declared =
      front.map declared ++ (s.fileID, List.replicate s.size 0) :: back.map declared := by
    rw [inside.split, List.map_append, List.map_cons]
    rfl
  rw [← same, List.length_map, List.length_replicate, ← inside.segments] at found
  simp only [Nat.zero_add] at found
  refine ⟨?_, found.2⟩
  rw [CompositeStream.segmentAt, inside.here]
  exact found.1

lemma Inside.total_eq (inside : Inside sources f front s back cursor g) :
    total sources = total front + s.size + total back := by
  rw [inside.split, total_append, total_cons, Nat.add_assoc]

/-- The outcome of a round of the loop of a read. -/
inductive Round (sources : List DamagedSource) (block buffer : Nat) (f : CompositeStream)
    (fate : Prop) (got : (List Byte × Option StreamErr) × CompositeStream) : Prop
  | failed {err : StreamErr} (error : got.1.2 = some err) (noEnd : err ≠ .eof)
      (noFuel : err ≠ .unfinished) (safe : ¬fate)
  | goesOn (run : got.1.2 = none) (fits : got.1.1.length ≤ buffer)
      (stage : Stage sources block got.2 fate) (moved : got.2.offset = f.offset + got.1.1.length)
      (lighter : fate ∨ got.2.weight < f.weight)

/-- A source that returned nothing is set to the block at the cursor, or the read fails. -/
lemma Inside.round_empty {g' : FileStream} (buffer : Nat) (blockSize : io.maxFileSize = block)
    (positive : 0 < block) (inside : Inside sources f front s back cursor g)
    (leads : s.LeadsFrom block back cursor g ↔ fate) (opened : g'.isOpen = true)
    (fsize : g'.fsize = s.size) (only : s.LeadsFrom block back cursor g ↔
      0 < cursor ∧ cursor % block = 0 ∧ s.Bad block back cursor)
    (held : g.tmpReader = none → s.Bad block back cursor ∨ ¬(0 < cursor ∧ cursor % block = 0)) :
    Round sources block buffer f fate
      (f.afterRead io front.length (segment front s) (([], none), g')) := by
  have before := inside.before
  have place : f.offset + (([] : List Byte).length : Int) = (total front + cursor : Nat) := by
    rw [inside.here, List.length_nil]
    rfl
  have short : f.offset + (([] : List Byte).length : Int) <
      (segment front s).start + (segment front s).size := by
    rw [place]
    simp only [segment]
    omega
  have position : f.offset + (([] : List Byte).length : Int) -
    (segment front s).start = cursor := by
    rw [place]
    simp only [segment]
    omega
  rw [afterRead]
  simp only [Option.filter_none]
  simp only [if_pos (And.intro trivial short), advancePhysicalBoundary, position, blockSize]
  by_cases boundary : 0 < cursor ∧ cursor % block = 0
  · have valid : ¬((block : Int) ≤ 0 ∨ (cursor : Int) ≤ 0 ∨ (cursor : Int).tmod block ≠ 0) := by
      have zero : (cursor : Int) % (block : Int) = 0 := by exact_mod_cast boundary.2
      rw [Int.tmod_eq_emod_of_nonneg (Int.natCast_nonneg _)]
      omega
    have seeked : g'.seek cursor .start =
        (.ok (cursor : Int), { g' with tmpReader := none, cursor := cursor }) := by
      rw [FileStream.seek, if_neg (by simp [opened])]
      refine (if_neg (Int.not_lt.mpr (Int.natCast_nonneg _))).trans (if_neg ?_)
      simp only [fsize, Whence.target]
      omega
    rw [if_neg valid, seeked]
    have bad : s.Bad block back cursor ↔ fate := by
      rw [← leads, only]
      exact ⟨fun bad => ⟨boundary.1, boundary.2, bad⟩, fun all => all.2.2⟩
    refine .goesOn rfl (Nat.zero_le _)
      (.inside (g := { g' with tmpReader := none, cursor := cursor })
        ⟨inside.opened, inside.segments,
        inside.sized, inside.split, place, before, ?_, .closed ⟨opened, fsize, rfl, rfl⟩,
        fun some => absurd rfl some⟩ bad) rfl ?_
    · simp only [CompositeStream.openSegment, if_true]
    · by_cases none : g.tmpReader = none
      · exact .inl (bad.mp ((held none).resolve_right (not_not.mpr boundary)))
      · refine .inr ?_
        have used : g.tmpReader.isSome = true := Option.isSome_iff_ne_none.mpr none
        simp only [weight, inside.held none, Option.any_some, used, Option.isSome_none, if_true,
          List.length_nil, Int.natCast_zero, Int.add_zero, Bool.false_eq_true, if_false]
        omega
  · have invalid : (block : Int) ≤ 0 ∨ (cursor : Int) ≤ 0 ∨ (cursor : Int).tmod block ≠ 0 := by
      rw [Int.tmod_eq_emod_of_nonneg (Int.natCast_nonneg _)]
      by_cases moved : 0 < cursor
      · refine .inr (.inr fun zero => boundary ⟨moved, ?_⟩)
        exact_mod_cast zero
      · omega
    rw [if_pos invalid]
    refine .failed rfl (by decide) (by decide) ?_
    rw [← leads, only]
    exact fun all => boundary ⟨all.1, all.2.1⟩

/-- After bytes the stream goes on in the source, or with the next one. -/
lemma Inside.round_some {buffer : Nat} {g' : FileStream} {data : List Byte} (io : BlockIO β)
    (inside : Inside sources f front s back cursor g)
    (leads : s.LeadsFrom block back cursor g ↔ fate) (nonempty : data ≠ [])
    (fits : data.length ≤ min buffer (s.size - cursor))
    (reader : s.ReaderAt (cursor + data.length) g') (next : s.LeadsFrom block back cursor g ↔
      if s.size ≤ cursor + data.length then LoopsIn block back
      else s.LeadsFrom block back (cursor + data.length) g') :
    Round sources block buffer f fate
      (f.afterRead io front.length (segment front s) ((data, none), g')) := by
  have before := inside.before
  have longer := List.length_pos_of_ne_nil nonempty
  have place : f.offset + (data.length : Int) = (total front + (cursor + data.length) : Nat) := by
    rw [inside.here]
    omega
  have short := Nat.le_trans fits (Nat.min_le_right _ _)
  have lighter : ∀ current,
      ({ f with offset := f.offset + (data.length : Int), current } : CompositeStream).weight <
        f.weight := by
    intro current
    have whole := inside.total_eq
    simp only [weight, inside.sized, inside.here]
    split_ifs <;> omega
  rw [afterRead]
  simp only [Option.filter_none]
  rw [if_neg fun both => nonempty both.1]
  by_cases ended : s.size ≤ cursor + data.length
  · have last : f.offset + (data.length : Int) =
        (segment front s).start + (segment front s).size := by
      rw [place]
      simp only [segment]
      omega
    rw [if_pos last]
    rw [if_pos ended] at next
    refine .goesOn rfl (Nat.le_trans fits (Nat.min_le_left _ _)) (stage_start (front ++ [s])
      inside.opened inside.segments inside.sized ?_ ?_ rfl (next.symm.trans leads)) rfl
      (.inr (lighter none))
    · rw [inside.split, List.append_assoc, List.singleton_append]
    · rw [total_append, total_cons, show total [] = 0 from rfl]
      simp only [closeCurrent, place]
      omega
  · have later : ¬f.offset + (data.length : Int) =
        (segment front s).start + (segment front s).size := by
      rw [place]
      simp only [segment]
      omega
    rw [if_neg later]
    rw [if_neg ended] at next
    refine .goesOn rfl (Nat.le_trans fits (Nat.min_le_left _ _)) (.inside ⟨inside.opened,
      inside.segments, inside.sized, inside.split, place, by omega, ?_, reader, fun _ => rfl⟩
      (next.symm.trans leads)) rfl (.inr (lighter _))
    simp only [CompositeStream.openSegment, if_true]

lemma Inside.round {st : Storage β} {buffer : Nat}
    (returned : DamagedBlocks.Returned io st.blocks (Storage.blockKey st.store s.fileID) block
      s.blocks) (prompt : io.Prompt) (inside : Inside sources f front s back cursor g)
    (leads : s.LeadsFrom block back cursor g ↔ fate) (positive : 0 < buffer) :
    Round sources block buffer f fate
      (f.readSegment io st front.length (segment front s) buffer) := by
  have before := inside.before
  have remaining : ((segment front s).start + (segment front s).size - f.offset).toNat =
      s.size - cursor := by
    rw [inside.here]
    simp only [segment]
    omega
  rw [readSegment, inside.source]
  simp only [remaining]
  have request : 0 < min buffer (s.size - cursor) := by omega
  cases readerAt_sourceRead returned prompt inside.reader before back request with
  | @failed err run noEnd noFuel safe =>
    have kept : (some err).filter (· ≠ .eof) = some err := by
      simp [Option.filter, noEnd]
    simp only [segment] at run ⊢
    rw [run, afterRead]
    simp only [kept]
    exact .failed rfl noEnd noFuel (leads.not.mp safe)
  | empty run opened fsize only held =>
    have empty := inside.round_empty buffer returned.blockSize returned.positive leads
      opened fsize only held
    simp only [segment] at run empty ⊢
    rw [run]
    exact empty
  | some run nonempty fits reader next =>
    have some := inside.round_some io leads nonempty fits reader next
    simp only [segment] at run some ⊢
    rw [run]
    exact some

/-! ## Reading to an end -/

section
variable {st : Storage β} {sources : List DamagedSource} {f : CompositeStream} {fate : Prop}
  {rounds : Nat}

/-- The backend returns these bytes for the blocks of the sources. -/
def HoldsDamaged (io : BlockIO β) (st : Storage β) (block : Nat) (sources : List DamagedSource) :
    Prop :=
  ∀ s ∈ sources, DamagedBlocks.Returned io st.blocks (Storage.blockKey st.store s.fileID) block
    s.blocks

lemma Stage.sized (stage : Stage sources block f fate) : f.size = total sources := by
  cases stage with
  | ended _ sized _ _ => exact sized
  | inside inside _ => exact inside.sized

lemma Stage.opened (stage : Stage sources block f fate) : f.isOpen = true := by
  cases stage with
  | ended opened _ _ _ => exact opened
  | inside inside _ => exact inside.opened

/-- A round of the loop, before the end of the File. -/
lemma Stage.round (holds : HoldsDamaged io st block sources) (prompt : io.Prompt)
    (stage : Stage sources block f fate) (before : ¬f.size ≤ f.offset) {buffer : Nat}
    (positive : 0 < buffer) :
    ∃ index segment, f.segmentAt f.offset = some index ∧ f.segments[index]? = some segment ∧
      Round sources block buffer f fate (f.readSegment io st index segment buffer) := by
  cases stage with
  | ended _ _ here _ => exact absurd (Int.le_of_eq here.symm) before
  | @inside front s back cursor g inside leads =>
    have member : s ∈ sources := by
      rw [inside.split]
      exact List.mem_append_right _ List.mem_cons_self
    exact ⟨front.length, segment front s, inside.segmentAt.1, inside.segmentAt.2,
      inside.round (holds s member) prompt leads positive⟩

section
variable (holds : HoldsDamaged io st block sources) (prompt : io.Prompt)
  (stage : Stage sources block f fate)
include holds prompt stage

/-- The loop ends when no block loops: with an error, or where it has filled the buffer or come to
the end. -/
lemma Stage.readLoop (safe : ¬fate) (enough : f.weight ≤ rounds) (left : Nat) :
    ∃ got, CompositeStream.readLoop io st rounds f left = some got ∧
      got.1.2 ≠ some .unfinished ∧
      (got.1.2 = none → Stage sources block got.2 fate ∧
        got.2.offset = f.offset + got.1.1.length ∧
        (left ≤ got.1.1.length ∨ f.size ≤ got.2.offset)) := by
  induction rounds generalizing f left with
  | zero =>
    cases left with
    | zero => exact ⟨_, rfl, by simp, fun _ => ⟨stage, by simp, .inl (Nat.le_refl _)⟩⟩
    | succ left =>
      have ended : f.size ≤ f.offset := by
        rw [weight] at enough
        omega
      refine ⟨_, if_pos ended, by simp, fun _ => ⟨stage, by simp, .inr ended⟩⟩
  | succ rounds ih =>
    cases left with
    | zero => exact ⟨_, rfl, by simp, fun _ => ⟨stage, by simp, .inl (Nat.le_refl _)⟩⟩
    | succ left =>
      by_cases ended : f.size ≤ f.offset
      · exact ⟨_, if_pos ended, by simp, fun _ => ⟨stage, by simp, .inr ended⟩⟩
      · obtain ⟨index, segment, found, placed, round⟩ :=
          stage.round holds prompt ended (Nat.succ_pos left)
        rw [CompositeStream.readLoop, if_neg ended]
        simp only [found, placed]
        cases round with
        | failed error noEnd noFuel _ =>
          simp only [error]
          exact ⟨_, rfl, fun same => noFuel (Option.some.inj same), by simp⟩
        | goesOn run fits next moved lighter =>
          have less := lighter.resolve_left safe
          obtain ⟨got, rest, fuel, outcome⟩ := ih next (by omega)
            (left + 1 - (f.readSegment io st index segment (left + 1)).1.1.length)
          simp only [run, rest, Option.map_some]
          refine ⟨_, rfl, fuel, fun none => ?_⟩
          obtain ⟨after, place, full⟩ := outcome none
          refine ⟨after, ?_, ?_⟩
          · rw [place, moved, List.length_append, Int.natCast_add, Int.add_assoc]
          · rw [List.length_append, stage.sized, ← next.sized]
            rcases full with full | full
            · exact .inl (by omega)
            · exact .inr full

/-- Where a block loops, a loop that ends has come closer to it. -/
lemma Stage.readLoop_loops (loops : fate) {left : Nat}
    {got : (List Byte × Option StreamErr) × CompositeStream}
    (run : CompositeStream.readLoop io st rounds f left = some got) :
    got.1.2 = none ∧ Stage sources block got.2 fate := by
  induction rounds generalizing f left got with
  | zero =>
    cases left with
    | zero =>
      obtain rfl := Option.some.inj run
      exact ⟨rfl, stage⟩
    | succ left =>
      rw [CompositeStream.readLoop] at run
      split_ifs at run with ended
      obtain rfl := Option.some.inj run
      exact ⟨rfl, stage⟩
  | succ rounds ih =>
    cases left with
    | zero =>
      obtain rfl := Option.some.inj run
      exact ⟨rfl, stage⟩
    | succ left =>
      by_cases ended : f.size ≤ f.offset
      · rw [CompositeStream.readLoop, if_pos ended] at run
        obtain rfl := Option.some.inj run
        exact ⟨rfl, stage⟩
      · obtain ⟨index, segment, found, placed, round⟩ :=
          stage.round holds prompt ended (Nat.succ_pos left)
        rw [CompositeStream.readLoop, if_neg ended] at run
        simp only [found, placed] at run
        cases round with
        | failed _ _ _ safe => exact absurd loops safe
        | goesOn none _ next _ _ =>
          simp only [none, Option.map_eq_some_iff] at run
          obtain ⟨later, rest, rfl⟩ := run
          obtain ⟨clear, after⟩ := ih next rest
          exact ⟨clear, after⟩

lemma Stage.settles (safe : ¬fate) (enough : 2 * total sources + 1 ≤ rounds)
    (forward : 0 ≤ f.offset) : Settles (CompositeStream.stream io st rounds) (fun _ => True) f := by
  induction left : (f.size - f.offset).toNat using Nat.strongRecOn generalizing f with
  | _ left ih =>
    have opened : ¬f.isOpen = false := by simp [stage.opened]
    by_cases ended : f.offset = f.size
    · have got : ∀ size, 0 < size → (CompositeStream.stream io st rounds).read f size =
          (([], some .eof), f) := by
        intro size positive
        simp only [CompositeStream.stream, CompositeStream.read, if_neg opened,
          if_neg (Nat.pos_iff_ne_zero.mp positive), if_pos ended, Option.getD_some]
      refine .intro (fun size positive => ?_) (fun _ size positive => ?_)
        fun size positive none => ?_
      · simp [got size positive]
      · simp [got size positive]
      · rw [got size positive] at none
        cases none
    · have before : f.offset < f.size := by
        cases stage with
        | ended _ _ here _ => exact absurd here ended
        | inside inside _ =>
          have whole := inside.total_eq
          have place := inside.before
          rw [inside.here, inside.sized]
          omega
      have light : f.weight ≤ rounds := by
        have sized := stage.sized
        rw [weight]
        split_ifs <;> omega
      have reads : ∀ size, 0 < size → ∃ got, (CompositeStream.stream io st rounds).read f size =
          got ∧ got.1.2 ≠ some .unfinished ∧
          (got.1.2 = none → Stage sources block got.2 fate ∧
            got.2.offset = f.offset + got.1.1.length ∧ got.1.1 ≠ []) := by
        intro size positive
        obtain ⟨got, run, fuel, outcome⟩ := stage.readLoop holds prompt safe light size
        refine ⟨got, ?_, fuel, fun none => ?_⟩
        · simp only [CompositeStream.stream, CompositeStream.read, if_neg opened,
            if_neg (Nat.pos_iff_ne_zero.mp positive), if_neg ended, run, Option.getD_some]
        · obtain ⟨after, place, full⟩ := outcome none
          refine ⟨after, place, fun empty => ?_⟩
          rw [empty, List.length_nil] at place full
          omega
      refine .intro (fun size positive => ?_) (fun _ size positive same => ?_)
        fun size positive none => ?_
      · obtain ⟨got, run, fuel, -⟩ := reads size positive
        rw [run]
        exact fuel
      · obtain ⟨got, run, -, outcome⟩ := reads size positive
        rw [run] at same
        exact (outcome (congrArg Prod.snd same)).2.2 (congrArg Prod.fst same)
      · obtain ⟨got, run, -, outcome⟩ := reads size positive
        rw [run] at none ⊢
        obtain ⟨after, place, some⟩ := outcome none
        have longer := List.length_pos_of_ne_nil some
        have sized := after.sized.trans stage.sized.symm
        exact ih _ (by omega) after (by omega) rfl

lemma Stage.not_settles (loops : fate) (rounds : Nat) :
    ¬Settles (CompositeStream.stream io st rounds) (fun _ => True) f := by
  intro settles
  induction settles with
  | @intro f returns moves later ih =>
    have opened : ¬f.isOpen = false := by simp [stage.opened]
    have before : f.offset ≠ f.size := by
      cases stage with
      | ended _ _ _ safe => exact absurd loops safe
      | inside inside _ =>
        have whole := inside.total_eq
        have place := inside.before
        rw [inside.here, inside.sized]
        omega
    have read : (CompositeStream.stream io st rounds).read f 1 =
        (CompositeStream.readLoop io st rounds f 1).getD (([], some .unfinished), f) := by
      simp only [CompositeStream.stream, CompositeStream.read, if_neg opened, if_neg before,
        Nat.one_ne_zero, if_false]
    cases run : CompositeStream.readLoop io st rounds f 1 with
    | none =>
      refine returns 1 Nat.one_pos ?_
      rw [read, run]
      rfl
    | some got =>
      obtain ⟨none, next⟩ := stage.readLoop_loops holds prompt loops run
      rw [run, Option.getD_some] at read
      exact ih 1 Nat.one_pos (by rw [read]; exact none) (by rw [read]; exact next)

end

/-- Reading a composite File comes to an end exactly when no source has an empty block at a multiple
of the block size. -/
lemma HoldsDamaged.settles_iff (holds : HoldsDamaged io st block sources) (prompt : io.Prompt) :
    (∃ rounds, Settles (CompositeStream.stream io st rounds) (fun _ => True) (stream sources)) ↔
      ¬LoopsIn block sources := by
  have stage := stage_stream sources block
  constructor
  · rintro ⟨rounds, settles⟩ loops
    exact stage.not_settles holds prompt loops rounds settles
  · intro safe
    exact ⟨_, stage.settles holds prompt safe (Nat.le_refl _) (Int.le_refl 0)⟩

end

end DamagedSource

/-- Reading of damaged blocks comes to an end, for a physical File when no block is opened where it
has nothing left, for a composite File when no source has an empty block at a multiple of the block
size. -/
theorem damaged_reading_ends_iff {io : BlockIO β} (prompt : io.Prompt)
    (st : Storage β) (block : Nat) :
    (∀ (fileID fsize : Nat) (d : DamagedBlocks),
      d.Returned io st.blocks (Storage.blockKey st.store fileID) block →
      (Settles (FileStream.stream io st.blocks (Storage.blockKey st.store fileID))
          (fun g => g.handle = false) (FileStream.newFileStream fsize) ↔
        ¬d.Stalls block fsize 0)) ∧
    ∀ sources, DamagedSource.HoldsDamaged io st block sources →
      ((∃ rounds, Settles (CompositeStream.stream io st rounds) (fun _ => True)
          (DamagedSource.stream sources)) ↔
        ¬DamagedSource.LoopsIn block sources) :=
  ⟨fun _ fsize _ returned => returned.settles_iff prompt fsize,
    fun _ holds => holds.settles_iff prompt⟩

open BlockIO

/-- A File of two blocks of four bytes, the last of which is as it comes. -/
def twoBlocks (last : List Byte) : Storage MemBlocks :=
  ⟨{ Store.empty with parts := [⟨7, 0, ['a'], [], 4, 0, 0⟩, ⟨7, 1, ['b'], [], 4, 0, 0⟩] },
    [(['a'], [1, 2, 3, 4]), (['b'], last)], [], []⟩

/-- What its blocks hold. -/
def twoBlocksRead (last : List Byte) : DamagedBlocks where
  count := 2
  reader index pos := Reader.ofBytes ((if index = 0 then [1, 2, 3, 4] else last).drop pos)

lemma twoBlocks_returned (last : List Byte) :
    (twoBlocksRead last).Returned (newMemBackend 4 8 1) (twoBlocks last).blocks
      (Storage.blockKey (twoBlocks last).store 7) 4 where
  blockSize := rfl
  positive := by decide
  few := show 2 ≤ Store.maxFilePartCount.toNat by decide
  present index inside := by
    match index, inside with
    | 0, _ => exact ⟨['a'], rfl, fun _ => rfl⟩
    | 1, _ => exact ⟨['b'], rfl, fun _ => rfl⟩
  absent index outside := by
    have two : 2 ≤ index := outside
    have none : (twoBlocks last).store.parts.find?
        (fun part => part.fileID = 7 ∧ (part.filePartID : Int) = index) = none := by
      rw [List.find?_eq_none]
      intro part member
      simp only [twoBlocks, List.mem_cons, List.not_mem_nil, or_false] at member
      rcases member with rfl | rfl
      · simp only [decide_eq_true_eq]
        omega
      · simp only [decide_eq_true_eq]
        omega
    rw [Storage.blockKey, none]
  ending _ _ := rfl

/-- An empty last block is read for ever, in both layouts. -/
theorem emptyBlock_endless :
    ¬Settles (FileStream.stream (newMemBackend 4 8 1) (twoBlocks []).blocks
        (Storage.blockKey (twoBlocks []).store 7)) (fun g => g.handle = false)
        (FileStream.newFileStream 8) ∧
      ∀ rounds, ¬Settles (CompositeStream.stream (newMemBackend 4 8 1) (twoBlocks []) rounds)
        (fun _ => True) (DamagedSource.stream [⟨7, 8, twoBlocksRead []⟩]) := by
  have returned := twoBlocks_returned []
  have prompt := newMemBackend_prompt 4 8 1
  constructor
  · have stalls : (twoBlocksRead []).Stalls 4 8 0 :=
      .later ⟨by decide, by decide, by decide⟩ (.here ⟨by decide, by decide, by decide⟩)
    exact fun settles => (returned.settles_iff prompt 8).mp settles stalls
  · have holds : DamagedSource.HoldsDamaged (newMemBackend 4 8 1) (twoBlocks []) 4
        [⟨7, 8, twoBlocksRead []⟩] := by
      intro s member
      obtain rfl := List.mem_singleton.mp member
      exact returned
    have loops : DamagedSource.LoopsIn 4 [⟨7, 8, twoBlocksRead []⟩] :=
      .here (.later ⟨by decide, by decide, by decide, by decide, .inr (by decide)⟩
        (.here ⟨by decide, by decide, by decide, by decide, by decide⟩))
    intro rounds settles
    exact (holds.settles_iff prompt).mp ⟨rounds, settles⟩ loops

/-- Blocks that hold their bytes are read to the end, in both layouts. -/
theorem fullBlocks_end :
    Settles (FileStream.stream (newMemBackend 4 8 1) (twoBlocks [5, 6]).blocks
      (Storage.blockKey (twoBlocks [5, 6]).store 7)) (fun g => g.handle = false)
      (FileStream.newFileStream 6) ∧
    ∃ rounds, Settles (CompositeStream.stream (newMemBackend 4 8 1) (twoBlocks [5, 6]) rounds)
      (fun _ => True)
      (DamagedSource.stream [⟨7, 6, twoBlocksRead [5, 6]⟩, ⟨7, 6, twoBlocksRead [5, 6]⟩]) := by
  obtain ⟨physical, composite⟩ :=
    damaged_reading_ends_iff (newMemBackend_prompt 4 8 1) (twoBlocks [5, 6]) 4
  refine ⟨(physical 7 6 _ (twoBlocks_returned [5, 6])).mpr fun stalls => ?_,
    (composite _ fun s member => ?_).mpr fun loops => ?_⟩
  · cases stalls with
    | here spent => exact absurd spent.2.2 (by decide)
    | later _ stalls =>
      cases stalls with
      | here spent => exact absurd spent.2.2 (by decide)
      | later _ stalls =>
        cases stalls with
        | here spent => exact spent.1 rfl
        | later passes _ => exact passes.1 rfl
  · obtain rfl : s = ⟨7, 6, twoBlocksRead [5, 6]⟩ := by simpa using member
    exact twoBlocks_returned [5, 6]
  · have none : ¬DamagedSource.Loops ⟨7, 6, twoBlocksRead [5, 6]⟩ 4 0 := by
      intro loops
      cases loops with
      | here stuck => exact absurd stuck.moved (by decide)
      | later _ loops =>
        cases loops with
        | here stuck => exact absurd stuck.empty (by decide)
        | later steps _ => exact absurd steps.short (by decide)
    cases loops with
    | here loops => exact none loops
    | later _ loops =>
      cases loops with
      | here loops => exact none loops
      | later _ loops => cases loops

end TgFile
