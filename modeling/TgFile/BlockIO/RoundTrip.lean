import TgFile.BlockIO.CreateFile
import TgFile.BlockIO.FileStream
import TgFile.Cache.Load

/-! # What was stored is what is read

`OpenFile` of `filemgr/file_manager_impl.go`, and the round trip from `CreateFile` to the stream
that it returns: the loop cuts the bytes of its reader into blocks, the rows it adds name these
blocks in order, and the stream finds the block of a cursor among them. -/

namespace TgFile.Storage

open Go

variable {β σ : Type}

/-! ## Opening -/

/-- The conversion of a block index into the key of the block, from `lowlevelIOStream`. -/
def blockKey (s : Store) (fileID : Nat) (index : Int) : Except StreamErr Text :=
  match s.parts.find? fun part => part.fileID = fileID ∧ (part.filePartID : Int) = index with
  | none => .error .filePartNotFound
  | some part => .ok part.fileKey

/-- The two streams of Files, with that of composite Files as a parameter. -/
inductive LayoutStream (κ : Type)
  | physical (f : FileStream)
  | composite (f : κ)

/-- The methods of the stream of a File. -/
def LayoutStream.stream {κ : Type} (io : BlockIO β) (blocks : β) (b2f : Int → Except StreamErr Text)
    (compositeStream : ReadSeeker StreamErr κ) : ReadSeeker StreamErr (LayoutStream κ) where
  read
    | .physical f, size =>
      let result := f.read io blocks b2f size
      (result.1, .physical result.2)
    | .composite f, size =>
      let result := compositeStream.read f size
      (result.1, .composite result.2)
  seek
    | .physical f, offset, whence =>
      let result := f.seek offset whence
      (result.1, .physical result.2)
    | .composite f, offset, whence =>
      let result := compositeStream.seek f offset whence
      (result.1, .composite result.2)

section
variable {κ : Type} (io : BlockIO β) (compositeStream : ReadSeeker StreamErr κ)
  (compositeIOStream : Store → Nat → Int → Except Err κ) (cache : FileCache)

/-- The methods of a stream that `openFile` returns. -/
def openedStream (st : Storage β) (fileID : Nat) : ReadSeeker StreamErr (Opened (LayoutStream κ)) :=
  Opened.stream (LayoutStream.stream io st.blocks (blockKey st.store fileID) compositeStream)
    .eof .invalidOffset

/-- `OpenFile`, with a bound on the reads that fill the cache. -/
def openFile (reads : Nat) (st : Storage β) (fileID : Nat) :
    Option (Except Err (Opened (LayoutStream κ))) :=
  match st.store.readStoredFile fileID with
  | none => some (.error .notExist)
  | some file =>
    let loaded := match file.fileLayout with
      | .physical => .ok (.physical (FileStream.newFileStream file.fileSize))
      | .composite => (compositeIOStream st.store fileID file.fileSize).map .composite
    cache.load (LayoutStream.stream io st.blocks (blockKey st.store fileID) compositeStream)
      (fun err => err = .eof) reads file loaded

end

/-! ## The blocks of the bytes -/

/-- Rows that name, one after another, the blocks of the bytes: all of the block size but the
last. -/
inductive Chunks (kept : Text → Option (List Byte)) (fileID size : Nat) :
    Nat → List Byte → List FilePart → Prop
  | nil {index : Nat} : Chunks kept fileID size index [] []
  | cons {index : Nat} {row : FilePart} {rows : List FilePart} {piece rest : List Byte}
      (own : row.fileID = fileID) (here : row.filePartID = index)
      (sized : row.filePartSize = piece.length) (stored : kept row.fileKey = some piece)
      (positive : 0 < piece.length) (full : piece.length = min size (piece ++ rest).length)
      (later : Chunks kept fileID size (index + 1) rest rows) :
      Chunks kept fileID size index (piece ++ rest) (row :: rows)

namespace Chunks

variable {kept : Text → Option (List Byte)} {fileID size index : Nat} {data : List Byte}
  {rows : List FilePart}

section
variable (chunks : Chunks kept fileID size index data rows)
include chunks

lemma own : ∀ row ∈ rows, row.fileID = fileID := by
  induction chunks with
  | nil => exact fun row member => nomatch member
  | cons own here sized stored positive full later ih => exact List.forall_mem_cons.mpr ⟨own, ih⟩

lemma ids : rows.map FilePart.filePartID = List.range' index rows.length := by
  induction chunks with
  | nil => rfl
  | cons own here sized stored positive full later ih =>
    rw [List.map_cons, ih, here, List.length_cons, List.range'_succ]

end

/-- A piece that is not the last is a full block. -/
lemma full_of_rest {piece rest : List Byte} (full : piece.length = min size (piece ++ rest).length)
    (more : 0 < rest.length) : piece.length = size := by
  rw [List.length_append] at full
  omega

variable (chunks : Chunks kept fileID size index data rows)
include chunks

/-- There are as many rows as it takes blocks for the bytes. -/
lemma count (positive : 0 < size) :
    data.length ≤ rows.length * size ∧ rows.length * size < data.length + size := by
  induction chunks with
  | nil => exact ⟨Nat.zero_le _, by simpa using positive⟩
  | @cons index row rows piece rest own here sized stored some full later ih =>
    rw [List.length_cons, Nat.succ_mul]
    cases later with
    | nil =>
      rw [List.append_nil] at full ⊢
      simp only [List.length_nil, Nat.zero_mul]
      omega
    | cons _ _ _ _ more _ _ =>
      have same := full_of_rest full (by rw [List.length_append]; omega)
      rw [List.length_append]
      omega

/-- The row of every block can be found. -/
lemma find_block {j : Nat} (inside : j * size < data.length) :
    ∃ row, rows.find? (fun row => row.fileID = fileID ∧
        (row.filePartID : Int) = ((index + j : Nat) : Int)) = some row ∧
      kept row.fileKey = some (FileStream.block data size j) := by
  induction chunks generalizing j with
  | nil => exact absurd inside (Nat.not_lt_zero _)
  | @cons index row rows piece rest own here sized stored positive full later ih =>
    cases j with
    | zero =>
      refine ⟨row, ?_, ?_⟩
      · exact List.find?_cons_of_pos (by simp [own, here])
      · rw [stored, FileStream.block, Nat.zero_mul, List.drop_zero]
        have front : (piece ++ rest).take size = piece := by
          rw [List.length_append] at full
          rcases Nat.lt_or_ge piece.length size with short | long
          · have empty : rest = [] := List.eq_nil_of_length_eq_zero (by omega)
            rw [empty, List.append_nil, List.take_of_length_le (Nat.le_of_lt short)]
          · exact List.take_left' (by omega)
        rw [front]
    | succ j =>
      have more : 0 < rest.length := by
        rw [List.length_append] at full inside
        rw [Nat.succ_mul] at inside
        omega
      have whole := full_of_rest full more
      have below : j * size < rest.length := by
        rw [List.length_append, Nat.succ_mul] at inside
        omega
      obtain ⟨found, first, holds⟩ := ih below
      refine ⟨found, ?_, ?_⟩
      · rw [List.find?_cons_of_neg (by simp [here]; omega), ← first, Nat.add_right_comm,
          Nat.add_assoc index]
      · rw [holds, FileStream.block, FileStream.block, Nat.succ_mul, Nat.add_comm (j * size),
          ← List.drop_drop, List.drop_left' whole]

lemma sizes :
    ∀ row ∈ rows, ∃ j, row.filePartID = index + j ∧
      row.filePartSize = ((min size (data.length - j * size) : Nat) : Int) := by
  induction chunks with
  | nil => exact fun row member => nomatch member
  | @cons index row rows piece rest own here sized stored positive full later ih =>
    intro other member
    rcases List.mem_cons.mp member with rfl | inRest
    · refine ⟨0, here, ?_⟩
      rw [sized, full, Nat.zero_mul, Nat.sub_zero]
    · obtain ⟨j, place, sizedOther⟩ := ih other inRest
      have more : 0 < rest.length := by
        cases later with
        | nil => cases inRest
        | cons _ _ _ _ positive _ _ =>
          rw [List.length_append]
          omega
      refine ⟨j + 1, by omega, ?_⟩
      rw [sizedOther, List.length_append, full_of_rest full more, Nat.succ_mul]
      congr 2
      omega

end Chunks

/-! ## The loop stores the blocks -/

section
variable {env : Env} {io : BlockIO β} {md5 : List Byte → Text} {faults : Faults} {now size : Int}
  {fileID : Nat} {read : ReadFn σ} {content : β → Text → Option (List Byte)}
  {bytes : σ → List Byte}

/-- The readers that CreateFile wraps around its reader pass the bytes on and count them. -/
lemma createFilePart_stores (keeps : io.Keeps content) (splits : Splits read bytes)
    (fits : ∀ r size, (read r size).data.length ≤ size) {partID limit : Nat} {r : σ}
    {counted : (σ × Nat) × Nat} {st st' : Storage β} {done : Unit}
    (run : createFilePart env io md5 faults now fileID partID (countRead (limitRead read))
      ((r, limit), 0) st = (.ok done, counted, st')) :
    ∃ data, ∃ upload : Store.BlockUpload, bytes r = data ++ bytes counted.1.1 ∧
      counted.2 = data.length ∧
      data.length ≤ limit ∧ upload.size = (data.length : Int) ∧
      st'.store = withPart st.store (envOf env io) now fileID partID upload ∧
      content st'.blocks upload.fileKey = some data ∧
      ∀ key block, content st.blocks key = some block → content st'.blocks key = some block := by
  have outcome : PartOutcome env io md5 now fileID partID (countRead (limitRead read))
      ((r, limit), 0) st (.ok done, counted, st') := run ▸ createFilePart_outcome _ _
  cases outcome with
  | @recorded _ seen count blocks result uploaded =>
    obtain ⟨data, drained, stored⟩ := keeps.uploaded uploaded
    obtain ⟨teed, total⟩ := drained.count
    obtain ⟨inner, -⟩ := teed.tee
    obtain ⟨limited, counts⟩ := inner.count
    have bound := limited.limit fits
    simp only [Nat.zero_add] at total counts
    refine ⟨data, _, limited.content splits.limit, counts, ?_, ?_, rfl, stored, keeps.kept uploaded⟩
    · simp only at bound
      omega
    · exact congrArg Int.ofNat total

lemma createFileParts_chunks (keeps : io.Keeps content) (splits : Splits read bytes)
    (fits : ∀ r size, (read r size).data.length ≤ size) {block left parts partID : Nat}
    (blockSize : io.maxFileSize = block) {uploadedSize : Int} (rest : size - uploadedSize = left)
    (enough : left ≤ parts * block) (needed : parts * block < left + block)
    {r r' : σ} {st st' : Storage β} {done : Unit}
    (run : createFileParts env io md5 faults now fileID size read parts partID uploadedSize r st =
      (.ok done, r', st')) :
    ∃ data rows states, bytes r = data ++ bytes r' ∧ data.length = left ∧
      Chunks (content st'.blocks) fileID block partID data rows ∧
      st'.store = { st.store with
        parts := st.store.parts ++ rows, deleteStates := st.store.deleteStates ++ states } ∧
      ∀ key block, content st.blocks key = some block → content st'.blocks key = some block := by
  induction parts generalizing left partID uploadedSize r st with
  | zero =>
    obtain ⟨-, rfl, rfl⟩ := run
    refine ⟨[], [], [], rfl, ?_, .nil, ?_, fun _ _ present => present⟩
    · simp only [Nat.zero_mul] at enough
      exact (Nat.le_zero.mp enough).symm
    · simp only [List.append_nil]
  | succ parts ih =>
    rw [Nat.succ_mul] at enough needed
    have partSize : min io.maxFileSize (size - uploadedSize) = ((min block left : Nat) : Int) := by
      rw [blockSize, rest]
      omega
    simp only [createFileParts, partSize, Int.toNat_natCast] at run
    cases first : createFilePart env io md5 faults now fileID partID (countRead (limitRead read))
        ((r, min block left), 0) st with
    | mk outcome after =>
      obtain ⟨counted, st₁⟩ := after
      simp only [first] at run
      cases outcome with
      | error err => cases run
      | ok u =>
        obtain ⟨data, upload, split, counts, -, sized, stored, holds, kept⟩ :=
          createFilePart_stores keeps splits fits first
        simp only [counts] at run
        split_ifs at run with short
        · cases run
        have whole : data.length = min block left := by omega
        obtain ⟨later, rows, states, laterSplit, laterLength, chunks, laterStored, laterKept⟩ :=
          ih (show _ = ((left - data.length : Nat) : Int) by omega) (by omega) (by omega) run
        refine ⟨data ++ later, uploadedPart now fileID partID upload :: rows,
          Store.liveDeleteState (envOf env io) fileID partID upload now :: states,
          ?_, ?_, ?_, ?_, fun key block present => laterKept _ _ (kept _ _ present)⟩
        · rw [split, laterSplit, List.append_assoc]
        · rw [List.length_append]
          omega
        · refine .cons rfl rfl sized (laterKept _ _ holds) (by omega) ?_ chunks
          rw [List.length_append]
          omega
        · rw [laterStored, stored]
          simp only [withPart, List.append_assoc, List.singleton_append]

end

lemma calculateFileBlockCount_ok {size count : Int} {block : Nat}
    (run : Store.calculateFileBlockCount size block = .ok count) :
    ∃ n parts : Nat, size = n ∧ count = parts ∧ 0 < block ∧ n ≤ parts * block ∧
      parts * block < n + block ∧ parts ≤ Store.maxFilePartCount.toNat := by
  simp only [Store.calculateFileBlockCount, Result.bind_ok, Result.require_ok] at run
  obtain ⟨_, nonneg, _, sized, run⟩ := run
  have positive : 0 < block := by exact_mod_cast sized
  obtain ⟨n, rfl⟩ := Int.eq_ofNat_of_zero_le nonneg
  split_ifs at run with empty
  · obtain rfl := Except.ok.inj run
    exact ⟨n, 0, rfl, rfl, positive, by omega, by omega, Nat.zero_le _⟩
  · simp only [Result.bind_ok, Result.require_ok, Result.pure_ok] at run
    obtain ⟨_, few, rfl⟩ := run
    have whole := Nat.div_add_mod (n - 1) block
    have rest := Nat.mod_lt (n - 1) positive
    rw [Nat.mul_comm] at whole
    have same : 1 + ((n : Int) - 1) / block = ((n - 1) / block + 1 : Nat) := by
      rw [show ((n : Int) - 1) = ((n - 1 : Nat) : Int) by omega]
      omega
    have bound : (Store.maxFilePartCount.toNat : Int) = Store.maxFilePartCount := rfl
    rw [same] at few ⊢
    refine ⟨n, (n - 1) / block + 1, rfl, rfl, positive, ?_, ?_, by omega⟩
    · rw [Nat.succ_mul]
      omega
    · rw [Nat.succ_mul]
      omega

/-! ## What is stored can be opened -/

/-- The File holds the bytes: its row has their length, and its part rows name their blocks. -/
structure Stores (io : BlockIO β) (content : β → Text → Option (List Byte)) (st : Storage β)
    (fileID block : Nat) (data : List Byte) : Prop where
  file : ∃ file, st.store.readStoredFile fileID = some file ∧ file.fileSize = data.length ∧
    file.fileLayout = .physical ∧ file.fileState = .ready
  blockSize : io.maxFileSize = block
  positive : 0 < block
  few : data.length ≤ Store.maxFilePartCount.toNat * block
  rows : Chunks (content st.blocks) fileID block 0 data (st.store.filePartRows fileID)

variable {io : BlockIO β} {content : β → Text → Option (List Byte)} {st : Storage β}
  {fileID block : Nat} {data : List Byte}

section
variable (stores : Stores io content st fileID block data)
include stores

/-- What a File holds depends on its row, its part rows and the blocks. -/
lemma Stores.frame {s' : Store} (found : ∀ file, st.store.readStoredFile fileID = some file →
      s'.readStoredFile fileID = some file)
    (rows : s'.filePartRows fileID = st.store.filePartRows fileID) :
    Stores io content { st with store := s' } fileID block data where
  file := by
    obtain ⟨file, present, rest⟩ := stores.file
    exact ⟨file, found file present, rest⟩
  blockSize := stores.blockSize
  positive := stores.positive
  few := stores.few
  rows := rows ▸ stores.rows

lemma Stores.holdsBlocks (keeps : io.Keeps content) :
    FileStream.HoldsBlocks io st.blocks (blockKey st.store fileID) data block where
  blockSize := stores.blockSize
  positive := stores.positive
  few := stores.few
  present index inside := by
    obtain ⟨row, found, stored⟩ := stores.rows.find_block inside
    refine ⟨row.fileKey, ?_, fun pos => ?_⟩
    · have same : st.store.parts.find? (fun part => part.fileID = fileID ∧
          (part.filePartID : Int) = (index : Int)) = some row := by
        rw [Store.filePartRows, List.find?_filter, Nat.zero_add] at found
        rw [← found]
        congr 1
        funext part
        simp
      rw [blockKey, same]
    · obtain ⟨r, run, rest, ending⟩ := keeps.downloaded stored (Int.natCast_nonneg pos)
      exact ⟨r, run, rest, ending⟩

/-- `OpenFile` returns a stream over the bytes. -/
lemma Stores.opens {κ : Type}
    (keeps : io.Keeps content) (compositeStream : ReadSeeker StreamErr κ)
    (compositeIOStream : Store → Nat → Int → Except Err κ) {cache : FileCache}
    (sound : ∀ file raw, cache.entry file = some raw → file.fileID = fileID →
      raw.length = data.length → raw = data) :
    ∃ reads, ∀ more, reads ≤ more → ∃ opened,
      openFile io compositeStream compositeIOStream cache more st fileID = some (.ok opened) ∧
      ∀ calls, ∃ last,
        ServesAll .eof data 0 calls ((openedStream io compositeStream st fileID).run opened calls).1
          last ∧
        (openedStream io compositeStream st fileID).Ends .eof
          ((openedStream io compositeStream st fileID).run opened calls).2 (data.drop last) := by
  obtain ⟨file, found, size, physical, -⟩ := stores.file
  have embeds : Embeds (FileStream.stream io st.blocks (blockKey st.store fileID))
      (LayoutStream.stream io st.blocks (blockKey st.store fileID) compositeStream)
      LayoutStream.physical := ⟨fun _ _ => rfl, fun _ _ _ => rfl⟩
  have streams := embeds.streams (stores.holdsBlocks keeps).streams
  have start := FileStream.at_newFileStream data
  obtain ⟨reads, run⟩ := cache.load_ok (fun err => err = .eof) rfl streams ⟨_, rfl, start⟩ size
    fun raw entry => sound file raw entry (Store.readStoredFile_ok found).2
  refine ⟨reads, fun more bound => ?_⟩
  obtain ⟨opened, loaded, here⟩ := run more bound
  refine ⟨opened, ?_, fun calls => ?_⟩
  · simp only [openFile, found, physical, size]
    exact loaded
  · have served := Opened.streams StreamErr.invalidOffset streams
    obtain ⟨last, serves, after⟩ := served.run here calls
    exact ⟨last, serves, served.ends after⟩

/-! ## The round trip -/

end

section
variable {env : Env} {md5 : List Byte → Text} {faults : Faults} {now size : Int} {read : ReadFn σ}
  {bytes : σ → List Byte} {st' : Storage β} {r r' : σ}

lemma readStoredFile_finish {s : Store} {file : StoredFile}
    (found : s.readStoredFile fileID = some file) :
    (s.finishFileCreate now fileID).readStoredFile fileID =
      some { file with fileState := .ready, mtime := now } := by
  have own := (Store.readStoredFile_ok found).2
  have same : ((fun file : StoredFile => decide (file.fileID = fileID)) ∘ fun file =>
      if file.fileID = fileID then { file with fileState := .ready, mtime := now } else file) =
      fun file => decide (file.fileID = fileID) := by
    funext file
    simp only [Function.comp]
    split_ifs <;> rfl
  rw [Store.readStoredFile] at found
  simp only [Store.finishFileCreate, Store.updateFile, Store.readStoredFile, List.find?_map, same,
    found, Option.map_some, own, if_true]

lemma filter_new {parts rows : List FilePart} (old : ∀ part ∈ parts, part.fileID ≠ fileID)
    (own : ∀ row ∈ rows, row.fileID = fileID) :
    (parts ++ rows).filter (fun part => part.fileID = fileID) = rows := by
  rw [List.filter_append, List.filter_eq_nil_iff.mpr (by simpa using old), List.nil_append,
    List.filter_eq_self.mpr (by simpa using own)]

variable (keeps : io.Keeps content) (splits : Splits read bytes)
  (fits : ∀ r size, (read r size).data.length ≤ size) (blockSize : io.maxFileSize = block)
include keeps splits fits blockSize

/-- A File that could be filled has its row and the rows of its blocks. -/
lemma fillFile_stores
    {done : Unit} (run : fillFile env io md5 faults now fileID size read r st = (.ok done, r', st'))
    {count : Int} {earlier : List StoredFile}
    (files : st.store.files = earlier ++ [draftFile fileID now size count])
    (new : ∀ file ∈ earlier, file.fileID ≠ fileID)
    (old : ∀ part ∈ st.store.parts, part.fileID ≠ fileID) :
    ∃ data, bytes r = data ++ bytes r' ∧ size = data.length ∧
      Stores io content st' fileID block data := by
  unfold fillFile at run
  cases counted : Store.calculateFileBlockCount size io.maxFileSize with
  | error err =>
    rw [counted] at run
    cases run
  | ok blockCount =>
    simp only [counted] at run
    cases filled : createFileParts env io md5 faults now fileID size read blockCount.toNat 0 0 r st
      with
    | mk outcome after =>
      obtain ⟨r₁, st₁⟩ := after
      simp only [filled] at run
      cases outcome with
      | error err => cases run
      | ok u =>
        cases finished : statement faults.finish
            (.ok (st₁.store.finishFileCreate now fileID)) with
        | error err => simp [finished] at run
        | ok store =>
          simp only [finished] at run
          obtain ⟨-, rfl, rfl⟩ := run
          obtain rfl := Except.ok.inj (statement_ok finished)
          rw [blockSize] at counted
          obtain ⟨n, parts, rfl, rfl, positive, enough, needed, few⟩ :=
            calculateFileBlockCount_ok counted
          obtain ⟨data, rows, states, split, length, chunks, stored, -⟩ :=
            createFileParts_chunks keeps splits fits blockSize (Int.sub_zero _) enough needed
              filled
          have found : st₁.store.readStoredFile fileID = some (draftFile fileID now n count) := by
            rw [Store.readStoredFile, stored]
            simp only [files]
            exact find?_draftFile now n count new
          refine ⟨data, split, by rw [length],
            ⟨_, readStoredFile_finish found, ?_, rfl, rfl⟩, blockSize, positive, ?_, ?_⟩
          · exact congrArg Int.ofNat length.symm
          · rw [length]
            exact Nat.le_trans enough (Nat.mul_le_mul_right _ few)
          · have rowsOf : (st₁.store.finishFileCreate now fileID).filePartRows fileID =
                rows := by
              simp only [Store.finishFileCreate, Store.updateFile, Store.filePartRows, stored]
              exact filter_new old chunks.own
            rw [rowsOf]
            exact chunks

/-- If `CreateFile` succeeds, the File holds the first bytes of the reader. -/
lemma createFile_stores (unused : Unused st.store st.store.nextFileID)
    (run : createFile env io md5 faults now size read r st = (.ok fileID, r', st')) :
    ∃ data, bytes r = data ++ bytes r' ∧ size = data.length ∧
      Stores io content st' fileID block data := by
  unfold createFile at run
  split_ifs at run
  · cases run
  cases drafts : st.store.createFileDraft (envOf env io) now size with
  | error err =>
    rw [drafts] at run
    cases run
  | ok result =>
    obtain ⟨store, id⟩ := result
    obtain ⟨rfl, count, -, rfl⟩ := createFileDraft_ok drafts
    simp only [drafts] at run
    generalize filled : fillFile env io md5 faults now st.store.nextFileID size read r
      { st with store := _ } = result at run
    obtain ⟨outcome, r₁, st₁⟩ := result
    cases outcome with
    | error err => cases run
    | ok done =>
      cases run
      exact fillFile_stores keeps splits fits blockSize filled rfl unused.files unused.parts

end

lemma Stores.parts (stores : Stores io content st fileID block data) :
    (st.store.filePartRows fileID).map FilePart.filePartID =
      List.range ((data.length + block - 1) / block) ∧
    ∀ part ∈ st.store.filePartRows fileID,
      part.filePartSize = ((min block (data.length - part.filePartID * block) : Nat) : Int) := by
  obtain ⟨low, high⟩ := stores.rows.count stores.positive
  have positive := stores.positive
  have count : (data.length + block - 1) / block = (st.store.filePartRows fileID).length :=
    Nat.div_eq_of_lt_le (by omega) (by rw [Nat.succ_mul]; omega)
  refine ⟨?_, fun part member => ?_⟩
  · rw [count, stores.rows.ids, List.range_eq_range']
  · obtain ⟨j, place, sized⟩ := stores.rows.sizes part member
    rw [sized, place, Nat.zero_add]

/-- **What `CreateFile` stores is what `OpenFile` reads.**  For every reader, block size, rotate
value and choice of failing statements, over a backend that keeps its blocks: if `CreateFile`
succeeds, the reader delivered the size, the parts are the blocks of the first bytes in order, and
the stream of the new File serves exactly these bytes under any calls and reads on to their end.  A
reader with fewer bytes makes it fail. -/
theorem createFile_roundTrip (env : Env) (md5 : List Byte → Text) (faults : Faults)
    (now size rotateVal : Int) (keeps : io.Keeps content) (positive : 1 ≤ io.maxFileSize)
    {read : ReadFn σ} {bytes : σ → List Byte} (splits : Splits read bytes)
    (fits : ∀ r size, (read r size).data.length ≤ size) (r : σ)
    (unused : Unused st.store st.store.nextFileID) :
    let io := io.newRotateBackend rotateVal
    let block := io.maxFileSize.toNat
    (∀ {fileID r' st'}, createFile env io md5 faults now size read r st = (.ok fileID, r', st') →
      ∃ n : Nat, size = n ∧ n ≤ (bytes r).length ∧ bytes r' = (bytes r).drop n ∧
        (st'.store.filePartRows fileID).map FilePart.filePartID =
          List.range ((n + block - 1) / block) ∧
        (∀ part ∈ st'.store.filePartRows fileID,
          part.filePartSize = ((min block (n - part.filePartID * block) : Nat) : Int)) ∧
        ∀ {κ : Type} (compositeStream : ReadSeeker StreamErr κ)
          (compositeIOStream : Store → Nat → Int → Except Err κ) (cache : FileCache),
          (∀ file raw, cache.entry file = some raw → file.fileID = fileID → raw.length = n →
            raw = (bytes r).take n) →
          ∃ reads, ∀ more, reads ≤ more → ∃ opened,
            openFile io compositeStream compositeIOStream cache more st' fileID =
              some (.ok opened) ∧
            ∀ calls, ∃ last,
              ServesAll .eof ((bytes r).take n) 0 calls
                ((openedStream io compositeStream st' fileID).run opened calls).1 last ∧
              (openedStream io compositeStream st' fileID).Ends .eof
                ((openedStream io compositeStream st' fileID).run opened calls).2
                (((bytes r).take n).drop last)) ∧
    (((bytes r).length : Int) < size →
      ∃ err r' st', createFile env io md5 faults now size read r st = (.error err, r', st')) := by
  intro io block
  have blockSize : io.maxFileSize = (block : Int) := by
    have same := io.maxFileSize
    simp only [block, io, BlockIO.maxFileSize_newRotateBackend]
    omega
  have rotated := keeps.rotate rotateVal
  refine ⟨fun {fileID r' st'} run => ?_, fun short => ?_⟩
  · obtain ⟨data, split, rfl, stores⟩ :=
      createFile_stores rotated splits fits blockSize unused run
    have front : (bytes r).take data.length = data := by rw [split, List.take_left]
    obtain ⟨ids, sizes⟩ := stores.parts
    refine ⟨data.length, rfl, ?_, ?_, ids, sizes,
      fun compositeStream compositeIOStream cache sound => ?_⟩
    · rw [split, List.length_append]
      exact Nat.le_add_right _ _
    · rw [split, List.drop_left]
    · rw [front] at sound ⊢
      exact stores.opens rotated compositeStream compositeIOStream sound
  · cases run : createFile env io md5 faults now size read r st with
    | mk outcome after =>
      obtain ⟨r', st'⟩ := after
      cases outcome with
      | error err => exact ⟨err, r', st', rfl⟩
      | ok fileID =>
        obtain ⟨data, split, rfl, -⟩ :=
          createFile_stores rotated splits fits blockSize unused run
        rw [split, List.length_append] at short
        omega

open BlockIO

/-- Three of the four bytes are stored in two blocks and read back, the fourth stays. -/
theorem fourBytes_roundTrip :
    ∃ r' st', createFile .plain ((newMemBackend 2 8 1).newRotateBackend 5) (fun _ => [])
        noFaults 0 3 Reader.read fourBytes emptyStorage = (.ok 1, r', st') ∧
      r'.content = [4] ∧ (st'.store.filePartRows 1).map FilePart.filePartID = [0, 1] := by
  have success : (createFile .plain ((newMemBackend 2 8 1).newRotateBackend 5) (fun _ => [])
      noFaults 0 3 Reader.read fourBytes emptyStorage).1 = .ok 1 := by rfl
  obtain ⟨n, same, -, left, ids, -⟩ := (createFile_roundTrip .plain (fun _ => []) noFaults 0 3 5
    (newMemBackend_keeps 2 8 1) (by decide) Reader.splits Reader.read_length fourBytes
    unused_emptyStorage).1 (Prod.ext success rfl)
  obtain rfl : n = 3 := by omega
  exact ⟨_, _, Prod.ext success rfl, left, ids⟩

end TgFile.Storage
