import TgFile.BlockIO.Model
import TgFile.Store.Marking
import TgFile.Store.Files

/-! # Creating a File from a reader

`CreateFile` of `filemgr/file_manager_impl.go`: the draft, a loop that uploads and records one block
after another, the update that makes the File ready, and what is undone when one of these fails. -/

namespace TgFile

open Go

/-- Which of the database statements of a call fail; a cancelled context fails those that are still
to come, but not the compensating one. -/
structure Faults where
  draft : Bool
  record : Nat → Bool
  finish : Bool
  discard : Bool

/-- The database and the backend, with the complete results of `Upload` under their part index and
the references passed to `DeleteBlocks`, oldest first. -/
structure Storage (β : Type) where
  store : Store
  blocks : β
  uploads : List (Nat × UploadResult)
  deletes : List Text

namespace Storage

variable {β σ : Type} {s : Store} {fileID : Nat}

/-- A statement that fails has no effect. -/
def statement (fails : Bool) (run : Except Err Store) : Except Err Store :=
  if fails then .error .internal else run

/-- The environment of the file manager on a backend. -/
def envOf (env : Env) (io : BlockIO β) : Env :=
  { env with backendName := io.name, maxFileSize := io.maxFileSize }

section
variable (env : Env) (io : BlockIO β) (md5 : List Byte → Text) (faults : Faults) (now : Int)

/-- The second half of `createFilePart`: a block that cannot be recorded is deleted. -/
def recordFilePart (fileID partID : Nat) (upload : Store.BlockUpload) (st : Storage β) :
    Except Err Unit × Storage β :=
  match statement (faults.record partID)
      (st.store.createFilePart (envOf env io) now fileID partID upload) with
  | .ok store => (.ok (), { st with store := store })
  | .error err =>
    (.error err, { st with
      blocks := (io.deleteBlocks st.blocks [upload.deleteRef]).2
      deletes := st.deletes ++ [upload.deleteRef] })

/-- Returns the reader after the upload too. -/
def createFilePart (fileID partID : Nat) (read : ReadFn σ) (r : σ) (st : Storage β) :
    Except Err Unit × σ × Storage β :=
  if Store.maxFilePartCount < partID then (.error .invalidFilePart, r, st)
  else
    let (outcome, counted, blocks) := io.upload (countRead (teeRead read)) ((r, []), 0) st.blocks
    let r := counted.1.1
    let st := { st with blocks := blocks }
    match outcome with
    | .error err => (.error err, r, st)
    | .ok none => (.error .invalidUploadDeleteReference, r, st)
    | .ok (some result) =>
      let upload : Store.BlockUpload :=
        ⟨result.fileKey, result.deleteRef, result.uploadedAt, md5 counted.1.2, counted.2⟩
      if upload.WellFormed then
        let st := { st with uploads := st.uploads ++ [(partID, result)] }
        let (outcome, st) := recordFilePart env io faults now fileID partID upload st
        (outcome, r, st)
      else (.error .invalidUploadDeleteReference, r, st)

/-- The loop of `createFile`, with the number of blocks to come, the next index and the size so
far. -/
def createFileParts (fileID : Nat) (size : Int) (read : ReadFn σ) :
    Nat → Nat → Int → σ → Storage β → Except Err Unit × σ × Storage β
  | 0, _, _, r, st => (.ok (), r, st)
  | parts + 1, partID, uploadedSize, r, st =>
    let partSize := min io.maxFileSize (size - uploadedSize)
    let (outcome, counted, st) := createFilePart env io md5 faults now fileID partID
      (countRead (limitRead read)) ((r, partSize.toNat), 0) st
    match outcome with
    | .error err => (.error err, counted.1.1, st)
    | .ok _ =>
      if (counted.2 : Int) ≠ partSize then (.error .fileShortRead, counted.1.1, st)
      else
        createFileParts fileID size read parts (partID + 1) (uploadedSize + counted.2)
          counted.1.1 st

/-- The unexported `createFile` after the draft. -/
def fillFile (fileID : Nat) (size : Int) (read : ReadFn σ) (r : σ) (st : Storage β) :
    Except Err Unit × σ × Storage β :=
  match Store.calculateFileBlockCount size io.maxFileSize with
  | .error err => (.error err, r, st)
  | .ok blockCount =>
    let (outcome, r, st) :=
      createFileParts env io md5 faults now fileID size read blockCount.toNat 0 0 r st
    match outcome with
    | .error err => (.error err, r, st)
    | .ok _ =>
      match statement faults.finish (.ok (st.store.finishFileCreate now fileID)) with
      | .error err => (.error err, r, st)
      | .ok store => (.ok (), r, { st with store := store })

/-- Hands the blocks of a File that was not finished to the worker. -/
def discardFile (fileID : Nat) (st : Storage β) : Storage β :=
  match statement faults.discard (st.store.discardUnpublishedFile fileID now) with
  | .error _ => st
  | .ok store => { st with store := store }

/-- Returns the id of the File, the reader and the storage afterwards; an error of the compensation
is joined to the first one. -/
def createFile (size : Int) (read : ReadFn σ) (r : σ) (st : Storage β) :
    Except Err Nat × σ × Storage β :=
  if faults.draft then (.error .internal, r, st)
  else
    match st.store.createFileDraft (envOf env io) now size with
    | .error err => (.error err, r, st)
    | .ok (store, fileID) =>
      let (outcome, r, st) :=
        fillFile env io md5 faults now fileID size read r { st with store := store }
      match outcome with
      | .ok _ => (.ok fileID, r, st)
      | .error err =>
        (.error err, r, if fileID = 0 then st else discardFile faults now fileID st)

end

/-! ## The draft -/

/-- The id of a File that nothing in the database refers to. -/
structure Unused (s : Store) (fileID : Nat) : Prop where
  positive : 0 < fileID
  files : ∀ file ∈ s.files, file.fileID ≠ fileID
  parts : ∀ part ∈ s.parts, part.fileID ≠ fileID
  deleteStates : ∀ row ∈ s.deleteStates, row.fileID ≠ fileID
  unreferenced : s.fileHasLiveReference fileID = false

/-- The row of a draft. -/
def draftFile (fileID : Nat) (now size count : Int) : StoredFile where
  fileID := fileID
  fileSize := size
  filePartCount := count
  fileState := .init
  fileLayout := .physical
  ctime := now
  mtime := now

lemma createFileDraft_ok {s' : Store} {env : Env} {now size : Int}
    (run : s.createFileDraft env now size = .ok (s', fileID)) :
    fileID = s.nextFileID ∧ ∃ count, Store.calculateFileBlockCount size
      env.maxFileSize = .ok count ∧
      s' = { s with
        files := s.files ++ [draftFile fileID now size count]
        nextFileID := s.nextFileID + 1 } := by
  simp only [Store.createFileDraft, Result.bind_ok, Result.pure_ok, Prod.mk.injEq] at run
  obtain ⟨count, counted, rfl, rfl⟩ := run
  exact ⟨rfl, count, counted, rfl⟩

/-- The row of a draft with a new id is the one that is read. -/
lemma find?_draftFile {files : List StoredFile} (now size count : Int)
    (new : ∀ file ∈ files, file.fileID ≠ fileID) :
    (files ++ [draftFile fileID now size count]).find? (fun file => file.fileID = fileID) =
      some (draftFile fileID now size count) := by
  have absent : files.find? (fun file => file.fileID = fileID) = none :=
    List.find?_eq_none.mpr fun file member => by simpa using new file member
  rw [List.find?_append, absent]
  simp [draftFile]

/-! ## What one part does -/

/-- The row of a block that was just uploaded. -/
def uploadedPart (now : Int) (fileID partID : Nat) (upload : Store.BlockUpload) : FilePart where
  fileID := fileID
  filePartID := partID
  fileKey := upload.fileKey
  filePartMd5 := upload.md5
  filePartSize := upload.size
  ctime := now
  mtime := now

/-- The store with the rows of a block. -/
def withPart (s : Store) (env : Env) (now : Int) (fileID partID : Nat)
    (upload : Store.BlockUpload) : Store :=
  { s with
    parts := s.parts ++ [uploadedPart now fileID partID upload]
    deleteStates := s.deleteStates ++ [Store.liveDeleteState env fileID partID upload now] }

lemma createFilePart_store_ok {s' : Store} {env : Env} {now : Int} {partID : Nat}
    {upload : Store.BlockUpload} (run : s.createFilePart env now fileID partID upload = .ok s') :
    s' = withPart s env now fileID partID upload := by
  simp only [Store.createFilePart, Result.bind_ok, Result.require_ok, Result.pure_ok,
    Sqlite.insertRow_ok] at run
  obtain ⟨_, -, _, -, _, ⟨-, rfl⟩, _, ⟨-, rfl⟩, rfl⟩ := run
  rfl

section
variable (env : Env) (io : BlockIO β) (md5 : List Byte → Text) (now : Int) (fileID partID : Nat)
  (read : ReadFn σ) (r : σ) (st : Storage β)

/-- What `createFilePart` can return: an error before a complete upload, an error after it with the
block passed to `DeleteBlocks`, or success with both rows. -/
inductive PartOutcome : Except Err Unit × σ × Storage β → Prop
  | failed {err : Err} {r' : σ} {blocks : β} :
      PartOutcome (.error err, r', { st with blocks := blocks })
  | unrecorded {err : Err} {r' : σ} {blocks : β} {result : UploadResult} :
      PartOutcome (.error err, r', { st with
        blocks := blocks
        uploads := st.uploads ++ [(partID, result)]
        deletes := st.deletes ++ [result.deleteRef] })
  | recorded {r' : σ} {seen : List Byte} {count : Nat} {blocks : β} {result : UploadResult}
      (run : io.upload (countRead (teeRead read)) ((r, []), 0) st.blocks =
        (.ok (some result), ((r', seen), count), blocks)) :
      PartOutcome (.ok (), r', {
        store := withPart st.store (envOf env io) now fileID partID
          ⟨result.fileKey, result.deleteRef, result.uploadedAt, md5 seen, count⟩
        blocks := blocks
        uploads := st.uploads ++ [(partID, result)]
        deletes := st.deletes })

end

lemma statement_ok {fails : Bool} {run : Except Err Store} (done : statement fails run = .ok s) :
    run = .ok s := by
  unfold statement at done
  split_ifs at done
  exact done

section
variable {env : Env} {io : BlockIO β} {md5 : List Byte → Text} {faults : Faults} {now : Int}
  {fileID partID : Nat} {read : ReadFn σ}

lemma createFilePart_outcome (r : σ) (st : Storage β) :
    PartOutcome env io md5 now fileID partID read r st
      (createFilePart env io md5 faults now fileID partID read r st) := by
  unfold createFilePart
  split_ifs with large
  · exact .failed
  · generalize run : io.upload (countRead (teeRead read)) ((r, []), 0) st.blocks = outcome
    obtain ⟨outcome, ⟨⟨r', seen⟩, count⟩, blocks⟩ := outcome
    rcases outcome with err | result
    · exact .failed
    · cases result with
      | none => exact .failed
      | some result =>
        simp only
        split_ifs with complete
        · simp only [recordFilePart]
          cases done : statement (faults.record partID) (st.store.createFilePart (envOf env io) now
              fileID partID ⟨result.fileKey, result.deleteRef, result.uploadedAt, md5 seen, count⟩)
            with
          | error err => exact .unrecorded
          | ok store =>
            obtain rfl := createFilePart_store_ok (statement_ok done)
            exact .recorded run
        · exact .failed

end

/-! ## A small storage -/

/-- An empty database and an empty in-memory backend. -/
def emptyStorage : Storage BlockIO.MemBlocks := ⟨.empty, [], [], []⟩

lemma unused_emptyStorage : Unused emptyStorage.store emptyStorage.store.nextFileID where
  positive := by decide
  files _ member := nomatch member
  parts _ member := nomatch member
  deleteStates _ member := nomatch member
  unreferenced := by decide

/-- Every statement succeeds. -/
def noFaults : Faults := ⟨false, fun _ => false, false, false⟩

/-- Four bytes in two pieces. -/
def fourBytes : Reader := ⟨[[1], [254, 3, 4]], .eof, false⟩

end Storage

end TgFile
