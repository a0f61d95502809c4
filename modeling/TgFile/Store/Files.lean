import TgFile.Store.References

/-! # Creating Files

The statements behind `CreateFile`: a draft, one row and one delete state for every uploaded block,
and the update that makes the File ready.  Each is a transaction of its own. -/

namespace TgFile.Store

open Go Result

/-- The largest number of blocks. -/
def maxFilePartCount : Int := 100000

/-- The number of blocks of a size. -/
def calculateFileBlockCount (size blockSize : Int) : Except Err Int := do
  require (0 ≤ size) Err.invalidFileSize
  require (0 < blockSize) Err.invalidBlockSize
  if size = 0 then pure 0
  else do
    let count := 1 + (size - 1) / blockSize
    require (count ≤ maxFilePartCount) Err.tooManyFileParts
    pure count

/-- Returns the id of the draft. -/
def createFileDraft (env : Env) (s : Store) (now size : Int) : Except Err (Store × Nat) := do
  let blockCount ← calculateFileBlockCount size env.maxFileSize
  pure ({ s with
    files := s.files ++ [{
      fileID := s.nextFileID, fileSize := size, filePartCount := blockCount, fileState := .init,
      fileLayout := .physical, ctime := now, mtime := now }]
    nextFileID := s.nextFileID + 1 }, s.nextFileID)

/-- What the backend returns for an uploaded block, with the digest and the length of the bytes
that were read. -/
structure BlockUpload where
  fileKey : Text
  deleteRef : Text
  uploadedAt : Int
  md5 : Text
  size : Int
  deriving DecidableEq, Repr

/-- `errInvalidUploadDeleteReference` is returned for an upload without these. -/
def BlockUpload.WellFormed (upload : BlockUpload) : Prop :=
  upload.fileKey ≠ [] ∧ upload.deleteRef ≠ [] ∧ 0 < upload.uploadedAt

instance (upload : BlockUpload) : Decidable upload.WellFormed :=
  inferInstanceAs (Decidable (_ ∧ _))

/-- The delete state of a block that was just uploaded. -/
def liveDeleteState (env : Env) (fileID partID : Nat) (upload : BlockUpload) (now : Int) :
    DeleteState where
  fileID := fileID
  filePartID := partID
  backendKind := env.backendName
  deleteRef := upload.deleteRef
  uploadedAt := upload.uploadedAt
  state := .live
  attemptCount := 0
  nextAttemptAt := 0
  leaseUntil := 0
  lastAttemptAt := 0
  lastErrorCode := []
  deletedAt := 0
  ctime := now
  mtime := now

/-- Record a block with its delete state. -/
def createFilePart (env : Env) (s : Store) (now : Int) (fileID partID : Nat)
    (upload : BlockUpload) : Except Err Store := do
  require ((partID : Int) ≤ maxFilePartCount) Err.invalidFilePart
  require upload.WellFormed Err.invalidUploadDeleteReference
  let parts ← Sqlite.insertRow FilePart.clash s.parts
    { fileID := fileID, filePartID := partID, fileKey := upload.fileKey,
      filePartMd5 := upload.md5, filePartSize := upload.size, ctime := now, mtime := now }
  let deleteStates ← Sqlite.insertRow DeleteState.clash s.deleteStates
    (liveDeleteState env fileID partID upload now)
  pure { s with parts := parts, deleteStates := deleteStates }

variable (s : Store)

/-- `INSERT` of a File. -/
def insertFile (file : StoredFile) : Except Err Store := do
  let files ← Sqlite.insertRow StoredFile.clash s.files file
  pure { s with files := files }

/-- `UPDATE tg_file_tab ... WHERE file_id = ?`. -/
def updateFile (fileID : Nat) (f : StoredFile → StoredFile) : Store :=
  { s with files := s.files.map fun file => if file.fileID = fileID then f file else file }

/-- `MarkFileReady`. -/
def finishFileCreate (now : Int) (fileID : Nat) : Store :=
  s.updateFile fileID fun file => { file with fileState := .ready, mtime := now }

/-- `CreateFileLink`. -/
def createFileLink (now : Int) (link : Text) (fileID : Nat) (size : Int)
    (isDir : Bool) : Except Err Store :=
  if isDir then do
    let dir ← s.dir.dbMkdir now link
    pure { s with dir := dir }
  else do
    s.ensureFileTreeCanBeLinked fileID
    let (dir, _) ← s.dir.create now link size (some fileID)
    pure { s with dir := dir }

end TgFile.Store
