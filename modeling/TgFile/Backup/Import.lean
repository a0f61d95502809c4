import TgFile.Backup.Manifest
import TgFile.Store.Files
import Mathlib.Data.List.Lex
import Mathlib.Data.Char

/-! # Importing a backup

The transactions of `filemgr/backup.go` between a verified archive and its publication: drafts for
the Files of the manifest, one block after the other staged into them, the check that makes them
ready, and their disposal. -/

namespace TgFile.Store

open Go Result Backup

/-! ## Drafts -/

/-- The staging row of a File. -/
def newJobFile (jobID : Text) (now : Int) (file : File) (targetID : Nat) : BackupJobFile where
  jobID := jobID
  fileRef := file.ref
  sourceFileID := file.sourceFileID
  targetFileID := targetID
  layout := file.layout
  stageState := .queued
  nextPartIndex := 0
  errorCode := []
  ctime := now
  mtime := now

/-- The pass of `BeginBackupImport` for one File. -/
def beginFile (jobID : Text) (now : Int) (s : Store) (file : File) : Except Err Store :=
  if ∃ row ∈ s.jobFiles, row.jobID = jobID ∧ row.fileRef = file.ref then .ok s
  else do
    let targetID := s.nextFileID
    let s := { s with nextFileID := s.nextFileID + 1 }
    let s ← s.insertFile ⟨targetID, file.size, file.parts.length, .init, file.layout, file.ctime,
      file.mtime⟩
    let jobFiles ← Sqlite.insertRow BackupJobFile.clash s.jobFiles
      (newJobFile jobID now file targetID)
    pure { s with jobFiles := jobFiles }

variable (s : Store)

/-- Create a draft for every File of the manifest. -/
def beginBackupImport (now : Int) (jobID : Text) (manifest : Manifest) : Except Err Store := do
  require (jobID ≠ []) Err.backupState
  manifest.files.foldlM (beginFile jobID now) s

/-! ## Blocks -/

/-- `stagedBackupPart`. -/
structure StagedPart where
  jobID : Text
  targetID : Nat
  fileRef : Text
  index : Nat
  size : Int
  md5 : Text
  fileKey : Text
  deleteRef : Text
  uploaded : Int
  deriving DecidableEq, Repr

/-- The target File and the index of the block it waits for. -/
def readBackupStageTarget (jobID fileRef : Text) : Except Err (Nat × Nat) :=
  match s.jobFiles.find? fun row => row.jobID = jobID ∧ row.fileRef = fileRef ∧
      row.layout = .physical with
  | none => .error .internal
  | some row => .ok (row.targetFileID, row.nextPartIndex)

/-- The part row of a staged block. -/
def StagedPart.partRow (staged : StagedPart) (now : Int) : FilePart where
  fileID := staged.targetID
  filePartID := staged.index
  fileKey := staged.fileKey
  filePartMd5 := staged.md5
  filePartSize := staged.size
  ctime := now
  mtime := now

section
variable (env : Env)

/-- The delete state of a staged block. -/
def StagedPart.deleteRow (staged : StagedPart) (state : BlockState)
    (nextAttemptAt now : Int) : DeleteState where
  fileID := staged.targetID
  filePartID := staged.index
  backendKind := env.backendName
  deleteRef := staged.deleteRef
  uploadedAt := staged.uploaded
  state := state
  attemptCount := 0
  nextAttemptAt := nextAttemptAt
  leaseUntil := 0
  lastAttemptAt := 0
  lastErrorCode := []
  deletedAt := 0
  ctime := now
  mtime := now

/-- The rows of a block, with the state its deletion starts in. -/
def insertStagedBlock (s : Store) (now : Int) (staged : StagedPart)
    (state : BlockState) (nextAttemptAt : Int) : Except Err Store := do
  let parts ← Sqlite.insertRow FilePart.clash s.parts (staged.partRow now)
  let deleteStates ← Sqlite.insertRow DeleteState.clash s.deleteStates
    (staged.deleteRow env state nextAttemptAt now)
  pure { s with parts := parts, deleteStates := deleteStates }

/-- The staging row that waits for a block. -/
def StagedPart.waits (staged : StagedPart) (row : BackupJobFile) : Bool :=
  row.jobID = staged.jobID ∧ row.fileRef = staged.fileRef ∧ row.nextPartIndex = staged.index

/-- `UPDATE tg_backup_job_file_tab ... WHERE next_part_index = ?`, which must hit one row. -/
def updateWaiting (staged : StagedPart) (f : BackupJobFile → BackupJobFile) : Except Err Store := do
  require ((s.jobFiles.filter staged.waits).length = 1) Err.backupState
  pure { s with jobFiles := s.jobFiles.map fun row => if staged.waits row then f row else row }

/-- Record an uploaded block. -/
def persistBackupPart (s : Store) (now : Int) (staged : StagedPart) : Except Err Store := do
  let s ← s.insertStagedBlock env now staged .live 0
  s.updateWaiting staged fun row => { row with stageState := .verifying, mtime := now }

/-- Record a block that is to be deleted. -/
def persistBackupCompensationRecord (s : Store) (now : Int) (staged : StagedPart) :
    Except Err Store :=
  s.insertStagedBlock env now staged .pending now

end

variable (now : Int)

/-- Go on with the next part. -/
def advanceBackupPartCursor (staged : StagedPart) : Except Err Store :=
  s.updateWaiting staged fun row =>
    { row with stageState := .uploading, nextPartIndex := staged.index + 1, mtime := now }

/-! ## Completion -/

/-- The target File of a reference, 0 when there is none. -/
def backupTarget (jobID fileRef : Text) : Nat :=
  ((s.jobFiles.find? fun row => row.jobID = jobID ∧ row.fileRef = fileRef).map
    BackupJobFile.targetFileID).getD 0

/-- The targets of a job in the order of their references. -/
def readBackupTargets (jobID : Text) : List Nat :=
  (Sqlite.orderBy BackupJobFile.fileRef (s.jobFiles.filter fun row => row.jobID = jobID)).map
    BackupJobFile.targetFileID

/-- The row of a staged File, which gets the times of the manifest. -/
def readyRow (file : File) (row : StoredFile) : StoredFile :=
  if row.fileState = .init then
    { row with fileState := .ready, ctime := file.ctime, mtime := file.mtime }
  else row

/-- The draft becomes a ready File. -/
def markBackupFileReady (jobID : Text) (file : File) (targetID : Nat) : Store :=
  let s := s.updateFile targetID (readyRow file)
  { s with
    jobFiles := s.jobFiles.map fun row =>
      if row.jobID = jobID ∧ row.fileRef = file.ref then
        { row with stageState := .ready, mtime := now }
      else row }

/-- The pass of `finishBackupPhysicalFiles` for one File. -/
def finishPhysicalFile (jobID : Text) (now : Int) (s : Store) (file : File) : Except Err Store :=
  if file.layout = .physical then do
    let targetID := s.backupTarget jobID file.ref
    let rows := s.filePartRows targetID
    require (rows.length = file.parts.length ∧
      (rows.map FilePart.filePartSize).sum = file.size) Err.backupState
    pure (s.markBackupFileReady now jobID file targetID)
  else .ok s

/-- The segments of a composite File. -/
def insertBackupSegments (jobID : Text) (file : File) (targetID : Nat) : Except Err Store := do
  let segments ← file.segments.foldlM
    (fun rows segment => Sqlite.insertRow Segment.clash rows
      ⟨targetID, segment.index, s.backupTarget jobID segment.sourceRef, segment.size, file.ctime,
        file.mtime⟩) s.segments
  pure { s with segments := segments }

/-- The completed parts of a composite File. -/
def insertBackupCompletedParts (file : File) (targetID : Nat) : Except Err Store := do
  let rows ← file.completedParts.foldlM
    (fun rows part => Sqlite.insertRow CompletedPart.clash rows
      ⟨targetID, part.partNumber, part.partSize, part.checksum, part.ctime, part.mtime⟩)
    s.completedParts
  pure { s with completedParts := rows }

/-- The pass of `finishBackupCompositeFiles` for one File. -/
def finishCompositeFile (jobID : Text) (now : Int) (s : Store) (file : File) : Except Err Store :=
  if file.layout = .composite then
    let targetID := s.backupTarget jobID file.ref
    match s.readStoredFile targetID with
    | none => .error .internal
    | some row =>
      if row.fileState = .ready then .ok s
      else do
        let s ← s.insertBackupSegments jobID file targetID
        let s ← s.insertBackupCompletedParts file targetID
        pure (s.markBackupFileReady now jobID file targetID)
  else .ok s

/-- Finish the physical Files, then the composite ones. -/
def finishBackupImportFiles (jobID : Text) (manifest : Manifest) : Except Err Store := do
  let s ← manifest.files.foldlM (finishPhysicalFile jobID now) s
  manifest.files.foldlM (finishCompositeFile jobID now) s

/-! ## Disposal -/

/-- Give up the Files of an import. -/
def discardBackupImport (jobID : Text) : Except Err Store :=
  s.markMappingFilesPending (s.readBackupTargets jobID) now

end TgFile.Store
