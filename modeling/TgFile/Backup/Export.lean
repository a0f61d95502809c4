import TgFile.Backup.Manifest
import TgFile.WebDAV.Locks

/-! # Export snapshots

`CreateBackupSnapshot` reads the mappings of a scope, loads their Files with all the Files they are
composed of, and pins them for the job; `ReleaseBackupSnapshot` drops the pins. -/

namespace TgFile.Store

open Go Result

/-! ## Loading Files -/

/-- Every block is live, or none has a delete state. -/
def ensureBackupPhysicalFileExportable (s : Store) (fileID : Nat) : Except Err Unit :=
  let physical := s.filePartRows fileID
  let states := physical.flatMap s.partDeleteStates
  if states = [] then .ok ()
  else
    require (states.length = physical.length ∧
      ∀ row ∈ states, row.state = .live ∧ row.deleteRef ≠ [] ∧ 0 < row.uploadedAt) .backupState

/-- The size of a block that was recorded without one. -/
def inferredLegacyPartSize (size count : Int) (index : Nat) (maxPart : Int) : Int :=
  if count = 0 ∧ size = 0 then 0
  else if count ≤ 0 ∨ count ≤ index ∨ maxPart ≤ 0 then -1
  else if index < count - 1 then maxPart
  else size - (count - 1) * maxPart

/-- The block size that the snapshot records. -/
def exportedPartSize (env : Env) (file : StoredFile) (row : FilePart) : Int :=
  if row.filePartSize < 0 then
    inferredLegacyPartSize file.fileSize file.filePartCount row.filePartID env.maxFileSize
  else row.filePartSize

/-- `UPDATE tg_file_part_tab SET file_part_size = ?` of one block. -/
def materializePartSize (s : Store) (fileID partID : Nat) (size : Int) : Store :=
  { s with
    parts := s.parts.map fun row =>
      if row.fileID = fileID ∧ row.filePartID = partID then { row with filePartSize := size }
      else row }

/-- The loop over the blocks of a File, with the next index and the size so far. -/
def scanBackupParts (env : Env) (file : StoredFile) :
    Nat → Int → Store → List FilePart → Except Err (Store × Nat × Int)
  | index, total, s, [] => .ok (s, index, total)
  | index, total, s, row :: rows => do
      require (row.filePartID = index) Err.backupState
      let size := exportedPartSize env file row
      require (0 ≤ size) Err.backupState
      let s := if row.filePartSize < 0 then s.materializePartSize file.fileID index size else s
      scanBackupParts env file (index + 1) (total + size) s rows

/-- Check a File for an export, and fill in missing part sizes. -/
def loadBackupPhysicalFile (env : Env) (s : Store) (file : StoredFile) : Except Err Store := do
  s.ensureBackupPhysicalFileExportable file.fileID
  let (s, count, total) ← scanBackupParts env file 0 0 s
    (Sqlite.orderBy FilePart.filePartID (s.filePartRows file.fileID))
  require ((count : Int) = file.filePartCount ∧ total = file.fileSize) Err.backupState
  pure s

/-- `loadBackupFileTree` with a bound on its depth; returns the loaded Files. -/
def loadTree (env : Env) : Nat → Store × List Nat → Nat → Except Err (Store × List Nat)
  | 0, _, _ => .error .internal
  | depth + 1, (s, loaded), fileID =>
    if fileID ∈ loaded then .ok (s, loaded)
    else
      match s.readStoredFile fileID with
      | none => .error .backupState
      | some file => do
          require (file.fileState = .ready) Err.backupState
          match file.fileLayout with
          | .physical => do
              let s ← s.loadBackupPhysicalFile env file
              pure (s, loaded ++ [fileID])
          | .composite => do
              let segments := s.segmentsOf fileID
              require (segments.map Segment.segmentIndex = List.range segments.length)
                Err.backupState
              (segments.map Segment.sourceFileID).foldlM (loadTree env depth)
                (s, loaded ++ [fileID])

/-! ## The snapshot -/

/-- The path is the scope or below it. -/
def pathInBackupScope (value scope : Text) : Bool :=
  scope = ['/'] ∨ value = scope ∨ (scope ++ ['/']) <+: value

variable (s : Store)

/-- The mappings of a scope in path order; the scope must exist. -/
def selectBackupMappings (scope : Text) : Except Err (List Entry) := do
  let rows := tree s.dir
  require (scope = ['/'] ∨ ∃ row ∈ rows, row.2 = scope ∨ (scope ++ ['/']) <+: row.2) Err.notExist
  pure ((Sqlite.orderBy Prod.snd (rows.filter fun row =>
    row.1.fileKind = .file ∧ pathInBackupScope row.2 scope = true)).map Prod.fst)

/-- The pass of `loadSelectedBackupFiles` for one mapping. -/
def loadMapping (env : Env) (state : Store × List Nat) (entry : Entry) :
    Except Err (Store × List Nat) :=
  match entry.refData with
  | none => .error .backupState
  | some fileID => do
      require (fileID ≠ 0) Err.backupState
      loadTree env (state.1.files.length + 1) state fileID

/-- The pins of a job, in File order. -/
def pinFiles (jobID : Text) (now : Int) (fileIDs : List Nat) : Except Err Store := do
  let pins ← (Sqlite.orderBy id fileIDs).foldlM
    (fun rows fileID => Sqlite.insertRow ExportPin.clash rows ⟨jobID, fileID, now⟩) s.pins
  pure { s with pins := pins }

/-- `CreateBackupSnapshot` without the manifest it returns. -/
def createBackupSnapshot (env : Env) (s : Store) (now : Int) (jobID scope : Text) :
    Except Err Store := do
  let scope := Path.clean scope
  require (jobID ≠ [] ∧ Path.isAbs scope = true) Err.backupState
  let selected ← s.selectBackupMappings scope
  let (s, loaded) ← selected.foldlM (loadMapping env) (s, [])
  s.pinFiles jobID now loaded

/-- Drop the pins of a job. -/
def releaseBackupSnapshot (jobID : Text) : Store :=
  { s with pins := s.pins.filter fun pin => pin.jobID ≠ jobID }

end TgFile.Store
