import TgFile.Store.References

/-! # Purging unreferenced Files

`PurgeFile` is no transaction: it scans the Files in batches, then the mappings in batches, then
three tables, and afterwards deletes what is left over one File after the other.  Each constructor
of `Purge` is a point between two of its statements. -/

namespace TgFile.Store

/-- `defaultBatch`. -/
def purgeBatch : Nat := 2000

/-- Where a purge stands, with the ids that may still go. -/
inductive Purge
  /-- Scanning the Files after an id. -/
  | files (limitMtime : Int) (lastID : Nat) (found : List Nat)
  /-- Scanning the mappings after an id. -/
  | links (lastID : Nat) (found : List Nat)
  | segments (found : List Nat)
  | sources (found : List Nat)
  | parts (found : List Nat)
  /-- Before the delete states of the first File are counted. -/
  | check (todo : List Nat)
  /-- Before the part rows of the File are deleted. -/
  | dropParts (fileID : Nat) (todo : List Nat)
  /-- Before the row of the File is deleted. -/
  | dropFile (fileID : Nat) (todo : List Nat)
  deriving DecidableEq, Repr

variable (s : Store)

/-- A batch of Files in id order. -/
def scanFiles (lastID : Nat) : List StoredFile :=
  (Sqlite.orderBy StoredFile.fileID (s.files.filter fun f => lastID < f.fileID)).take purgeBatch

/-- A batch of mappings in id order. -/
def scanFileLinks (lastID : Nat) : List Entry :=
  (Sqlite.orderBy Entry.entryID (s.dir.entries.filter fun e => lastID < e.entryID)).take purgeBatch

/-- The Files of active parts of active uploads. -/
def activePartFileIDs : List Nat :=
  (s.uploadParts.filter fun part =>
    part.state = .active ∧ s.uploadActive part.uploadID = true).map MultipartPart.fileID

/-- A block of the File has a delete state. -/
def fileHasDeleteState (fileID : Nat) : Bool :=
  s.deleteStates.any fun row => row.fileID = fileID

/-- Delete the part rows of a File. -/
def deleteFileParts (fileID : Nat) : Store :=
  { s with parts := s.parts.filter fun part => part.fileID ≠ fileID }

/-- Delete the row of a File. -/
def deleteFile (fileID : Nat) : Store :=
  { s with files := s.files.filter fun file => file.fileID ≠ fileID }

/-- The scan of one batch of Files. -/
def purgeFiles (limitMtime : Int) (lastID : Nat) (found : List Nat) : Option Purge :=
  let batch := s.scanFiles lastID
  let found := found ++
    (batch.filter fun file => file.mtime < limitMtime).map StoredFile.fileID
  if batch.length < purgeBatch then
    if found = [] then none else some (.links 0 found)
  else some (.files limitMtime ((batch.getLast?.map StoredFile.fileID).getD lastID) found)

/-- The scan of one batch of mappings. -/
def purgeLinks (lastID : Nat) (found : List Nat) : Option Purge :=
  let batch := s.scanFileLinks lastID
  let found := found.filter fun fileID => some fileID ∉ batch.map Entry.refData
  if batch.length < purgeBatch then
    if found = [] then none else some (.segments found)
  else some (.links ((batch.getLast?.map Entry.entryID).getD lastID) found)

/-- The next statement of a purge; `none` when it has returned. -/
def purgeStep : Purge → Store × Option Purge
  | .files limitMtime lastID found => (s, s.purgeFiles limitMtime lastID found)
  | .links lastID found => (s, s.purgeLinks lastID found)
  | .segments found =>
    (s, some (.sources (found.filter (· ∉ s.segments.map Segment.fileID))))
  | .sources found =>
    (s, some (.parts (found.filter (· ∉ s.segments.map Segment.sourceFileID))))
  | .parts found => (s, some (.check (found.filter (· ∉ s.activePartFileIDs))))
  | .check [] => (s, none)
  | .check (fileID :: todo) =>
    (s, some (if s.fileHasDeleteState fileID then .check todo else .dropParts fileID todo))
  | .dropParts fileID todo => (s.deleteFileParts fileID, some (.dropFile fileID todo))
  | .dropFile fileID todo => (s.deleteFile fileID, some (.check todo))

end TgFile.Store
