import TgFile.Store.Model

/-! # References to Files

`filemgr/references.go`: what keeps a File alive, the check before a File is linked, and the step
that hands an unreferenced File to the block-delete worker. -/

namespace TgFile.Store

open Go Result

section
variable (s : Store)

/-- The row of a File. -/
def readStoredFile (fileID : Nat) : Option StoredFile :=
  s.files.find? fun f => f.fileID = fileID

/-- A row of the mapping table holds the File. -/
def mapped (fileID : Nat) : Bool :=
  s.dir.entries.any fun e => e.refData = some fileID

/-- The upload of a part is active. -/
def uploadActive (uploadID : Text) : Bool :=
  s.uploads.any fun u => u.uploadID = uploadID ∧ u.state = .active

/-- A pin, a mapping, a composite File or an upload refers to the File. -/
def fileHasLiveReference (fileID : Nat) : Bool :=
  (s.pins.any fun pin => pin.fileID = fileID) ||
    s.mapped fileID ||
    (s.segments.any fun segment => segment.sourceFileID = fileID ∧ s.mapped segment.fileID) ||
    s.uploadParts.any fun part =>
      part.fileID = fileID ∧ part.state = .active ∧ s.uploadActive part.uploadID

/-! ## Linking -/

/-- No block is pending, claimed or gone. -/
def ensurePhysicalFileLive (fileID : Nat) : Except Err Unit :=
  require (∀ row ∈ s.deleteStates, row.fileID = fileID → row.state = .live) .s3ObjectConflict

/-- The part rows of a File. -/
def filePartRows (fileID : Nat) : List FilePart :=
  s.parts.filter fun p => p.fileID = fileID

/-- The delete states that join a part row. -/
def partDeleteStates (part : FilePart) : List DeleteState :=
  s.deleteStates.filter fun row => row.fileID = part.fileID ∧ row.filePartID = part.filePartID

/-- Every block has a live delete state. -/
def ensurePhysicalFileDeletionRefsComplete (fileID : Nat) : Except Err Unit :=
  match s.readStoredFile fileID with
  | none => .error .s3ObjectConflict
  | some file =>
    let physical := s.filePartRows fileID
    let live := physical.flatMap fun p => (s.partDeleteStates p).filter fun r => r.state = .live
    require ((physical.length : Int) = file.filePartCount ∧
      (live.length : Int) = file.filePartCount) .s3ObjectConflict

/-- A segment is the next one of a File and reads a ready File. -/
def validStoredCompositeSegment (segment : Segment) (expectedIndex : Nat)
    (currentSize finalSize : Int) : Bool :=
  match s.readStoredFile segment.sourceFileID with
  | none => false
  | some source =>
    segment.segmentIndex = expectedIndex ∧ source.fileState = .ready ∧
      source.fileLayout = .physical ∧ source.fileSize = segment.segmentSize ∧
      0 ≤ segment.segmentSize ∧ currentSize ≤ finalSize - segment.segmentSize

/-- The segments of a File in index order. -/
def segmentsOf (fileID : Nat) : List Segment :=
  Sqlite.orderBy Segment.segmentIndex (s.segments.filter fun segment => segment.fileID = fileID)

/-- The loop over the segments, with the next index and the size so far. -/
def checkSegments (s : Store) (finalSize : Int) : Nat → Int → List Segment →
    Except Err (Nat × Int)
  | index, total, [] => .ok (index, total)
  | index, total, segment :: segments => do
      require (s.validStoredCompositeSegment segment index total finalSize = true)
        Err.s3ObjectConflict
      s.ensurePhysicalFileLive segment.sourceFileID
      s.ensurePhysicalFileDeletionRefsComplete segment.sourceFileID
      s.checkSegments finalSize (index + 1) (total + segment.segmentSize) segments

/-- The sources of a composite File are live. -/
def ensureCompositeFileLive (record : StoredFile) : Except Err Unit := do
  let (index, total) ← s.checkSegments record.fileSize 0 0 (s.segmentsOf record.fileID)
  require (index ≠ 0 ∧ total = record.fileSize) .s3ObjectConflict

/-- A File may become the target of a mapping. -/
def ensureFileTreeCanBeLinked (fileID : Nat) : Except Err Unit :=
  match s.readStoredFile fileID with
  | none => .error .s3ObjectConflict
  | some record => do
      require (record.fileState = .ready) Err.s3ObjectConflict
      match record.fileLayout with
      | .physical => s.ensurePhysicalFileLive fileID
      | .composite => s.ensureCompositeFileLive record

/-! ## Handing over to the block-delete worker -/

/-- `UPDATE ... SET delete_state = 'pending' WHERE file_id = ? AND delete_state = 'live'`. -/
def markPending (fileID : Nat) (now : Int) : Store :=
  { s with
    deleteStates := s.deleteStates.map fun row =>
      if row.fileID = fileID ∧ row.state = .live then
        { row with state := .pending, nextAttemptAt := now, leaseUntil := 0, mtime := now }
      else row }

/-- The sources of a composite File. -/
def compositeSourceFileIDs (fileID : Nat) : List Nat :=
  (s.segmentsOf fileID).map Segment.sourceFileID

end

/-- The recursion over composite Files, with a bound on its depth. -/
def markTree (now : Int) : Nat → Store → Nat → Except Err Store
  | 0, _, _ => .error .internal
  | depth + 1, s, fileID =>
    if s.fileHasLiveReference fileID then .ok s
    else
      match s.readStoredFile fileID with
      | none => .error .s3ObjectConflict
      | some record =>
        match record.fileLayout with
        | .physical => .ok (s.markPending fileID now)
        | .composite => (s.compositeSourceFileIDs fileID).foldlM (markTree now depth) s

variable (s : Store)

/-- Give up a File and its sources where nothing refers to them. -/
def markFileTreePendingIfUnreferenced (fileID : Nat) (now : Int) : Except Err Store :=
  markTree now (s.files.length + 1) s fileID

/-- Give up a File that was not published. -/
def discardUnpublishedFile (fileID : Nat) (now : Int) : Except Err Store :=
  s.markFileTreePendingIfUnreferenced fileID now

/-- Give up the Files of mappings that are gone. -/
def markMappingFilesPending (fileIDs : List Nat) (now : Int) : Except Err Store :=
  fileIDs.foldlM (fun s fileID => s.markFileTreePendingIfUnreferenced fileID now) s

end TgFile.Store
