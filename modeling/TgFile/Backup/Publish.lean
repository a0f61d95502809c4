import TgFile.Backup.Import
import TgFile.Store.Metadata
import TgFile.WebDAV.Locks

/-! # Publishing an imported backup

`PublishBackupImport`: the root is created first, in a transaction of its own; then one transaction
creates the directories, links the Files, restores metadata and properties, and closes the job. -/

namespace TgFile.Store

open Go Result Backup WebDAV

/-- What the publisher keeps between its loops: the entry of each path, newest first, and the Files
of replaced mappings. -/
structure Publisher where
  store : Store
  entryByPath : List (Text × Nat)
  replacedIDs : List Nat
  deriving DecidableEq, Repr

/-- `UPDATE tg_file_mapping_tab SET file_mode = ?, ctime = ?, mtime = ? WHERE entry_id = ?`. -/
def updateBackupEntryMetadata (s : Store) (entryID mode : Nat) (ctime mtime : Int) : Store :=
  { s with dir := s.dir.updateEntry entryID fun e => { e with fileMode := mode, ctime, mtime } }

/-- The directory of an item, created when it is missing, and whether it was there. -/
def importedDirectory (s : Store) (now : Int) (path : Text) :
    Except Err (Store × Entry × Bool) := do
  let current ← s.dir.txStat path
  match current with
  | some entry => do
      require (entry.fileKind = .dir) Err.backupConflict
      pure (s, entry, true)
  | none => do
      let (dir, entry) ← s.dir.mkdir now path
      pure ({ s with dir := dir }, entry, false)

/-- A directory that was there before is recorded as changed. -/
def touchReused (d : Directory) (now : Int) (item : ManifestDirectory) (reused : Bool) :
    Except Err Directory :=
  if reused then d.touch now item.path item.mtime else .ok d

section
variable (now : Int)

/-- The pass of `publishDirectories` for one item. -/
def publishDirectory (p : Publisher) (item : ManifestDirectory) : Except Err Publisher := do
  let (s, entry, reused) ← p.store.importedDirectory now item.path
  let s := s.updateBackupEntryMetadata entry.entryID item.mode item.ctime item.mtime
  let dir ← touchReused s.dir now item reused
  pure { p with
    store := { s with dir := dir }, entryByPath := (item.path, entry.entryID) :: p.entryByPath }

/-- Returns the entry and the File it replaced. -/
def replaceMapping (s : Store) (now : Int) (policy : ConflictPolicy) (item : Mapping)
    (targetID : Nat) (current : Entry) : Except Err (Store × Entry × Nat) := do
  require (policy = .replace ∧ current.fileKind = .file) Err.backupConflict
  match current.refData with
  | none => .error .internal
  | some oldID => do
      let s := s.deleteS3Metadata current.entryID
      let s := s.deleteWebDAVProperties [current.entryID]
      let (dir, entry) ← s.dir.replace item.path item.size (some targetID) now item.mtime
      pure ({ s with dir := dir }, entry, oldID)

/-- Bind a path to an imported File, as the policy says. -/
def publishMapping (s : Store) (now : Int) (policy : ConflictPolicy) (item : Mapping)
    (targetID : Nat) : Except Err (Store × Entry × List Nat) := do
  let current ← s.dir.txStat item.path
  match current with
  | none => do
      let (dir, entry) ← s.dir.create now item.path item.size (some targetID)
      pure ({ s with dir := dir }, entry, [])
  | some current => do
      let (s, entry, oldID) ← s.replaceMapping now policy item targetID current
      pure (s, entry, [oldID])

/-- The S3 metadata of a path; a later record of the manifest overrides an earlier one. -/
def restoreS3Metadata (manifest : Manifest) (path : Text) (s : Store) (entryID : Nat) :
    Except Err Store :=
  match manifest.s3Objects.reverse.find? fun item => item.path = path with
  | none => .ok s
  | some item => s.insertS3Metadata { item.metadata with entryID := entryID }

/-- The pass of `publishMappings` for one item. -/
def publishMappingItem (jobID : Text) (manifest : Manifest) (policy : ConflictPolicy)
    (p : Publisher) (item : Mapping) : Except Err Publisher := do
  let targetID := p.store.backupTarget jobID item.fileRef
  p.store.ensureFileTreeCanBeLinked targetID
  let (s, entry, replaced) ← p.store.publishMapping now policy item targetID
  let s := s.updateBackupEntryMetadata entry.entryID item.mode item.ctime item.mtime
  let s ← restoreS3Metadata manifest item.path s entry.entryID
  pure { store := s, entryByPath := (item.path, entry.entryID) :: p.entryByPath,
         replacedIDs := p.replacedIDs ++ replaced }

/-- The upsert of one imported property. -/
def upsertProperty (rows : List WebDAVProperty) (property : WebDAVProperty) : List WebDAVProperty :=
  if ∃ row ∈ rows, row.entryID = property.entryID ∧ row.name = property.name then
    rows.map fun row =>
      if row.entryID = property.entryID ∧ row.name = property.name then property else row
  else rows ++ [property]

/-- The first loop of `publishWebDAVProperties` for one property. -/
def publishProperty (entryByPath : List (Text × Nat)) (s : Store) (property : ManifestProperty) :
    Except Err Store :=
  match entryByPath.find? fun known => known.1 = property.path with
  | none => .error .backupState
  | some (_, entryID) =>
    let row : WebDAVProperty :=
      ⟨entryID, property.name, property.valueXML, property.ctime, property.mtime⟩
    .ok { s with properties := upsertProperty s.properties row }

/-- The changed paths, each once, with the time of its last property. -/
def changedPaths (properties : List ManifestProperty) : List (Text × Int) :=
  (properties.map ManifestProperty.path).dedup.map fun path =>
    (path, ((properties.reverse.find? fun p => p.path = path).map ManifestProperty.mtime).getD 0)

/-- The second loop, for one changed path. -/
def touchChanged (s : Store) (changed : Text × Int) : Except Err Store := do
  let dir ← s.dir.touch now changed.1 changed.2
  pure { s with dir := dir }

/-- Store the properties and touch the paths they changed. -/
def publishWebDAVProperties (manifest : Manifest) (p : Publisher) : Except Err Publisher := do
  let s ← manifest.webDAVProperties.foldlM (publishProperty p.entryByPath) p.store
  let s ← (changedPaths manifest.webDAVProperties).foldlM (touchChanged now) s
  pure { p with store := s }

/-- `UPDATE tg_backup_job_tab ... WHERE job_id = ?` for the rows that meet a condition; `missed`
is returned unless one row does. -/
def updateJob (s : Store) (jobID : Text) (condition : BackupJob → Bool)
    (f : BackupJob → BackupJob) (missed : Err) : Except Err Store := do
  require (∃ job ∈ s.jobs, job.jobID = jobID ∧ condition job = true) missed
  pure { s with
    jobs := s.jobs.map fun job =>
      if job.jobID = jobID ∧ condition job = true then f job else job }

/-- An import job in state `publishing`. -/
def publishingImport (job : BackupJob) : Bool := job.kind = .importJob ∧ job.state = .publishing

/-- Give up the replaced Files and close the job. -/
def completePublish (jobID : Text) (p : Publisher) : Except Err Store := do
  let s ← p.store.markMappingFilesPending p.replacedIDs now
  s.updateJob jobID publishingImport (fun job =>
    { job with state := .succeeded, completedAt := now })
    .backupState

end

/-- The root, which the publishing transaction expects. -/
def prepareImportRoot (s : Store) (now : Int) : Except Err Store := do
  let dir ← s.dir.dbMkdir now ['/']
  pure { s with dir := dir }

/-- `backupImportPublisher.publish`. -/
def publishBackupImport (s : Store) (now : Int) (jobID : Text) (manifest : Manifest)
    (policy : ConflictPolicy) : Except Err Store := do
  require (∃ job ∈ s.jobs, job.jobID = jobID ∧ publishingImport job = true) Err.backupState
  require ((s.readBackupTargets jobID).length = manifest.files.length) Err.backupState
  let p ← manifest.directories.foldlM (publishDirectory now) ⟨s, [], []⟩
  let p ← manifest.mappings.foldlM (publishMappingItem now jobID manifest policy) p
  let p ← publishWebDAVProperties now manifest p
  completePublish now jobID p

end TgFile.Store
