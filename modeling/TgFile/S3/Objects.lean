import TgFile.Store.Metadata
import TgFile.WebDAV.Locks

/-! # S3 objects

The transactions of `filemgr/s3_object.go`: PutObject publishes a File under a key, CopyObject
links the File of another key, DeleteObject removes the key. -/

namespace TgFile.Store

open Go Result WebDAV

/-- `S3Condition`; the dates are in milliseconds. -/
structure S3Condition where
  ifMatch : Text
  ifNoneMatch : Text
  ifModifiedSince : Option Int
  ifUnmodifiedSince : Option Int
  deriving DecidableEq, Repr

/-- `S3ObjectInfo`. -/
structure S3ObjectInfo where
  link : Link
  metadata : S3ObjectMetadata
  deriving DecidableEq, Repr

/-- The link of a mapping. -/
def directoryEntryToLink (objectPath : Text) (entry : Entry) : Except Err Link :=
  match entry.refData with
  | none => .error .internal
  | some fileID =>
    .ok { entryID := entry.entryID, fileName := objectPath, fileID := fileID,
          fileSize := entry.fileSize, mode := entry.fileMode, ctime := entry.ctime,
          mtime := entry.mtime, isDir := false }

/-- The metadata of an object that was linked before metadata was kept. -/
def legacyS3Metadata (env : Env) (link : Link) : S3ObjectMetadata where
  entryID := link.entryID
  etag := "W/\"".toList ++ decimal link.fileID ++ ['"']
  checksumSHA256 := []
  requestChecksumAlgorithm := []
  requestChecksumValue := []
  checksumType := []
  contentType := env.mimeType (extension link.fileName)
  cacheControl := defaultS3CacheControl
  contentDisposition := []
  contentEncoding := []
  contentLanguage := []
  expires := []
  userMetadata := emptyUserMetadata
  ctime := link.ctime
  mtime := link.mtime

section
variable (s : Store)

/-- The metadata row of a mapping. -/
def readS3Metadata (entryID : Nat) : Option S3ObjectMetadata :=
  s.metadata.find? fun row => row.entryID = entryID

/-- The object at a path; a directory is no object. -/
def statS3ObjectTx (env : Env) (s : Store) (objectPath : Text) :
    Except Err (Option S3ObjectInfo) := do
  let entry ← s.dir.txStat objectPath
  match entry with
  | none => pure none
  | some entry =>
    if entry.fileKind = .dir then pure none
    else do
      let link ← directoryEntryToLink objectPath entry
      let metadata := (s.readS3Metadata entry.entryID).getD (legacyS3Metadata env link)
      pure (some ⟨link, metadata⟩)

/-- `StatS3Object`: outside a transaction a missing object is an error. -/
def statS3Object (env : Env) (s : Store) (objectPath : Text) : Except Err S3ObjectInfo := do
  let entry ← s.dir.stat objectPath
  if entry.fileKind = .dir then .error .notExist
  else do
    let link ← directoryEntryToLink objectPath entry
    let metadata := (s.readS3Metadata entry.entryID).getD (legacyS3Metadata env link)
    pure ⟨link, metadata⟩

/-! ## Conditions -/

/-- The tag is in the list of a header. -/
def s3ETagListContains (value etag : Text) (weak : Bool) : Bool :=
  let etag := if weak then trimFront etag ['W', '/'] else etag
  (value.splitOn ',').any fun candidate =>
    let candidate := trimSpace candidate
    (if weak then trimFront candidate ['W', '/'] else candidate) = etag

/-- `If-Match` holds. -/
def s3IfMatchSatisfied (info : Option S3ObjectInfo) (value : Text) : Bool :=
  if value = [] then true
  else
    match info with
    | none => false
    | some info =>
      if value = ['*'] then true
      else if ['W', '/'] <+: info.metadata.etag then false
      else s3ETagListContains value info.metadata.etag false

/-- `If-None-Match` holds. -/
def s3IfNoneMatchSatisfied (info : Option S3ObjectInfo) (value : Text) : Bool :=
  match info with
  | none => true
  | some info =>
    value = [] ∨ (value ≠ ['*'] ∧ s3ETagListContains value info.metadata.etag true = false)

/-- The conditions on the time hold. -/
def evaluateS3TimeCondition (info : S3ObjectInfo) (condition : S3Condition) : Except Err Unit := do
  let modifiedAt := truncateSecond info.link.mtime
  require (condition.ifMatch ≠ [] ∨
    ∀ limit ∈ condition.ifUnmodifiedSince, modifiedAt ≤ truncateSecond limit) Err.s3Precondition
  require (condition.ifNoneMatch ≠ [] ∨
    ∀ limit ∈ condition.ifModifiedSince, truncateSecond limit < modifiedAt) Err.s3Precondition

/-- The conditions hold. -/
def evaluateS3Condition (info : Option S3ObjectInfo) (condition : Option S3Condition) :
    Except Err Unit :=
  match condition with
  | none => .ok ()
  | some condition => do
      require (s3IfMatchSatisfied info condition.ifMatch = true) Err.s3Precondition
      require (s3IfNoneMatchSatisfied info condition.ifNoneMatch = true) Err.s3Precondition
      match info with
      | none => .ok ()
      | some info => evaluateS3TimeCondition info condition

/-! ## PutObject -/

variable (now : Int)

/-- Returns the File of the replaced object, 0 when there was none. -/
def removeReplacedS3Object (objectPath : Text)
    (current : Option S3ObjectInfo) : Except Err (Store × Nat) :=
  match current with
  | none => .ok (s, 0)
  | some current => do
      let (dir, _) ← s.dir.remove now objectPath
      let s := { s with dir := dir }.deleteS3Metadata current.link.entryID
      pure (s, current.link.fileID)

/-- The properties and locks of a replaced object go to its new entry. -/
def rebindReplaced (current : Option S3ObjectInfo) (entry : Entry)
    (objectPath : Text) : Except Err Store :=
  match current with
  | none => .ok s
  | some current =>
    s.rebindWebDAVProtocolState current.link.entryID entry.entryID objectPath

/-- The replaced File, unless it is linked again. -/
def markReplacedPending (replacedFileID fileID : Nat) (now : Int) : Except Err Store :=
  if replacedFileID ≠ 0 ∧ replacedFileID ≠ fileID then
    s.markFileTreePendingIfUnreferenced replacedFileID now
  else .ok s

/-- Bind a key to a File, in place of what was there. -/
def publishS3ObjectTx (env : Env) (s : Store) (now : Int) (objectPath : Text) (fileID : Nat)
    (size : Int) (metadata : S3ObjectMetadata) (condition : Option S3Condition) :
    Except Err (Store × Entry) := do
  let current ← s.statS3ObjectTx env objectPath
  evaluateS3Condition current condition
  s.ensureFileTreeCanBeLinked fileID
  let (s, replacedFileID) ← s.removeReplacedS3Object now objectPath current
  let (dir, entry) ← s.dir.create now objectPath size (some fileID)
  let s ← { s with dir := dir }.rebindReplaced current entry objectPath
  let s ← s.insertS3Metadata
    { metadata with entryID := entry.entryID, ctime := now, mtime := now }
  let s ← s.markReplacedPending replacedFileID fileID now
  pure (s, entry)

/-! ## CopyObject -/

/-- A copy onto the same key replaces the metadata only. -/
def copySameS3ObjectTx (source : Text) (sourceInfo : S3ObjectInfo)
    (metadata : Option S3ObjectMetadata) : Except Err Store :=
  match metadata with
  | none => .ok s
  | some metadata => do
      let stored := { metadata with
        entryID := sourceInfo.link.entryID, ctime := sourceInfo.metadata.ctime, mtime := now }
      let s ← (s.deleteS3Metadata stored.entryID).insertS3Metadata stored
      let dir ← s.dir.touch now source now
      pure { s with dir := dir }

/-- The properties and locks of an overwritten object. -/
def dropOverwrittenState (destinationInfo : Option S3ObjectInfo) : Store :=
  match destinationInfo with
  | none => s
  | some info =>
    (s.deleteWebDAVProperties [info.link.entryID]).deleteWebDAVLocks [info.link.entryID]

/-- Bind the destination to the File of the source. -/
def copyDifferentS3ObjectTx (destination : Text)
    (sourceInfo : S3ObjectInfo) (destinationInfo : Option S3ObjectInfo)
    (metadata : Option S3ObjectMetadata) : Except Err (Store × Entry) := do
  let (s, replacedFileID) ← s.removeReplacedS3Object now destination destinationInfo
  let s := s.dropOverwrittenState destinationInfo
  s.ensureFileTreeCanBeLinked sourceInfo.link.fileID
  let (dir, entry) ← s.dir.create now destination sourceInfo.link.fileSize
    (some sourceInfo.link.fileID)
  let s ← { s with dir := dir }.insertS3Metadata
    { metadata.getD sourceInfo.metadata with
      entryID := entry.entryID, ctime := now, mtime := now }
  let s ← copyEntryProperties now s sourceInfo.link.entryID entry.entryID
  let s ← s.markReplacedPending replacedFileID sourceInfo.link.fileID now
  pure (s, entry)

end

/-- `CopyS3Object`. -/
def copyS3Object (env : Env) (s : Store) (now : Int) (source destination : Text)
    (metadata : Option S3ObjectMetadata)
    (sourceCondition destinationCondition : Option S3Condition) : Except Err Store := do
  let found ← s.statS3ObjectTx env source
  match found with
  | none => .error .notExist
  | some sourceInfo => do
      evaluateS3Condition (some sourceInfo) sourceCondition
      let destinationInfo ← s.statS3ObjectTx env destination
      evaluateS3Condition destinationInfo destinationCondition
      if source = destination then s.copySameS3ObjectTx now source sourceInfo metadata
      else do
        let (s, _) ← s.copyDifferentS3ObjectTx now destination sourceInfo destinationInfo metadata
        pure s

/-! ## DeleteObject -/

/-- Returns whether an object was deleted. -/
def deleteS3Object (env : Env) (s : Store) (now : Int) (objectPath : Text)
    (condition : Option S3Condition) : Except Err (Store × Bool) := do
  let current ← s.statS3ObjectTx env objectPath
  evaluateS3Condition current condition
  match current with
  | none => pure (s, false)
  | some current => do
      let (dir, _) ← s.dir.remove now objectPath
      let s := { s with dir := dir }.deleteS3Metadata current.link.entryID
      let s := s.deleteWebDAVProperties [current.link.entryID]
      let s := s.deleteWebDAVLocks [current.link.entryID]
      let s ← s.markFileTreePendingIfUnreferenced current.link.fileID now
      pure (s, true)

end TgFile.Store
