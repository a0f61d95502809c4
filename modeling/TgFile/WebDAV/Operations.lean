import TgFile.Store.Metadata
import TgFile.WebDAV.Locks

/-! # WebDAV mutations

The transactions of `filemgr/webdav_protocol.go`, one for each method: MKCOL, PUT, DELETE, COPY,
MOVE, PROPPATCH, LOCK, its refresh, and UNLOCK.  A transaction reads the clock once. -/

namespace TgFile.Store

open Go Result WebDAV

/-- `WebDAVMutationOptions` without the principal, which no check reads. -/
structure MutationOptions where
  condition : Option Condition
  maxEntries : Int
  quotaRoot : Text
  quotaBytes : Int
  deriving DecidableEq, Repr

/-! ## Shared checks -/

variable (s : Store)

/-- The parent is a directory. -/
def ensureWebDAVParentTx (resourcePath : Text) : Except Err Unit := do
  let parent ← s.dir.txStat (Path.dir (Path.clean resourcePath))
  match parent with
  | none => .error .parentNotFound
  | some parent => require (parent.fileKind = .dir) .pathComponentNotDirectory

/-- The entry at a path that must exist. -/
def statExisting (resourcePath : Text) : Except Err Entry := do
  let entry ← s.dir.txStat resourcePath
  match entry with
  | none => .error .notExist
  | some entry => pure entry

/-- The link of an optional entry. -/
def linkOf (resourcePath : Text) (entry : Option Entry) : Except Err (Option Link) :=
  match entry with
  | none => .ok none
  | some entry => do
      let link ← webDAVEntryToLink resourcePath entry
      pure (some link)

/-- The conditions hold for the first path. -/
def evaluateFirstWebDAVConditionTx (paths : List Text)
    (condition : Option Condition) : Except Err Unit :=
  match paths with
  | [] => .ok ()
  | first :: _ => do
      let entry ← s.dir.txStat first
      let link ← linkOf first entry
      evaluateWebDAVCondition link condition

variable (now : Int)

/-- The conditions hold and the locks are submitted. -/
def assertWebDAVConditionsTx (paths : List Text)
    (condition : Option Condition) : Except Err Unit := do
  s.evaluateFirstWebDAVConditionTx paths condition
  s.assertWebDAVLocksTx now paths condition

/-- The subtree is not too large. -/
def enforceWebDAVMutationLimitTx (rootEntryID : Nat) (limit : Int) : Except Err Unit :=
  require (limit ≤ 0 ∨ ((subtree s.dir rootEntryID).length : Int) ≤ limit) .webDAVTooManyItems

/-! ## Quota -/

/-- The entry that a quota is about. -/
def queryWebDAVRootEntryID (root : Text) : Except Err Nat :=
  let root := Path.clean root
  if root = ['/'] then
    match s.dir.txGetRoot with
    | none => .error .notExist
    | some entry => .ok entry.entryID
  else
    match (tree s.dir).find? fun row => row.2 = root with
    | none => .error .notExist
    | some (entry, _) => .ok entry.entryID

/-- `GROUP BY ref_data` with the largest size of each File, summed up. -/
def sumUniqueFiles (rows : List Entry) : Int :=
  let files := rows.filter fun e => e.fileKind = .file
  ((files.map Entry.refData).dedup.map fun ref =>
    ((files.filter fun e => e.refData = ref).map Entry.fileSize).max?.getD 0).sum

/-- The bytes below a root, each File once. -/
def queryWebDAVQuotaUsed (root : Text) : Except Err Int := do
  let entryID ← s.queryWebDAVRootEntryID root
  pure (sumUniqueFiles (subtree s.dir entryID))

/-- How often a File is mapped below a root. -/
def webDAVFileReferenceCountUnderRoot (root : Text) (fileID : Nat) : Except Err Nat := do
  let entryID ← s.queryWebDAVRootEntryID root
  pure ((subtree s.dir entryID).filter fun e =>
    e.fileKind = .file ∧ e.refData = some fileID).length

/-- What overwriting the current File frees. -/
def freedQuota (root : Text) (current : Option Link) (newFileID : Nat) : Except Err Int :=
  match current with
  | none => .ok 0
  | some current =>
    if current.isDir = true ∨ current.fileID = newFileID then .ok 0
    else do
      let count ← s.webDAVFileReferenceCountUnderRoot root current.fileID
      pure (if count = 1 then current.fileSize else 0)

/-- A new File fits the quota. -/
def enforceWebDAVQuotaTx (root : Text) (limit : Int) (current : Option Link)
    (newFileID : Nat) (newSize : Int) : Except Err Unit :=
  if limit ≤ 0 then .ok ()
  else do
    let used ← s.queryWebDAVQuotaUsed root
    let references ← s.webDAVFileReferenceCountUnderRoot root newFileID
    let freed ← s.freedQuota root current newFileID
    require ((if references ≠ 0 then used else used + newSize) - freed ≤ limit) .webDAVQuota

/-! ## MKCOL -/

/-- MKCOL. -/
def createWebDAVCollection (resourcePath : Text)
    (options : MutationOptions) : Except Err Store := do
  s.assertWebDAVConditionsTx now [resourcePath] options.condition
  let entry ← s.dir.txStat resourcePath
  require (entry = none) Err.exist
  let (dir, _) ← s.dir.mkdir now resourcePath
  pure { s with dir := dir }

/-! ## PUT -/

/-- Returns whether the target exists. -/
def prepareWebDAVPublishTx (resourcePath : Text) (fileID : Nat)
    (size : Int) (options : MutationOptions) : Except Err Bool := do
  let current ← s.dir.txStat resourcePath
  let link ← linkOf resourcePath current
  require (∀ entry ∈ current, entry.fileKind = .file) Err.entryNotFile
  evaluateWebDAVCondition link options.condition
  s.assertWebDAVLocksTx now [resourcePath] options.condition
  s.enforceWebDAVQuotaTx options.quotaRoot options.quotaBytes link fileID size
  s.ensureFileTreeCanBeLinked fileID
  pure current.isSome

/-- The replaced File, unless it is linked again. -/
def markReplacedMapping (oldFileIDs : List Nat) (fileID : Nat) (now : Int) : Except Err Store :=
  if oldFileIDs ≠ [] ∧ oldFileIDs ≠ [fileID] then s.markMappingFilesPending oldFileIDs now
  else .ok s

/-- Bind a path to another File. -/
def replaceWebDAVMappingTx (resourcePath : Text) (fileID : Nat)
    (size : Int) : Except Err (Store × Entry) := do
  let (dir, previous) ← s.dir.replace resourcePath size (some fileID) now now
  let s := { s with dir := dir }
  let entry ← s.statExisting resourcePath
  let s := s.deleteS3Metadata entry.entryID
  let oldFileIDs ← mappingEntryFileIDs [previous]
  let s ← s.markReplacedMapping oldFileIDs fileID now
  pure (s, entry)

/-- Returns the entry and whether it was created. -/
def storeWebDAVMappingTx (resourcePath : Text) (fileID : Nat)
    (size : Int) (exist : Bool) : Except Err (Store × Entry × Bool) :=
  if exist then do
    let (s, entry) ← s.replaceWebDAVMappingTx now resourcePath fileID size
    pure (s, entry, false)
  else do
    s.ensureWebDAVParentTx resourcePath
    let (dir, entry) ← s.dir.create now resourcePath size (some fileID)
    pure ({ s with dir := dir }, entry, true)

/-- `UPDATE tg_webdav_lock_tab SET lock_null = 0, root_entry_id = ? WHERE root_path = ?`. -/
def publishLockNull (entryID : Nat) (rootPath : Text) : Store :=
  { s with
    locks := s.locks.map fun lock =>
      if lock.rootPath = rootPath then { lock with lockNull := false, rootEntryID := entryID }
      else lock }

/-- Returns whether the mapping was created. -/
def publishWebDAVFile (env : Env) (s : Store) (now : Int) (resourcePath : Text) (fileID : Nat)
    (size : Int) (options : MutationOptions) : Except Err (Store × Bool) := do
  let exist ← s.prepareWebDAVPublishTx now resourcePath fileID size options
  let (s, entry, created) ← s.storeWebDAVMappingTx now resourcePath fileID size exist
  let link ← webDAVEntryToLink resourcePath entry
  let s ← s.insertS3Metadata (webDAVS3Metadata env link now)
  pure (s.publishLockNull entry.entryID (Path.clean resourcePath), created)

/-! ## DELETE -/

/-- DELETE. -/
def deleteWebDAVResource (resourcePath : Text) (options : MutationOptions) : Except Err Store := do
  let entry ← s.statExisting resourcePath
  let link ← webDAVEntryToLink resourcePath entry
  evaluateWebDAVCondition (some link) options.condition
  s.enforceWebDAVMutationLimitTx entry.entryID options.maxEntries
  s.assertWebDAVTreeLocksTx now [resourcePath] options.condition
  let (dir, removed) ← s.dir.remove now resourcePath
  { s with dir := dir }.finalizeRemovedWebDAVEntries removed now

/-! ## COPY -/

/-- The Files of the copies may be linked. -/
def validateWebDAVCopies (copies : List (Entry × Entry)) : Except Err Unit :=
  copies.forM fun copied =>
    if copied.1.fileKind = .dir then .ok ()
    else
      match copied.1.refData with
      | none => .error .internal
      | some fileID => s.ensureFileTreeCanBeLinked fileID

/-- The lock check of a destination, over its whole tree when it exists. -/
def assertDestinationLocksTx (destination : Text) (present : Bool)
    (condition : Option Condition) : Except Err Unit :=
  if present then s.assertWebDAVTreeLocksTx now [destination] condition
  else s.assertWebDAVLocksTx now [destination] condition

/-- Returns whether the destination exists. -/
def prepareWebDAVCopyDestinationTx (destination : Text)
    (options : MutationOptions) : Except Err Bool := do
  s.ensureWebDAVParentTx destination
  let entry ← s.dir.txStat destination
  s.assertDestinationLocksTx now destination entry.isSome options.condition
  pure entry.isSome

/-- The limit on the number of entries holds for a recursive copy only. -/
def enforceCopyLimitTx (recursive : Bool) (rootEntryID : Nat) (limit : Int) : Except Err Unit :=
  if recursive then s.enforceWebDAVMutationLimitTx rootEntryID limit else .ok ()

/-- Returns whether the destination was created. -/
def copyWebDAVResource (source destination : Text)
    (overwrite recursive : Bool) (options : MutationOptions) : Except Err (Store × Bool) := do
  let sourceEntry ← s.statExisting source
  let sourceLink ← webDAVEntryToLink source sourceEntry
  evaluateWebDAVCondition (some sourceLink) options.condition
  s.enforceCopyLimitTx recursive sourceEntry.entryID options.maxEntries
  let destinationExists ← s.prepareWebDAVCopyDestinationTx now destination options
  let (dir, copies, overwritten) ← s.dir.copyDepth now source destination overwrite recursive
  let s := { s with dir := dir }
  s.validateWebDAVCopies copies
  let s ← s.finalizeRemovedWebDAVEntries overwritten now
  let s ← s.copyWebDAVMetadata copies
  let s ← s.copyWebDAVProperties copies now
  pure (s, !destinationExists)

/-! ## MOVE -/

/-- The rows whose root MOVE rewrites. -/
def moveSelectsLock (cleanSource : Text) (lock : WebDAVLock) : Bool :=
  lock.rootPath = cleanSource ∨
    Sqlite.like (some '\\') (Sqlite.escapeLike (cleanSource ++ ['/']) ++ ['%']) lock.rootPath

/-- `root_path = destination || substr(root_path, len(source) + 1)`. -/
def moveLockRoot (cleanSource cleanDestination : Text) (lock : WebDAVLock) : WebDAVLock :=
  { lock with
    rootPath := cleanDestination ++ Sqlite.substr lock.rootPath (byteLength cleanSource + 1) }

/-- The locks of a moved subtree go with it. -/
def moveLocks (source destination : Text) : Except Err Store := do
  let cleanSource := Path.clean source
  let locks ← Sqlite.updateRows WebDAVLock.clash (moveSelectsLock cleanSource)
    (moveLockRoot cleanSource (Path.clean destination)) [] s.locks
  pure { s with locks := locks }

/-- Returns whether the destination was created. -/
def moveWebDAVResource (source destination : Text) (overwrite : Bool)
    (options : MutationOptions) : Except Err (Store × Bool) := do
  let sourceEntry ← s.statExisting source
  let sourceLink ← webDAVEntryToLink source sourceEntry
  evaluateWebDAVCondition (some sourceLink) options.condition
  s.enforceWebDAVMutationLimitTx sourceEntry.entryID options.maxEntries
  s.assertWebDAVTreeLocksTx now [source, destination] options.condition
  s.ensureWebDAVParentTx destination
  let destinationEntry ← s.dir.txStat destination
  let (dir, overwritten) ← s.dir.move now source destination overwrite
  let s ← { s with dir := dir }.finalizeRemovedWebDAVEntries overwritten now
  let s ← s.moveLocks source destination
  pure (s, destinationEntry.isNone)

/-! ## PROPPATCH -/

/-- `WebDAVPropertyPatch`. -/
structure PropertyPatch where
  set : Bool
  name : PropertyName
  valueXML : Text
  deriving DecidableEq, Repr

/-- The longest property value. -/
def maxWebDAVPropertySize : Nat := 1048576

/-- The property may be stored. -/
def validateWebDAVDeadProperty (patch : PropertyPatch) : Except Err Unit :=
  require (patch.name.namespaceURI ≠ "DAV:".toList ∧ trimSpace patch.name.localName ≠ [] ∧
    byteLength patch.valueXML ≤ maxWebDAVPropertySize) .webDAVProperty

/-- The upsert or delete of one property. -/
def patchProperty (entryID : Nat) (now : Int) (rows : List WebDAVProperty)
    (patch : PropertyPatch) : List WebDAVProperty :=
  if patch.set then
    if ∃ row ∈ rows, row.entryID = entryID ∧ row.name = patch.name then
      rows.map fun row =>
        if row.entryID = entryID ∧ row.name = patch.name then
          { row with valueXML := patch.valueXML, mtime := now }
        else row
    else rows ++ [⟨entryID, patch.name, patch.valueXML, now, now⟩]
  else rows.filter fun row => ¬(row.entryID = entryID ∧ row.name = patch.name)

/-- PROPPATCH. -/
def patchWebDAVProperties (resourcePath : Text)
    (patches : List PropertyPatch) (options : MutationOptions) : Except Err Store := do
  let entry ← s.statExisting resourcePath
  s.assertWebDAVConditionsTx now [resourcePath] options.condition
  patches.forM validateWebDAVDeadProperty
  let s := { s with properties := patches.foldl (patchProperty entry.entryID now) s.properties }
  let dir ← s.dir.touch now resourcePath now
  pure { s with dir := dir }

/-! ## LOCK and UNLOCK -/

/-- `WebDAVLockRequest`; the timeout is in milliseconds. -/
structure LockRequest where
  path : Text
  depth : LockDepth
  ownerXML : Text
  principal : Text
  timeout : Int
  deriving DecidableEq, Repr

/-- Returns the locked entry and whether it was created for the lock. -/
def ensureWebDAVLockTargetTx (request : LockRequest)
    (unpublishedFileID : Nat) : Except Err (Store × Entry × Bool) := do
  let entry ← s.dir.txStat request.path
  match entry with
  | some entry => do
      s.assertNoConflictingWebDAVLockTx now request.path request.depth
      pure (s, entry, false)
  | none => do
      s.ensureWebDAVParentTx request.path
      require (unpublishedFileID ≠ 0) Err.webDAVLockNullNotPrepared
      let (dir, entry) ← s.dir.create now request.path 0 (some unpublishedFileID)
      pure ({ s with dir := dir }, entry, true)

/-- The row a lock request inserts; `uuid` is the random part of its token. -/
def newLock (request : LockRequest) (uuid : Text) (entryID : Nat) (created : Bool) :
    WebDAVLock where
  token := "opaquelocktoken:".toList ++ uuid
  rootPath := Path.clean request.path
  rootEntryID := entryID
  depth := request.depth
  ownerXML := request.ownerXML
  principal := request.principal
  createdAt := now
  expiresAt := now + request.timeout
  lockNull := created

/-- Returns the lock and whether the resource was created. -/
def lockWebDAVResource (request : LockRequest) (unpublishedFileID : Nat)
    (uuid : Text) : Except Err (Store × WebDAVLock × Bool) := do
  let (s, entry, created) ← s.ensureWebDAVLockTargetTx now request unpublishedFileID
  let lock := newLock now request uuid entry.entryID created
  require (lock.principal ≠ [] ∧ lock.createdAt < lock.expiresAt) Err.constraint
  let locks ← Sqlite.insertRow WebDAVLock.clash s.locks lock
  pure ({ s with locks := locks }, lock, created)

/-- LOCK without a body. -/
def refreshWebDAVLock (resourcePath token principal : Text)
    (timeout : Int) (ifHeader : Option IfHeader) : Except Err Store :=
  match s.queryWebDAVLockByToken now token with
  | none => .error .webDAVLockToken
  | some lock => do
      require (lock.rootPath = Path.clean resourcePath ∧ lock.principal = principal)
        Err.webDAVLockToken
      let condition : Condition :=
        { ifMatch := [], ifNoneMatch := [], ifModifiedSince := none, ifUnmodifiedSince := none,
          ifHeader := ifHeader, requestPath := Path.clean resourcePath }
      require (webDAVIfHeaderAllows (some condition) resourcePath [] [lock] = true)
        Err.webDAVPrecondition
      require (lock.createdAt < now + timeout) Err.constraint
      pure { s with
        locks := s.locks.map fun row =>
          if row.token = lock.token then { row with expiresAt := now + timeout } else row }

/-- UNLOCK. -/
def unlockWebDAVResource (resourcePath token principal : Text) : Except Err Store :=
  match s.queryWebDAVLockByToken now token with
  | none => .error .webDAVLockToken
  | some lock => do
      require (lock.rootPath = Path.clean resourcePath ∧ lock.principal = principal)
        Err.webDAVLockToken
      let s := s.deleteLock token
      if lock.lockNull = false then pure s
      else do
        let (dir, removed) ← s.dir.remove now resourcePath
        { s with dir := dir }.finalizeRemovedWebDAVEntries removed now

end TgFile.Store
