import TgFile.Sqlite.Like
import TgFile.Store.References
import TgFile.WebDAV.Conditions
import Mathlib.Data.List.Lex
import Mathlib.Data.Char

/-! # Locks

The lock queries of `filemgr/webdav_protocol.go`, the checks that every mutation makes against
them, and the clean-up of expired locks, which removes the resources that only a lock created. -/

namespace TgFile.Store

open Go Result WebDAV

/-! ## Full paths -/

/-- `parent || '/' || name`, with the root's slash not doubled. -/
def childPath (parent name : Text) : Text :=
  if parent = ['/'] then '/' :: name else parent ++ '/' :: name

/-- The recursive query `tree`: every entry below with its full path. -/
def treeRows (d : Directory) : Nat → Entry → Text → List (Entry × Text)
  | 0, _, _ => []
  | depth + 1, entry, full =>
    (entry, full) :: (d.entries.filter fun child => child.parentEntryID = entry.entryID).flatMap
      fun child => treeRows d depth child (childPath full child.fileName)

/-- The rows of `tree` from the root. -/
def tree (d : Directory) : List (Entry × Text) :=
  (d.entries.filter fun e => e.parentEntryID = 0 ∧ e.fileName = ['/']).flatMap fun root =>
    treeRows d d.depth root ['/']

/-- The recursive query `subtree`. -/
def subtree (d : Directory) (rootEntryID : Nat) : List Entry :=
  (d.entries.filter fun e => e.entryID = rootEntryID).flatMap fun root =>
    (treeRows d d.depth root []).map Prod.fst

variable (s : Store)

/-- The entity tag of what is at a path. -/
def queryWebDAVETagByPath (resourcePath : Text) : Except Err Text :=
  match (tree s.dir).find? fun row => row.2 = Path.clean resourcePath with
  | none => .ok []
  | some (entry, _) =>
    if entry.fileKind = .file then
      match entry.refData with
      | none => .error .internal
      | some fileID => .ok (etagOf fileID entry.fileSize)
    else .ok []

/-! ## Queries -/

/-- The conditions of `queryApplicableWebDAVLocks` on a row. -/
def lockApplies (lock : WebDAVLock) (resourcePath : Text) : Bool :=
  lock.rootPath = resourcePath ∨
    (lock.depth = .infinity ∧
      ((lock.rootPath = ['/'] ∧ Sqlite.like none ['/', '%'] resourcePath = true) ∨
        Sqlite.like none (lock.rootPath ++ ['/', '%']) resourcePath = true))

/-- The condition `queryOverlappingWebDAVLocks` adds. -/
def lockInside (lock : WebDAVLock) (resourcePath : Text) : Bool :=
  Sqlite.like (some '\\') (Sqlite.escapeLike (resourcePath ++ ['/']) ++ ['%']) lock.rootPath

variable (now : Int)

/-- The locks that cover a path. -/
def queryApplicableWebDAVLocks (resourcePath : Text) : List WebDAVLock :=
  Sqlite.orderBy WebDAVLock.rootPath (s.locks.filter fun lock =>
    now < lock.expiresAt ∧ lockApplies lock (Path.clean resourcePath) = true)

/-- The locks that cover a path or are below it. -/
def queryOverlappingWebDAVLocks (resourcePath : Text) : List WebDAVLock :=
  Sqlite.orderBy WebDAVLock.rootPath (s.locks.filter fun lock =>
    now < lock.expiresAt ∧ (lockApplies lock (Path.clean resourcePath) = true ∨
      lockInside lock (Path.clean resourcePath) = true))

/-- The lock with a token. -/
def queryWebDAVLockByToken (token : Text) : Option WebDAVLock :=
  s.locks.find? fun lock => lock.token = token ∧ now < lock.expiresAt

/-! ## Checks -/

/-- The pass of `assertWebDAVLocksTx` for one path. -/
def assertWebDAVLocksAt (condition : Option Condition) (resourcePath : Text) : Except Err Unit :=
  let locks := s.queryApplicableWebDAVLocks now resourcePath
  if locks = [] ∧ hasApplicableWebDAVIfList condition resourcePath = false then .ok ()
  else do
    let etag ← s.queryWebDAVETagByPath resourcePath
    if locks = [] then
      require (webDAVIfHeaderAllows condition resourcePath etag [] = true) Err.webDAVPrecondition
    else
      require (∀ lock ∈ locks, webDAVIfHeaderAllows condition resourcePath etag [lock] = true)
        Err.webDAVLocked

/-- The header submits the locks of every path. -/
def assertWebDAVLocksTx (paths : List Text) (condition : Option Condition) : Except Err Unit :=
  paths.forM (s.assertWebDAVLocksAt now condition)

/-- The pass of `assertWebDAVTreeLocksTx` for one path. -/
def assertWebDAVTreeLocksAt (condition : Option Condition)
    (resourcePath : Text) : Except Err Unit := do
  let locks := s.queryOverlappingWebDAVLocks now resourcePath
  let etag ← s.queryWebDAVETagByPath resourcePath
  require (∀ lock ∈ locks, webDAVIfHeaderAllows condition resourcePath etag [lock] = true)
    Err.webDAVLocked
  require (¬(locks = [] ∧ hasApplicableWebDAVIfList condition resourcePath = true ∧
    webDAVIfHeaderAllows condition resourcePath etag [] = false)) Err.webDAVPrecondition

/-- The header submits the locks of every subtree. -/
def assertWebDAVTreeLocksTx (paths : List Text) (condition : Option Condition) : Except Err Unit :=
  paths.forM (s.assertWebDAVTreeLocksAt now condition)

/-- `assertNoConflictingWebDAVLockTx`. -/
def assertNoConflictingWebDAVLockTx (resourcePath : Text) (depth : LockDepth) : Except Err Unit :=
  let locks :=
    match depth with
    | .zero => s.queryApplicableWebDAVLocks now resourcePath
    | .infinity => s.queryOverlappingWebDAVLocks now resourcePath
  require (locks = []) .webDAVLocked

/-! ## Removing entries -/

/-- The pass of `mappingEntryFileIDs` for one entry. -/
def collectFileID (fileIDs : List Nat) (entry : Entry) : Except Err (List Nat) :=
  if entry.fileKind = .dir then .ok fileIDs
  else
    match entry.refData with
    | none => .error .internal
    | some fileID => .ok (if fileID ∈ fileIDs then fileIDs else fileIDs ++ [fileID])

/-- The Files of removed entries, each once. -/
def mappingEntryFileIDs (entries : List Entry) : Except Err (List Nat) :=
  entries.foldlM collectFileID []

/-- Delete the metadata of entries. -/
def deleteMappingMetadata (entryIDs : List Nat) : Store :=
  { s with metadata := s.metadata.filter fun row => row.entryID ∉ entryIDs }

/-- Delete the properties of entries. -/
def deleteWebDAVProperties (entryIDs : List Nat) : Store :=
  { s with properties := s.properties.filter fun row => row.entryID ∉ entryIDs }

/-- Delete the locks of entries. -/
def deleteWebDAVLocks (entryIDs : List Nat) : Store :=
  { s with locks := s.locks.filter fun row => row.rootEntryID ∉ entryIDs }

/-- Delete what entries had and give up their Files. -/
def finalizeRemovedWebDAVEntries (entries : List Entry) (now : Int) : Except Err Store := do
  let fileIDs ← mappingEntryFileIDs entries
  let entryIDs := entries.map Entry.entryID
  let s := s.deleteMappingMetadata entryIDs
  let s := s.deleteWebDAVProperties entryIDs
  let s := s.deleteWebDAVLocks entryIDs
  s.markMappingFilesPending fileIDs now

/-- `DELETE FROM tg_webdav_lock_tab WHERE token = ?`. -/
def deleteLock (token : Text) : Store :=
  { s with locks := s.locks.filter fun lock => lock.token ≠ token }

/-- The pass of `cleanupExpiredWebDAVLocks` for one expired lock. -/
def expireLock (s : Store) (lock : WebDAVLock) : Except Err Store := do
  let s := s.deleteLock lock.token
  if lock.lockNull = false then pure s
  else do
    let entry ← s.dir.txStat lock.rootPath
    if ∀ e ∈ entry, e.entryID ≠ lock.rootEntryID then pure s
    else do
      let (dir, removed) ← s.dir.remove now lock.rootPath
      { s with dir := dir }.finalizeRemovedWebDAVEntries removed now

/-- The locks whose time is over. -/
def expiredLocks : List WebDAVLock :=
  Sqlite.orderBy WebDAVLock.expiresAt (s.locks.filter fun lock => lock.expiresAt ≤ now)

/-- Remove expired locks, with the empty files they made. -/
def cleanupExpiredWebDAVLocks : Except Err Store :=
  (s.expiredLocks now).foldlM (expireLock now) s

end TgFile.Store
