import TgFile.Directory.Model

/-! # Operations of the directory

The methods of `directoryTransaction` that other packages call inside a transaction, and the
methods of `dbDirectory` that open their own.  Every method returns the state its transaction
would commit. -/

namespace TgFile.Directory

open Go Result

variable (d : Directory)

/-- `directoryTransaction.Stat`: a missing path or parent is not an error. -/
def txStat (filename : Text) : Except Err (Option Entry) :=
  match d.txGetEntryInfo filename with
  | .error .notExist => .ok none
  | .error err => .error err
  | .ok (entry, _) => .ok entry

variable (now : Int)

/-- `Create` a file. -/
def create (filename : Text) (size : Int) (refdata : Option Nat) :
    Except Err (Directory × Entry) := do
  let filename := Path.trimSlash filename
  let (dir, name, isRoot) := splitFilename filename
  require (isRoot = false) Err.entryMustNotBeRoot
  let (d, parentID) ← d.txOnSelectDir now dir true
  require ((d.txSearchEntry parentID name).isNone) Err.exist
  let (d, created) ← d.txCreateEntry parentID
    { entryID := 0, parentEntryID := parentID, refData := refdata, fileKind := .file,
      ctime := now, mtime := now, fileSize := size, fileMode := defaultEntryFileMode,
      fileName := name }
  let d ← (d.recordChange now filename .created).touchParent filename now
  pure (d, created)

/-- Resolve the parent of a new collection. -/
def selectParent (parent : Text) : Except Err (Directory × Nat) :=
  match d.txOnSelectDir now parent false with
  | .error .notExist => .error .parentNotFound
  | selected => selected

/-- `Mkdir` below an existing parent. -/
def mkdir (dirname : Text) : Except Err (Directory × Entry) := do
  let dirname := Path.trimSlash dirname
  let (parent, name, isRoot) := splitFilename dirname
  require (isRoot = false) Err.entryMustNotBeRoot
  let (d, parentID) ← d.selectParent now parent
  require ((d.txSearchEntry parentID name).isNone) Err.exist
  let (d, created) ← d.txCreateDir now parentID name
  let d ← (d.recordChange now dirname .created).touchParent dirname now
  pure (d, created)

/-- Returns the entry as it was before. -/
def replace (filename : Text) (size : Int) (refdata : Option Nat) (now mtime : Int) :
    Except Err (Directory × Entry) := do
  let (entry, _) ← d.txGetEntryInfo filename
  match entry with
  | none => .error .notExist
  | some entry => do
      require (entry.fileKind = .file) Err.entryNotFile
      let d := d.updateEntry entry.entryID fun e =>
        { e with refData := refdata, fileSize := size, mtime }
      let d ← (d.recordChange now filename .updated).touchParent filename mtime
      pure (d, entry)

/-- Returns the removed entries, children before parents. -/
def remove (filename : Text) : Except Err (Directory × List Entry) := do
  let (entry, _) ← d.txGetEntryInfo filename
  match entry with
  | none => pure (d, [])
  | some entry => do
      let (d, removed) := collectAndRemove now d.depth (Path.clean filename) d entry
      let d ← d.touchParent filename now
      pure (d, removed)

/-- `Touch` an entry. -/
def touch (filename : Text) (mtime : Int) : Except Err Directory := do
  let (entry, _) ← d.txGetEntryInfo filename
  match entry with
  | none => .error .notExist
  | some entry => pure ((d.touchEntryID entry.entryID mtime).recordChange now filename .updated)

/-- The entries an overwrite of `destination` removes. -/
def overwrittenBy (destination : Text) : Except Err (List Entry) :=
  match d.txGetEntryInfo destination with
  | .error .notExist => .ok []
  | .error err => .error err
  | .ok (none, _) => .ok []
  | .ok (some entry, _) => .ok (d.collectEntries d.depth entry)

/-- The entry at a path that must exist. -/
def requireEntry (location : Text) (missing : Err) : Except Err (Entry × Nat) := do
  let (entry, parentID) ← d.txGetEntryInfo location
  match entry with
  | none => .error missing
  | some entry => pure (entry, parentID)

/-- The part of a copy or move that frees the destination. -/
def clearDestination (dst : Text) (dinfo : Option Entry)
    (overwrite : Bool) : Except Err Directory :=
  match dinfo with
  | none => .ok d
  | some dinfo =>
    if overwrite then .ok (collectAndRemove now d.depth (Path.clean dst) d dinfo).1
    else .error .destinationExists

/-- Copy onto a destination, which is cleared. -/
def txDoCopyDepth (src dst : Text) (overwrite recursive : Bool) : Except Err Directory := do
  let next ← precheckMoveCopy src dst
  if next then do
    let (sinfo, _) ← d.requireEntry src .sourceNotFound
    let (_, dname, isRoot) := splitFilename dst
    require (isRoot = false) Err.destinationMustNotBeRoot
    let (dinfo, dstparentid) ← d.txGetEntryInfo dst
    let d ← d.clearDestination now dst dinfo overwrite
    let d ← txDoIterAndCopy now d.depth d sinfo dstparentid (Path.clean dst) dname recursive
    d.touchParent dst now
  else pure d

/-- Returns the pairs of source and copied entries, and the overwritten entries. -/
def copyDepth (source destination : Text) (overwrite recursive : Bool) :
    Except Err (Directory × List (Entry × Entry) × List Entry) := do
  let next ← precheckMoveCopy source destination
  if next then do
    let overwritten ← d.overwrittenBy destination
    let d ← d.txDoCopyDepth now source destination overwrite recursive
    let (sourceEntry, _) ← d.requireEntry source .internal
    let (copiedEntry, _) ← d.requireEntry destination .internal
    let pairs ← d.collectCopyPairs d.depth sourceEntry copiedEntry recursive
    pure (d, pairs, overwritten)
  else pure (d, [], [])

/-- Move onto a destination, which is cleared. -/
def txDoMove (src dst : Text) (overwrite : Bool) : Except Err Directory := do
  let next ← precheckMoveCopy src dst
  if next then do
    let (sinfo, _) ← d.requireEntry src .sourceNotFound
    let (dinfo, parentid) ← d.txGetEntryInfo dst
    let (_, dname, isRoot) := splitFilename dst
    require (isRoot = false) Err.entryMustNotBeRoot
    let d ← d.clearDestination now dst dinfo overwrite
    d.txChangeParent sinfo.entryID parentid dname
  else pure d

/-- Returns the overwritten entries. -/
def move (source destination : Text) (overwrite : Bool) : Except Err (Directory × List Entry) := do
  let next ← precheckMoveCopy source destination
  if next then do
    let overwritten ← d.overwrittenBy destination
    let d ← d.recordTreeChanges now source .deleted
    let d ← d.txDoMove now source destination overwrite
    let d ← d.recordTreeChanges now destination .created
    let d ← d.touchParent source now
    let d ← d.touchParent destination now
    pure (d, overwritten)
  else pure (d, [])

/-- `dbDirectory.Stat`. -/
def stat (filename : Text) : Except Err Entry := do
  let (entry, _) ← d.txGetEntryInfo filename
  match entry with
  | none => .error .notExist
  | some entry => pure entry

/-- `dbDirectory.Mkdir`: creates missing parents, and an existing entry is left alone. -/
def dbMkdir (dir : Text) : Except Err Directory :=
  let (pdir, name, isRoot) := splitFilename dir
  if isRoot then
    match d.txGetRoot with
    | some _ => .ok d
    | none => do
        let (d, _) ← d.txCreateEntry 0 (newDir now ['/'])
        require (d.txGetRoot.isSome) Err.rootNotFoundAfterCreate
        pure d
  else do
    let (d, parentID) ← d.txOnSelectDir now pdir true
    match d.txSearchEntry parentID name with
    | some _ => pure d
    | none => do
        let (d, _) ← d.txCreateDir now parentID name
        pure ((d.recordChange now dir .created).touchEntryID parentID now)

end TgFile.Directory
