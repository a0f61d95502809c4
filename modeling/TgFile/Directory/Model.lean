import TgFile.Errors
import TgFile.Go.Path
import TgFile.Go.Result
import TgFile.Sqlite.Query
import TgFile.Tree.Edit
import TgFile.Tree.Traversal

/-! # The directory of `directory/db_directory.go`

The mapping table, the change journal written in the same transaction, and the operations of
`directoryTransaction` and `dbDirectory` over them.  An operation returns the new state or an
error; a transaction that returns an error is rolled back, so its caller keeps the old state.
Recursive walks carry an explicit depth, the size of the table and one, which is never used up on
a well-formed directory. -/

namespace TgFile

open Go Result

/-- `file_kind`. -/
inductive FileKind
  | dir
  | file
  deriving DecidableEq, Repr

/-- A row of `tg_file_mapping_tab`.  `refData` is the id written in `ref_data`, or `none` for the
empty text of a directory. -/
structure Entry where
  entryID : Nat
  parentEntryID : Nat
  refData : Option Nat
  fileKind : FileKind
  ctime : Int
  mtime : Int
  fileSize : Int
  fileMode : Nat
  fileName : Text
  deriving DecidableEq, Repr

/-- `change_kind`. -/
inductive ChangeKind
  | created
  | updated
  | deleted
  deriving DecidableEq, Repr

/-- A row of `tg_webdav_change_tab`. -/
structure Change where
  revision : Nat
  path : Text
  kind : ChangeKind
  changedAt : Int
  deriving DecidableEq, Repr

/-- The tables of the directory and its id generator, whose next value is unused. -/
structure Directory where
  entries : List Entry
  changes : List Change
  nextID : Nat
  deriving DecidableEq, Repr

/-- The tree that the mapping rows describe. -/
def Entry.schema : Tree.Schema Entry Nat Text where
  id := Entry.entryID
  parent := Entry.parentEntryID
  name := Entry.fileName
  isDir := fun e => e.fileKind = .dir
  above := 0
  rootName := ['/']

/-- The mode of new entries. -/
def defaultEntryFileMode : Nat := 0o755

namespace Directory

/-- The state after the migrations, before any call. -/
def empty : Directory := ⟨[], [], 1⟩

/-! ## Paths -/

/-- The names on the way to a directory, from the root on. -/
def rebuildDirItems (dir : Text) : Except Err (List Text) :=
  let items := (dir.splitOn '/').filter fun item => item ≠ [] ∧ item ≠ ['.']
  if ['.', '.'] ∈ items then .error .invalidPath else .ok (['/'] :: items)

/-- Directory, name and whether the path is the root. -/
def splitFilename (filename : Text) : Text × Text × Bool :=
  let filename := Path.clean filename
  if filename = ['/'] then ([], ['/'], true)
  else
    let filename := Path.trimSlash filename
    (Path.dir filename, Path.base filename, false)

/-- `next` is false when both paths are the same. -/
def precheckMoveCopy (src dst : Text) : Except Err Bool := do
  let s ← rebuildDirItems src
  let d ← rebuildDirItems dst
  if s = d then pure false
  else if s <+: d then .error .destinationInsideSource
  else if d <+: s then .error .destinationInsideSource
  else pure true

/-! ## Statements -/

section
variable (d : Directory)

/-- The child of an entry with a name. -/
def txSearchEntry (pid : Nat) (name : Text) : Option Entry :=
  d.entries.find? fun e => e.parentEntryID = pid ∧ e.fileName = name

/-- The children of an entry. -/
def txListDir (parentID : Nat) : List Entry :=
  Sqlite.orderBy Entry.entryID (d.entries.filter fun e => e.parentEntryID = parentID)

/-- The children, read in pages. -/
def txListAllDir (parentID : Nat) : List Entry :=
  Sqlite.readPages (d.txListDir parentID) 128 (d.entries.length + 1) 0

/-- `INSERT`, with the id of the generator and the unique index on parent and name. -/
def txCreateEntry (pid : Nat) (ent : Entry) : Except Err (Directory × Entry) := do
  require ((d.txSearchEntry pid ent.fileName).isNone) Err.constraint
  let row := { ent with entryID := d.nextID, parentEntryID := pid }
  pure ({ d with entries := d.entries ++ [row], nextID := d.nextID + 1 }, row)

/-- Delete a child. -/
def txRemove (parentID : Nat) (name : Text) : Directory :=
  { d with
    entries := d.entries.filter fun e => ¬(e.parentEntryID = parentID ∧ e.fileName = name) }

/-- `UPDATE ... WHERE entry_id = ?`. -/
def updateEntry (entryID : Nat) (f : Entry → Entry) : Directory :=
  { d with entries := d.entries.map fun e => if e.entryID = entryID then f e else e }

/-- Set the time of an entry. -/
def touchEntryID (entryID : Nat) (mtime : Int) : Directory :=
  d.updateEntry entryID fun e => { e with mtime }

/-- Give an entry another parent and name. -/
def txChangeParent (entryID parentID : Nat) (newname : Text) : Except Err Directory := do
  require (∀ e ∈ d.entries, e.parentEntryID = parentID → e.fileName = newname →
    e.entryID = entryID) Err.constraint
  require (∃ e ∈ d.entries, e.entryID = entryID) Err.noRowsAffected
  pure (d.updateEntry entryID fun e => { e with parentEntryID := parentID, fileName := newname })

variable (now : Int)

/-- Append to the journal. -/
def recordChange (entryPath : Text) (kind : ChangeKind) : Directory :=
  { d with changes := d.changes ++ [⟨d.changes.length + 1, Path.clean entryPath, kind, now⟩] }

/-- A directory before it is inserted. -/
def newDir (name : Text) : Entry :=
  { entryID := 0, parentEntryID := 0, refData := none, fileKind := .dir, ctime := now,
    mtime := now, fileSize := 0, fileMode := defaultEntryFileMode, fileName := name }

/-- Insert a directory. -/
def txCreateDir (pid : Nat) (name : Text) : Except Err (Directory × Entry) :=
  d.txCreateEntry pid (newDir now name)

/-! ## Resolution -/

/-- A directory on the way, made if it is missing and may be. -/
def txSelectDirComponent (parentID : Nat) (name componentPath : Text)
    (allowCreate : Bool) : Except Err (Directory × Entry) :=
  match d.txSearchEntry parentID name with
  | some entry => .ok (d, entry)
  | none =>
    if allowCreate then do
      let (d, entry) ← d.txCreateDir now parentID name
      let d := d.recordChange now componentPath .created
      pure (if parentID ≠ 0 then d.touchEntryID parentID now else d, entry)
    else .error .notExist

end

/-- The loop of `txOnSelectDir` over the items after those already walked. -/
def selectItems (now : Int) (allowCreate : Bool) :
    List Text → Nat → Directory → List Text → Except Err (Directory × Nat)
  | _, parentID, d, [] => .ok (d, parentID)
  | walked, parentID, d, item :: rest => do
      let (d, ent) ← d.txSelectDirComponent now parentID item (Path.join (walked ++ [item]))
        allowCreate
      require (ent.fileKind = .dir) Err.pathComponentNotDirectory
      selectItems now allowCreate (walked ++ [item]) ent.entryID d rest

section
variable (d : Directory)

/-- Resolve a directory path, creating missing directories if allowed; returns its id. -/
def txOnSelectDir (now : Int) (dir : Text) (allowCreate : Bool) : Except Err (Directory × Nat) := do
  let items ← rebuildDirItems dir
  selectItems now allowCreate [] 0 d items

/-- The root. -/
def txGetRoot : Option Entry := d.txSearchEntry 0 ['/']

/-- The entry at a location, if any, and the id of its parent directory. -/
def txGetEntryInfo (location : Text) : Except Err (Option Entry × Nat) :=
  let (dir, name, isRoot) := splitFilename location
  if isRoot then .ok (d.txGetRoot, 0)
  else do
    let (_, parentID) ← d.txOnSelectDir 0 dir false
    pure (d.txSearchEntry parentID name, parentID)

/-- Set the time of the parent, if there is one. -/
def touchParent (entryPath : Text) (mtime : Int) : Except Err Directory :=
  match d.txGetEntryInfo (Path.dir (Path.clean entryPath)) with
  | .error .notExist => .ok d
  | .error err => .error err
  | .ok (none, _) => .ok d
  | .ok (some parent, _) => .ok (d.touchEntryID parent.entryID mtime)

/-! ## Walks -/

/-- The depth given to every walk. -/
def depth : Nat := d.entries.length + 1

end

/-- The entries of a subtree, children first. -/
def collectEntries (d : Directory) : Nat → Entry → List Entry
  | 0, _ => []
  | depth + 1, entry =>
    (if entry.fileKind = .dir then
      (d.txListAllDir entry.entryID).flatMap fun child => d.collectEntries depth child
    else []) ++ [entry]

/-- Remove a subtree, and return what was in it. -/
def collectAndRemove (now : Int) : Nat → Text → Directory → Entry → Directory × List Entry
  | 0, _, d, _ => (d, [])
  | depth + 1, entryPath, d, entry =>
    let (d, removed) :=
      if entry.fileKind = .dir then
        (d.txListAllDir entry.entryID).foldl
          (fun (state : Directory × List Entry) child =>
            let (d, below) := collectAndRemove now depth (Path.join [entryPath, child.fileName])
              state.1 child
            (d, state.2 ++ below))
          (d, [])
      else (d, [])
    ((d.recordChange now entryPath .deleted).txRemove entry.parentEntryID entry.fileName,
      removed ++ [entry])

/-- The closure `walk` of `recordTreeChanges`. -/
def walkChanges (now : Int) (kind : ChangeKind) : Nat → Text → Directory → Entry → Directory
  | 0, _, d, _ => d
  | depth + 1, entryPath, d, current =>
    let d := d.recordChange now entryPath kind
    if current.fileKind = .dir then
      (d.txListAllDir current.entryID).foldl
        (fun d child => walkChanges now kind depth (Path.join [entryPath, child.fileName]) d child)
        d
    else d

/-- Record a change of every path of a subtree. -/
def recordTreeChanges (d : Directory) (now : Int) (root : Text) (kind : ChangeKind) :
    Except Err Directory := do
  let (entry, _) ← d.txGetEntryInfo root
  match entry with
  | none => .error .notExist
  | some entry => pure (walkChanges now kind d.depth (Path.clean root) d entry)

/-- Copy a subtree. -/
def txDoIterAndCopy (now : Int) : Nat → Directory → Entry → Nat → Text → Text → Bool →
    Except Err Directory
  | 0, d, _, _, _, _, _ => .ok d
  | depth + 1, d, srcinfo, dstparent, destination, newname, recursive => do
      let (d, copied) ← d.txCreateEntry dstparent
        { entryID := 0, parentEntryID := dstparent, refData := srcinfo.refData,
          fileKind := srcinfo.fileKind, ctime := now, mtime := now, fileSize := srcinfo.fileSize,
          fileMode := srcinfo.fileMode, fileName := newname }
      let d := d.recordChange now destination .created
      if srcinfo.fileKind = .file ∨ recursive = false then pure d
      else
        (d.txListAllDir srcinfo.entryID).foldlM
          (fun d item => txDoIterAndCopy now depth d item copied.entryID
            (Path.join [destination, item.fileName]) item.fileName true)
          d

/-- The entries of a subtree with their copies. -/
def collectCopyPairs (d : Directory) : Nat → Entry → Entry → Bool →
    Except Err (List (Entry × Entry))
  | 0, _, _, _ => .ok []
  | depth + 1, source, destination, recursive =>
    if source.fileKind = .file ∨ recursive = false then .ok [(source, destination)]
    else
      (d.txListAllDir source.entryID).foldlM
        (fun pairs sourceChild =>
          match d.txSearchEntry destination.entryID sourceChild.fileName with
          | none => .error .internal
          | some destinationChild => do
              let below ← d.collectCopyPairs depth sourceChild destinationChild true
              pure (pairs ++ below))
        [(source, destination)]

end Directory

end TgFile
