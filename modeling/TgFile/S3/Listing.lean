import TgFile.S3.Keys
import TgFile.S3.ObjectTable
import TgFile.Sqlite.Group

/-! # Listing objects

`ListS3Objects` of `filemgr/s3_object.go`.  One query does everything: it builds the path of every
mapping, keeps the files that `LIKE` accepts, cuts the key out of the path, replaces a key with the
delimiter after the prefix by its common prefix, and groups the rows by the result. -/

namespace TgFile

open Go

/-- `S3ListRequest`. -/
structure S3ListRequest where
  bucket : Text
  keyPrefix : Text
  delimiter : Text
  startAfter : Text
  continuationToken : Text
  maxKeys : Nat
  deriving DecidableEq, Repr

/-- `"/" + request.Bucket + "/"`. -/
def S3ListRequest.root (request : S3ListRequest) : Text := '/' :: request.bucket ++ ['/']

/-- The pattern of the query. -/
def S3ListRequest.pattern (request : S3ListRequest) : Text :=
  Sqlite.escapeLike (request.root ++ request.keyPrefix) ++ ['%']

/-- `S3ListItem`. -/
structure S3ListItem where
  key : Text
  size : Int
  lastModified : Int
  etag : Text
  checksumAlgorithm : Text
  checksumType : Text
  deriving DecidableEq, Repr

/-- `S3ListResult`. -/
structure S3ListResult where
  items : List S3ListItem
  commonPrefixes : List Text
  nextKey : Text
  isTruncated : Bool
  deriving DecidableEq, Repr

/-- A row of the query. -/
structure S3ListPageEntry where
  key : Text
  refData : Option Nat
  common : Bool
  entryID : Nat
  ctime : Int
  mtime : Int
  fileSize : Int
  deriving DecidableEq, Repr

namespace Directory

/-- The recursive part of the query: a row with its path, and the rows below it. -/
def pathsBelow (d : Directory) : Nat → Text → Entry → List (Text × Entry)
  | 0, _, _ => []
  | depth + 1, path, e =>
    (path, e) :: (d.entries.filter fun c => c.parentEntryID = e.entryID).flatMap fun c =>
      d.pathsBelow depth
        (if path = ['/'] then '/' :: c.fileName else path ++ '/' :: c.fileName) c

/-- `tree`, with the depth of a table that forms a tree. -/
def mappingTree (d : Directory) : List (Text × Entry) :=
  (d.entries.filter fun e => e.parentEntryID = 0 ∧ e.fileName = ['/']).flatMap
    (d.pathsBelow d.entries.length ['/'])

end Directory

namespace Store

open Sqlite WebDAV

/-- The text of `ref_data`. -/
def refText (e : Entry) : Text :=
  match e.refData with
  | none => []
  | some fileID => decimal fileID

/-- `projected`: the key of a path, or its common prefix. -/
def projectS3Row (request : S3ListRequest) (path : Text) : Text × Bool :=
  let objectKey := substrFrom path (byteLength request.root + 1)
  let rest := substrFrom objectKey (textLength request.keyPrefix + 1)
  let delimiterIndex := if request.delimiter = ['/'] then instr rest '/' else 0
  if 0 < delimiterIndex then (request.keyPrefix ++ substrFront rest delimiterIndex, true)
  else (objectKey, false)

/-- `objects`: the files that the pattern accepts. -/
def s3ListedFiles (d : Directory) (request : S3ListRequest) : Except Err (List (Text × Entry)) :=
  let files := d.mappingTree.filter fun row => row.2.fileKind = .file
  if maxLikePatternLength < byteLength request.pattern ∧ files ≠ [] then
    .error .internal
  else .ok (files.filter fun row => likeText (some '\\') request.pattern row.1)

/-- `deduplicated`: one row for the rows of an item, with the least value of every column. -/
def mergeS3Rows (request : S3ListRequest) (key : Text) (rows : List (Text × Entry)) :
    Option S3ListPageEntry := do
  let entryID ← minOf (fun row => row.2.entryID) rows
  let ref ← minRow (fun row => refText row.2) rows
  let ctime ← minOf (fun row => row.2.ctime) rows
  let mtime ← minOf (fun row => row.2.mtime) rows
  let fileSize ← minOf (fun row => row.2.fileSize) rows
  pure {
    key := key
    refData := ref.2.refData
    common := rows.any fun row => (projectS3Row request row.1).2
    entryID := entryID
    ctime := ctime
    mtime := mtime
    fileSize := fileSize }

/-- The rows of the query in order, without its start and limit. -/
def s3ListEntries (request : S3ListRequest) (files : List (Text × Entry)) : List S3ListPageEntry :=
  orderBy S3ListPageEntry.key ((groupBy (fun row => (projectS3Row request row.1).1) files).filterMap
    fun group => mergeS3Rows request group.1 group.2)

/-- The next rows of a listing from a key on. -/
def queryS3ListPage (d : Directory) (request : S3ListRequest) (start : Text) :
    Except Err (List S3ListPageEntry) := do
  let files ← s3ListedFiles d request
  pure (((s3ListEntries request files).filter fun entry => start < entry.key).take
    (request.maxKeys + 1))

/-- The page, and whether there was a row after it. -/
def readS3ListPage (rows : List S3ListPageEntry) (maxKeys : Nat) : List S3ListPageEntry × Bool :=
  (rows.take maxKeys, maxKeys < rows.length)

/-- What the listing shows of an object. -/
def s3ListItem (key : Text) (info : S3ObjectInfo) : S3ListItem where
  key := key
  size := info.link.fileSize
  lastModified := info.link.mtime
  etag := info.metadata.etag
  checksumAlgorithm := info.metadata.requestChecksumAlgorithm
  checksumType := info.metadata.checksumType

variable (env : Env)

/-- The object that a row of the query stands for. -/
def s3ListObject (s : Store) (request : S3ListRequest) (entry : S3ListPageEntry)
    (fileID : Nat) : S3ObjectInfo :=
  let link : Link :=
    { entryID := entry.entryID, fileName := request.root ++ entry.key,
      fileID := fileID, fileSize := entry.fileSize, mode := 0, ctime := entry.ctime,
      mtime := entry.mtime, isDir := false }
  ⟨link, (s.readS3Metadata entry.entryID).getD (legacyS3Metadata env link)⟩

/-- Add a row to the page. -/
def appendS3ListEntry (s : Store) (request : S3ListRequest) (result : S3ListResult)
    (entry : S3ListPageEntry) : Except Err S3ListResult :=
  let result := { result with nextKey := entry.key }
  if entry.common then .ok { result with commonPrefixes := result.commonPrefixes ++ [entry.key] }
  else
    match entry.refData with
    | none => .error .internal
    | some fileID =>
      .ok { result with
        items := result.items ++
          [s3ListItem entry.key (s.s3ListObject env request entry fileID)] }

/-- A page of keys and common prefixes. -/
def listS3Objects (s : Store) (request : S3ListRequest) : Except Err S3ListResult :=
  let result : S3ListResult := ⟨[], [], [], false⟩
  if request.maxKeys = 0 then .ok result
  else do
    let start := if request.continuationToken ≠ [] then request.continuationToken
      else request.startAfter
    let rows ← queryS3ListPage s.dir request start
    let (page, truncated) := readS3ListPage rows request.maxKeys
    page.foldlM (s.appendS3ListEntry env request) { result with isTruncated := truncated }

end Store

end TgFile
