import TgFile.WebDAV.Conditions

/-! # State attached to directory entries

Rows of the metadata, property and lock tables that belong to an entry, and the statements that
insert, copy, rebind and delete them. -/

namespace TgFile.Store

open Go Result WebDAV

/-- The default of a header. -/
def defaultS3CacheControl : Text := "public, max-age=604800".toList

/-- The text `{}`. -/
def emptyUserMetadata : Text := [Char.ofNat 123, Char.ofNat 125]

/-- The metadata of a file that WebDAV wrote. -/
def webDAVS3Metadata (env : Env) (link : Link) (now : Int) : S3ObjectMetadata where
  entryID := link.entryID
  etag := webDAVETag (some link)
  checksumSHA256 := []
  requestChecksumAlgorithm := []
  requestChecksumValue := []
  checksumType := []
  contentType := env.mimeType (extension link.fileName)
  cacheControl := defaultS3CacheControl
  contentDisposition := []
  contentEncoding := []
  contentLanguage := []
  expires := []
  userMetadata := emptyUserMetadata
  ctime := now
  mtime := now

variable (s : Store)

/-- Insert the metadata of a mapping. -/
def insertS3Metadata (metadata : S3ObjectMetadata) : Except Err Store := do
  let rows ← Sqlite.insertRow S3ObjectMetadata.clash s.metadata metadata
  pure { s with metadata := rows }

/-- Delete the metadata of a mapping. -/
def deleteS3Metadata (entryID : Nat) : Store :=
  { s with metadata := s.metadata.filter fun row => row.entryID ≠ entryID }

/-- `INSERT ... SELECT` of the metadata of one entry for another. -/
def copyMappingMetadata (sourceEntryID destinationEntryID : Nat) : Except Err Store := do
  let rows ← (s.metadata.filter fun row => row.entryID = sourceEntryID).foldlM
    (fun rows row => Sqlite.insertRow S3ObjectMetadata.clash rows
      { row with entryID := destinationEntryID }) s.metadata
  pure { s with metadata := rows }

/-- Copy the metadata of files to their copies. -/
def copyWebDAVMetadata (copies : List (Entry × Entry)) : Except Err Store :=
  copies.foldlM
    (fun s copied =>
      if copied.1.fileKind = .dir then .ok s
      else s.copyMappingMetadata copied.1.entryID copied.2.entryID)
    s

/-- `INSERT ... SELECT` of the properties of one entry for another. -/
def copyEntryProperties (now : Int) (s : Store) (sourceEntryID destinationEntryID : Nat) :
    Except Err Store := do
  let rows ← (s.properties.filter fun row => row.entryID = sourceEntryID).foldlM
    (fun rows row => Sqlite.insertRow WebDAVProperty.clash rows
      { row with entryID := destinationEntryID, ctime := now, mtime := now }) s.properties
  pure { s with properties := rows }

/-- Copy the properties to the copies. -/
def copyWebDAVProperties (copies : List (Entry × Entry)) (now : Int) : Except Err Store :=
  copies.foldlM
    (fun s copied => copyEntryProperties now s copied.1.entryID copied.2.entryID) s

/-- Move the properties and locks of one entry to another at the same path. -/
def rebindWebDAVProtocolState (sourceEntryID destinationEntryID : Nat)
    (resourcePath : Text) : Except Err Store := do
  let properties ← Sqlite.updateRows WebDAVProperty.clash
    (fun row => row.entryID = sourceEntryID)
    (fun row => { row with entryID := destinationEntryID }) [] s.properties
  let locks ← Sqlite.updateRows WebDAVLock.clash
    (fun row => row.rootEntryID = sourceEntryID)
    (fun row => { row with rootEntryID := destinationEntryID, rootPath := Path.clean resourcePath })
    [] s.locks
  pure { s with properties := properties, locks := locks }

end TgFile.Store
