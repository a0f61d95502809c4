import TgFile.S3.Objects
import TgFile.Store.Files

/-! # Multipart uploads

The transactions of `filemgr/s3_multipart.go`: staging parts, completing an upload into a
composite File, aborting it, expiry, and the removal of finished control rows. -/

namespace TgFile.Store

open Go Result S3

/-- The highest part number. -/
def maxS3MultipartParts : Nat := 10000

/-- The size of the largest part. -/
def maxS3MultipartPartSize : Int := 5368709120

/-- The size of the smallest part but the last. -/
def minS3MultipartPartSize : Int := 5242880

/-- `defaultMultipartExpiry` and `multipartControlRetention`: a day, in milliseconds. -/
def multipartDay : Int := 86400000

/-- An hour in milliseconds. -/
def multipartHour : Int := 3600000

/-- A lower-case hexadecimal MD5. -/
def isHexMD5 (etag : Text) : Bool :=
  etag.length = 32 ∧ ∀ c ∈ etag, c.isDigit = true ∨ c ∈ "abcdef".toList

/-! ## Creation -/

/-- `CreateMultipartRequest`; the expiry is in milliseconds, 0 for the default. -/
structure CreateMultipartRequest where
  bucket : Text
  key : Text
  metadata : S3ObjectMetadata
  expireAfter : Int
  algorithm : Text
  checksumType : Text
  deriving DecidableEq, Repr

section
variable (s : Store)

section
variable (now : Int)

/-- `uploadID` is the generated identifier. -/
def createMultipartUpload (request : CreateMultipartRequest)
    (uploadID : Text) : Except Err Store := do
  require (request.bucket ≠ [] ∧ request.key ≠ []) Err.invalidMultipartRequest
  match resolveMultipart request.algorithm request.checksumType with
  | none => .error .invalidMultipartRequest
  | some (algorithm, type) => do
      let expiry := if request.expireAfter = 0 then multipartDay else request.expireAfter
      require (multipartHour ≤ expiry ∧ expiry ≤ multipartDay) Err.invalidMultipartRequest
      let uploads ← Sqlite.insertRow MultipartUpload.clash s.uploads
        { uploadID := uploadID, bucket := request.bucket, key := request.key, state := .active,
          contentType := request.metadata.contentType,
          cacheControl := request.metadata.cacheControl,
          contentDisposition := request.metadata.contentDisposition,
          contentEncoding := request.metadata.contentEncoding,
          contentLanguage := request.metadata.contentLanguage,
          expires := request.metadata.expires, userMetadata := request.metadata.userMetadata,
          checksumAlgorithm := some algorithm, checksumType := some type, fingerprint := [],
          resultFileID := 0, resultETag := [], resultChecksum := [], initiatedAt := now,
          expiresAt := now + expiry, completedAt := 0, cleanupAt := 0, ctime := now, mtime := now }
      pure { s with uploads := uploads }

/-! ## Reading an upload -/

/-- The row of an upload. -/
def readMultipartUpload (uploadID : Text) : Option MultipartUpload :=
  s.uploads.find? fun upload => upload.uploadID = uploadID

/-- `readMultipartUpload` and `matchingMultipartUpload`. -/
def matchedUpload (uploadID bucket key : Text) : Except Err MultipartUpload :=
  match s.readMultipartUpload uploadID with
  | none => .error .noSuchUpload
  | some upload => do
      require (upload.bucket = bucket ∧ upload.key = key) Err.noSuchUpload
      pure upload

/-- `MultipartChecksumSpec`; `none` for an upload without checksums. -/
def multipartChecksumSpec (upload : MultipartUpload) :
    Except Err (Option (ChecksumAlgorithm × ChecksumType)) :=
  match upload.checksumAlgorithm, upload.checksumType with
  | none, none => .ok none
  | some algorithm, some type =>
    if validateCombination algorithm type then .ok (some (algorithm, type))
    else .error .multipartConflict
  | _, _ => .error .multipartConflict

/-! ## Abort -/

/-- Change the row of an upload. -/
def updateUpload (uploadID : Text) (f : MultipartUpload → MultipartUpload) : Store :=
  { s with
    uploads := s.uploads.map fun upload => if upload.uploadID = uploadID then f upload else upload }

/-- The Files of the active parts, in part order. -/
def listMultipartPartFileIDs (uploadID : Text) : List Nat :=
  (Sqlite.orderBy MultipartPart.partNumber (s.uploadParts.filter fun part =>
    part.uploadID = uploadID ∧ part.state = .active)).map MultipartPart.fileID

/-- `UPDATE ... SET part_state = 'discarded' WHERE part_state = 'active'`. -/
def discardActiveParts (uploadID : Text) (now : Int) : Store :=
  { s with
    uploadParts := s.uploadParts.map fun part =>
      if part.uploadID = uploadID ∧ part.state = .active then
        { part with state := .discarded, mtime := now }
      else part }

/-- Discard the parts of an active upload and give up their Files. -/
def abortMultipartUploadTx (upload : MultipartUpload) (now : Int) : Except Err Store := do
  let fileIDs := s.listMultipartPartFileIDs upload.uploadID
  require (s.uploadActive upload.uploadID = true) Err.multipartConflict
  let s := s.updateUpload upload.uploadID fun row =>
    { row with state := .aborted, cleanupAt := now + multipartDay, mtime := now }
  let s := s.discardActiveParts upload.uploadID now
  s.markMappingFilesPending fileIDs now

/-- `AbortMultipartUpload`; an aborted upload stays so. -/
def abortMultipartUpload (uploadID bucket key : Text) : Except Err Store := do
  require (uploadID ≠ [] ∧ bucket ≠ [] ∧ key ≠ []) Err.invalidMultipartRequest
  let upload ← s.matchedUpload uploadID bucket key
  match upload.state with
  | .aborted => pure s
  | .completed => .error .noSuchUpload
  | .active => s.abortMultipartUploadTx upload now
  | .completing => .error .multipartConflict

/-- The transaction of PrepareMultipartPart and ListMultipartParts: an expired upload is aborted
and the flag is true. -/
def ensureActiveMultipartUpload (uploadID bucket key : Text) :
    Except Err (Store × MultipartUpload × Bool) := do
  let upload ← s.matchedUpload uploadID bucket key
  require (upload.state = .active) Err.noSuchUpload
  if now < upload.expiresAt then pure (s, upload, false)
  else do
    let s ← s.abortMultipartUploadTx upload now
    pure (s, upload, true)

/-- The upload ids of a query that selects at most `limit` of them. -/
def expiredUploadIDs (limit : Nat) : List Text :=
  ((Sqlite.orderBy MultipartUpload.expiresAt (s.uploads.filter fun upload =>
    upload.state = .active ∧ upload.expiresAt ≤ now)).take limit).map MultipartUpload.uploadID

/-- The pass of `processExpiredMultipartUploads` for one upload. -/
def expireUpload (s : Store) (uploadID : Text) : Except Err Store :=
  match s.readMultipartUpload uploadID with
  | none => .ok s
  | some upload =>
    if upload.state = .active then s.abortMultipartUploadTx upload now else .ok s

/-- Abort the uploads that have expired. -/
def processExpiredMultipartUploads (limit : Nat) : Except Err Store :=
  (s.expiredUploadIDs now limit).foldlM (expireUpload now) s

/-- Drop the rows of finished uploads after a day. -/
def purgeMultipartControlRows (limit : Nat) : Store :=
  let uploadIDs := ((Sqlite.orderBy MultipartUpload.cleanupAt (s.uploads.filter fun upload =>
    upload.Finished ∧ 0 < upload.cleanupAt ∧ upload.cleanupAt ≤ now)).take limit).map
      MultipartUpload.uploadID
  { s with
    uploadParts := s.uploadParts.filter fun part => part.uploadID ∉ uploadIDs
    uploads := s.uploads.filter fun upload => ¬(upload.uploadID ∈ uploadIDs ∧ upload.Finished) }

/-! ## Parts -/

end

/-- `PutMultipartPartRequest`. -/
structure PutMultipartPartRequest where
  uploadID : Text
  bucket : Text
  key : Text
  partNumber : Nat
  fileID : Nat
  size : Int
  etag : Text
  checksumValue : Text
  maxObjectSize : Int
  deriving DecidableEq, Repr

/-- The shape of a request. -/
def validatePutMultipartPartRequest (request : PutMultipartPartRequest) : Except Err Unit :=
  require (request.uploadID ≠ [] ∧ request.bucket ≠ [] ∧ request.key ≠ [] ∧
    1 ≤ request.partNumber ∧ request.partNumber ≤ maxS3MultipartParts ∧ 0 ≤ request.size ∧
    request.size ≤ maxS3MultipartPartSize ∧ isHexMD5 request.etag = true) .invalidMultipartRequest

/-- The checksum is one of the upload's algorithm. -/
def validateStoredMultipartPartChecksum (env : Env) (upload : MultipartUpload) (value : Text) :
    Except Err Unit := do
  let spec ← multipartChecksumSpec upload
  match spec with
  | none => require (value = []) .invalidMultipartRequest
  | some (algorithm, _) =>
    require (value ≠ [] ∧ env.checksumDecodes algorithm value = true) .invalidMultipartRequest

/-- Every block of the File is live. -/
def ensureMultipartStagingFileLive (fileID : Nat) (partCount : Int) : Except Err Unit :=
  let physical := s.filePartRows fileID
  let states := physical.flatMap s.partDeleteStates
  require ((physical.length : Int) = partCount ∧ (states.length : Int) = partCount ∧
    ∀ row ∈ states, row.state = .live) .invalidMultipartPart

/-- The File can be put into an upload. -/
def validateMultipartStagingFile (fileID : Nat) (size : Int) : Except Err StoredFile :=
  match s.readStoredFile fileID with
  | none => .error .invalidMultipartPart
  | some file => do
      require (file.fileState = .ready ∧ file.fileLayout = .physical ∧ file.fileSize = size)
        Err.invalidMultipartPart
      s.ensureMultipartStagingFileLive fileID file.filePartCount
      require (s.mapped fileID = false) Err.invalidMultipartPart
      pure file

/-- The active parts of an upload joined with their Files. -/
def activeParts (uploadID : Text) : List (MultipartPart × StoredFile) :=
  (s.uploadParts.filter fun part => part.uploadID = uploadID ∧ part.state = .active).flatMap
    fun part => (s.files.filter fun file => file.fileID = part.fileID).map fun file => (part, file)

/-- The active part with a number, joined with its File. -/
def activePart (uploadID : Text) (partNumber : Nat) : Option (MultipartPart × StoredFile) :=
  (s.activeParts uploadID).find? fun row => row.1.partNumber = partNumber

/-- The largest object: the configured one, or all blocks that a File may have. -/
def multipartObjectSizeLimit (configured blockSize : Int) : Int :=
  if 0 < configured then configured
  else if blockSize ≤ 0 ∨ 9223372036854775807 / maxFilePartCount < blockSize then
    9223372036854775807
  else blockSize * maxFilePartCount

/-- The parts together are no larger than an object. -/
def validateMultipartStagingTotals (env : Env) (s : Store) (request : PutMultipartPartRequest)
    (file : StoredFile) (previous : Option (MultipartPart × StoredFile)) : Except Err Unit := do
  let rows := s.activeParts request.uploadID
  let previousSize := (previous.map fun row => row.1.partSize).getD 0
  let previousCount := (previous.map fun row => row.2.filePartCount).getD 0
  let totalSize := (rows.map fun row => row.1.partSize).sum - previousSize + request.size
  let totalPartCount :=
    (rows.map fun row => row.2.filePartCount).sum - previousCount + file.filePartCount
  require (totalSize ≤ multipartObjectSizeLimit request.maxObjectSize env.maxFileSize)
    Err.multipartEntityTooLarge
  require (totalPartCount ≤ maxFilePartCount) Err.tooManyFileParts

/-- Insert or replace the row of a part. -/
def upsertMultipartPart (request : PutMultipartPartRequest) (replace : Bool)
    (now : Int) : Except Err Store :=
  if replace then do
    let rows ← Sqlite.updateRows MultipartPart.clash
      (fun part => part.uploadID = request.uploadID ∧ part.partNumber = request.partNumber ∧
        part.state = .active)
      (fun part => { part with
        fileID := request.fileID, partSize := request.size, etag := request.etag,
        checksumValue := request.checksumValue, uploadedAt := now, mtime := now })
      [] s.uploadParts
    pure { s with uploadParts := rows }
  else do
    let rows ← Sqlite.insertRow MultipartPart.clash s.uploadParts
      { uploadID := request.uploadID, partNumber := request.partNumber, state := .active,
        fileID := request.fileID, partSize := request.size, etag := request.etag,
        checksumValue := request.checksumValue, uploadedAt := now, ctime := now, mtime := now }
    pure { s with uploadParts := rows }

/-- The File of a replaced part. -/
def markReplacedPartPending (previous : Option (MultipartPart × StoredFile))
    (fileID : Nat) (now : Int) : Except Err Store :=
  match previous with
  | none => .ok s
  | some (part, _) =>
    if part.fileID ≠ fileID then s.markFileTreePendingIfUnreferenced part.fileID now else .ok s

end

/-- The flag is true when the upload had expired and was aborted instead. -/
def putMultipartPart (env : Env) (s : Store) (now : Int) (request : PutMultipartPartRequest) :
    Except Err (Store × Bool) := do
  validatePutMultipartPartRequest request
  let (s, upload, expired) ← s.ensureActiveMultipartUpload now request.uploadID request.bucket
    request.key
  if expired then pure (s, true)
  else do
    validateStoredMultipartPartChecksum env upload request.checksumValue
    let file ← s.validateMultipartStagingFile request.fileID request.size
    let previous := s.activePart request.uploadID request.partNumber
    s.validateMultipartStagingTotals env request file previous
    let s ← s.upsertMultipartPart request previous.isSome now
    let s ← s.markReplacedPartPending previous request.fileID now
    pure (s, false)

end TgFile.Store
