import TgFile.S3.Multipart

/-! # Completing a multipart upload

CompleteMultipartUpload: the selected parts become the segments of a new composite File, which is
published under the upload's key in the same transaction. -/

namespace TgFile.Store

open Go Result S3

/-- `CompleteMultipartPart`. -/
structure CompleteMultipartPart where
  partNumber : Nat
  etag : Text
  checksumAlgorithm : Text
  checksumValue : Text
  deriving DecidableEq, Repr

/-- `CompleteMultipartRequest`. -/
structure CompleteMultipartRequest where
  uploadID : Text
  bucket : Text
  key : Text
  parts : List CompleteMultipartPart
  maxObjectSize : Int
  condition : Option S3Condition
  finalChecksumAlgorithm : Text
  finalChecksum : Text
  checksumType : Text
  expectedSize : Option Int
  deriving DecidableEq, Repr

/-- `CompleteMultipartResult`. -/
structure CompleteMultipartResult where
  fileID : Nat
  size : Int
  etag : Text
  checksum : Option (ChecksumAlgorithm × ChecksumType)
  checksumValue : Text
  deriving DecidableEq, Repr

/-! ## Request checks -/

/-- The loop over the requested parts, with the previous part number. -/
def validateCompleteParts : Nat → List CompleteMultipartPart → Except Err Unit
  | _, [] => .ok ()
  | previous, part :: parts => do
      require (previous < part.partNumber) Err.invalidPartOrder
      require (1 ≤ part.partNumber ∧ part.partNumber ≤ maxS3MultipartParts ∧
        isHexMD5 part.etag = true) Err.invalidMultipartPart
      validateCompleteParts part.partNumber parts

/-- The shape of a request. -/
def validateCompleteMultipartRequest (request : CompleteMultipartRequest) : Except Err Unit := do
  require (request.uploadID ≠ [] ∧ request.bucket ≠ [] ∧ request.key ≠ [] ∧
    request.parts ≠ [] ∧ request.parts.length ≤ maxS3MultipartParts) Err.invalidMultipartRequest
  validateCompleteParts 0 request.parts

section
variable (env : Env)

/-- The hash of a part list. -/
def multipartCompletionFingerprint (parts : List CompleteMultipartPart) : Text :=
  env.sha256 (parts.flatMap fun part => decimal part.partNumber ++ ':' :: part.etag ++ ['\n'])

/-- An upload without checksums takes none. -/
def validateLegacyCompleteChecksumRequest (request : CompleteMultipartRequest) : Except Err Unit :=
  require (request.finalChecksumAlgorithm = [] ∧ request.finalChecksum = [] ∧
    request.checksumType = [] ∧ request.expectedSize = none ∧
    ∀ part ∈ request.parts, part.checksumAlgorithm = [] ∧ part.checksumValue = [])
    .invalidMultipartRequest

/-- The checksum headers are those of the upload. -/
def validateCompleteChecksumHeaders (algorithm : ChecksumAlgorithm)
    (type : ChecksumType) (request : CompleteMultipartRequest) : Except Err Unit := do
  require (request.finalChecksumAlgorithm = [] ∨
    request.finalChecksumAlgorithm = algorithm.text) Err.invalidMultipartRequest
  require (request.checksumType = [] ∨ request.checksumType = type.text)
    Err.multipartChecksumType
  require (request.finalChecksum = [] ∨
    env.checksumDecodes algorithm request.finalChecksum = true) Err.invalidMultipartRequest
  require (∀ size ∈ request.expectedSize, 0 ≤ size) Err.invalidMultipartRequest

/-- The loop over the requested parts, with the number that a composite checksum expects. -/
def validateCompletePartChecksums (env : Env) (algorithm : ChecksumAlgorithm)
    (type : ChecksumType) : Nat → List CompleteMultipartPart → Except Err Unit
  | _, [] => .ok ()
  | expected, part :: parts => do
      require (part.checksumAlgorithm = [] ∨ part.checksumAlgorithm = algorithm.text)
        Err.invalidMultipartPart
      require (type ≠ .composite ∨ part.partNumber = expected) Err.invalidPartOrder
      require (type ≠ .composite ∨ part.checksumValue ≠ []) Err.invalidMultipartPart
      require (part.checksumValue = [] ∨ env.checksumDecodes algorithm part.checksumValue = true)
        Err.invalidMultipartPart
      validateCompletePartChecksums env algorithm type (expected + 1) parts

/-- The checksums that a request names are of the upload's kind. -/
def validateCompleteChecksumRequest (upload : MultipartUpload)
    (request : CompleteMultipartRequest) : Except Err Unit := do
  let spec ← multipartChecksumSpec upload
  match spec with
  | none => validateLegacyCompleteChecksumRequest request
  | some (algorithm, type) => do
      validateCompleteChecksumHeaders env algorithm type request
      validateCompletePartChecksums env algorithm type 1 request.parts

/-- The checksum that the request expects is that of the object. -/
def validateFinalChecksum (upload : MultipartUpload)
    (request : CompleteMultipartRequest) (storedValue : Text) : Except Err Unit :=
  if request.finalChecksum = [] then .ok ()
  else do
    let spec ← multipartChecksumSpec upload
    match spec with
    | some (algorithm, .composite) =>
      match env.checksumParseComposite algorithm storedValue request.parts.length with
      | none => .error .multipartConflict
      | some expected => require (request.finalChecksum = expected) .multipartChecksum
    | _ => require (request.finalChecksum = storedValue) .multipartChecksum

/-! ## A repeated request -/

/-- The checksums of a repeated request are those of the selected parts. -/
def validateCompletedPartChecksums (s : Store) (upload : MultipartUpload)
    (request : CompleteMultipartRequest) : Except Err Unit := do
  let spec ← multipartChecksumSpec upload
  if spec = none then pure ()
  else
    request.parts.forM fun requested =>
      match s.uploadParts.find? fun part => part.uploadID = request.uploadID ∧
          part.partNumber = requested.partNumber ∧ part.state = .selected with
      | none => .error .multipartConflict
      | some part =>
        require (part.etag = requested.etag ∧
          (requested.checksumValue = [] ∨ requested.checksumValue = part.checksumValue))
          .invalidMultipartPart

/-- The recorded answer, if the request is the one that completed. -/
def readCompletedMultipartResult (s : Store) (upload : MultipartUpload)
    (request : CompleteMultipartRequest) (fingerprint : Text) :
    Except Err CompleteMultipartResult := do
  require (upload.fingerprint = fingerprint) Err.noSuchUpload
  match s.readStoredFile upload.resultFileID with
  | none => .error .multipartConflict
  | some file => do
      validateCompleteChecksumRequest env upload request
      require (∀ size ∈ request.expectedSize, size = file.fileSize) Err.multipartObjectSize
      s.validateCompletedPartChecksums upload request
      validateFinalChecksum env upload request upload.resultChecksum
      let spec ← multipartChecksumSpec upload
      pure ⟨upload.resultFileID, file.fileSize, upload.resultETag, spec, upload.resultChecksum⟩

/-! ## Selecting the parts -/

end

/-- The part can be selected; only the last one may be small. -/
def validateCompletionPart (s : Store) (legacy : Bool) (requested : CompleteMultipartPart)
    (record : MultipartPart × StoredFile) (isLast : Bool) : Except Err Unit := do
  let (part, file) := record
  require (part.etag = requested.etag) Err.invalidMultipartPart
  require (legacy = true ∨ part.checksumValue ≠ []) Err.multipartConflict
  require (legacy = true ∨ requested.checksumValue = [] ∨
    requested.checksumValue = part.checksumValue) Err.invalidMultipartPart
  require (file.fileState = .ready ∧ file.fileLayout = .physical) Err.invalidMultipartPart
  require (isLast = true ∨ minS3MultipartPartSize ≤ part.partSize) Err.multipartPartTooSmall
  s.ensureMultipartStagingFileLive part.fileID file.filePartCount
  require (s.mapped part.fileID = false) Err.invalidMultipartPart

/-- The loop over the requested parts; returns the rows, their size and their block count. -/
def loadCompletionParts (s : Store) (uploadID : Text) (legacy : Bool) :
    List (MultipartPart × StoredFile) → Int → Int → List CompleteMultipartPart →
      Except Err (List (MultipartPart × StoredFile) × Int × Int)
  | selected, totalSize, totalPartCount, [] => .ok (selected, totalSize, totalPartCount)
  | selected, totalSize, totalPartCount, requested :: rest =>
    match s.activePart uploadID requested.partNumber with
    | none => .error .invalidMultipartPart
    | some record => do
        s.validateCompletionPart legacy requested record rest.isEmpty
        require (totalSize ≤ maxS3MultipartPartSize * maxS3MultipartParts - record.1.partSize)
          Err.invalidMultipartPart
        s.loadCompletionParts uploadID legacy (selected ++ [record])
          (totalSize + record.1.partSize) (totalPartCount + record.2.filePartCount) rest

/-! ## Writing the composite File -/

/-- The segments of a File from an index on. -/
def insertSegments (fileID : Nat) (now : Int) : Nat → Store → List (Nat × Int) →
    Except Err Store
  | _, s, [] => .ok s
  | index, s, (sourceFileID, size) :: rest => do
      let segments ← Sqlite.insertRow Segment.clash s.segments
        ⟨fileID, index, sourceFileID, size, now, now⟩
      insertSegments fileID now (index + 1) { s with segments := segments } rest

/-- The File with its segments. -/
def insertCompositeFile (s : Store) (finalFileID : Nat) (selected : List MultipartPart)
    (totalSize totalPartCount : Int) (now : Int) : Except Err Store := do
  let s ← s.insertFile ⟨finalFileID, totalSize, totalPartCount, .ready, .composite, now, now⟩
  insertSegments finalFileID now 0 s (selected.map fun part => (part.fileID, part.partSize))

/-- The completed-part rows of a File from a part number on. -/
def insertCompletedParts (fileID : Nat) (now : Int) : Nat → Store →
    List (Int × Option (Text × Text)) → Except Err Store
  | _, s, [] => .ok s
  | number, s, (size, checksum) :: rest => do
      let rows ← Sqlite.insertRow CompletedPart.clash s.completedParts
        ⟨fileID, number, size, checksum, now, now⟩
      insertCompletedParts fileID now (number + 1) { s with completedParts := rows } rest

/-- A part's checksum as its manifest row keeps it; an available one is not empty. -/
def manifestChecksum (upload : MultipartUpload) (part : MultipartPart) :
    Except Err (Option (Text × Text)) :=
  match upload.checksumAlgorithm with
  | none => .ok none
  | some algorithm => do
      require (part.checksumValue ≠ []) Err.constraint
      pure (some (algorithm.text, part.checksumValue))

section
variable (s : Store)

/-- The sizes and checksums of the parts of the File. -/
def insertCompletedPartManifest (finalFileID : Nat) (upload : MultipartUpload)
    (selected : List MultipartPart) (now : Int) : Except Err Store := do
  let checksums ← selected.mapM (manifestChecksum upload)
  insertCompletedParts finalFileID now 1 s ((selected.map MultipartPart.partSize).zip checksums)

/-- The hash of the parts' MD5s, with their number. -/
def multipartETag (env : Env) (parts : List MultipartPart) : Except Err Text := do
  require (∀ part ∈ parts, isHexMD5 part.etag = true) Err.invalidMultipartPart
  pure ('"' :: env.md5OfHex (parts.map MultipartPart.etag) ++ '-' :: decimal parts.length ++ ['"'])

/-- An error of the checksum library. -/
def checksumResult (value : Option Text) : Except Err Text :=
  match value with
  | none => .error .internal
  | some value => .ok value

/-- The checksum of the object, from those of its parts. -/
def calculateMultipartChecksum (env : Env) (upload : MultipartUpload)
    (parts : List MultipartPart) : Except Err Text := do
  let spec ← multipartChecksumSpec upload
  match spec with
  | none => pure []
  | some (algorithm, .fullObject) =>
    checksumResult (env.checksumFullObject algorithm
      (parts.map fun part => (part.checksumValue, part.partSize)))
  | some (algorithm, .composite) =>
    checksumResult (env.checksumComposite algorithm (parts.map MultipartPart.checksumValue))

/-- The metadata of the object. -/
def multipartObjectMetadata (upload : MultipartUpload) (etag checksumValue : Text) :
    S3ObjectMetadata where
  entryID := 0
  etag := etag
  checksumSHA256 := []
  requestChecksumAlgorithm := (upload.checksumAlgorithm.map ChecksumAlgorithm.text).getD []
  requestChecksumValue := checksumValue
  checksumType := (upload.checksumType.map ChecksumType.text).getD []
  contentType := upload.contentType
  cacheControl := upload.cacheControl
  contentDisposition := upload.contentDisposition
  contentEncoding := upload.contentEncoding
  contentLanguage := upload.contentLanguage
  expires := upload.expires
  userMetadata := upload.userMetadata
  ctime := 0
  mtime := 0

/-! ## Closing the upload -/

/-- The update of one selected part, which must still be there. -/
def selectPart (uploadID : Text) (now : Int) (s : Store) (part : MultipartPart) :
    Except Err Store := do
  require (∃ row ∈ s.uploadParts, row.uploadID = uploadID ∧ row.partNumber = part.partNumber ∧
    row.fileID = part.fileID ∧ row.state = .discarded) Err.multipartConflict
  pure { s with
    uploadParts := s.uploadParts.map fun row =>
      if row.uploadID = uploadID ∧ row.partNumber = part.partNumber ∧ row.fileID = part.fileID ∧
          row.state = .discarded then
        { row with state := .selected, mtime := now }
      else row }

/-- Select the parts and give up the other Files of the upload. -/
def finalizeMultipartParts (uploadID : Text) (selected : List MultipartPart)
    (now : Int) : Except Err Store := do
  let allParts := s.listMultipartPartFileIDs uploadID
  let s := s.discardActiveParts uploadID now
  let s ← selected.foldlM (selectPart uploadID now) s
  s.markMappingFilesPending
    (allParts.filter fun fileID => fileID ∉ selected.map MultipartPart.fileID) now

/-- The row of the upload becomes completed. -/
def finishMultipartControl (uploadID fingerprint : Text) (finalFileID : Nat)
    (etag checksumValue : Text) (now : Int) : Except Err Store := do
  require (∃ row ∈ s.uploads, row.uploadID = uploadID ∧ row.state = .completing)
    Err.multipartConflict
  pure (s.updateUpload uploadID fun row => { row with
    state := .completed, fingerprint := fingerprint, resultFileID := finalFileID,
    resultETag := etag, resultChecksum := checksumValue, completedAt := now,
    cleanupAt := now + multipartDay, mtime := now })

/-! ## The transaction -/

/-- The row of an active upload becomes completing. -/
def claimMultipartCompletion (uploadID : Text) (now : Int) : Except Err Store := do
  require (∃ row ∈ s.uploads, row.uploadID = uploadID ∧ row.state = .active ∧
    now < row.expiresAt) Err.multipartConflict
  pure (s.updateUpload uploadID fun row => { row with state := .completing, mtime := now })

end

/-- The path of an object. -/
def objectPath (bucket key : Text) : Text := '/' :: bucket ++ '/' :: key

/-- The transaction of a completion after the claim. -/
def completeActiveMultipart (env : Env) (s : Store) (now : Int)
    (request : CompleteMultipartRequest) (upload : MultipartUpload) (fingerprint : Text) :
    Except Err (Store × CompleteMultipartResult) := do
  let spec ← multipartChecksumSpec upload
  let (records, totalSize, totalPartCount) ←
    s.loadCompletionParts request.uploadID spec.isNone [] 0 0 request.parts
  let selected := records.map Prod.fst
  require (∀ size ∈ request.expectedSize, size = totalSize) Err.multipartObjectSize
  require (totalSize ≤ multipartObjectSizeLimit request.maxObjectSize env.maxFileSize)
    Err.multipartEntityTooLarge
  require (totalPartCount ≤ maxFilePartCount) Err.tooManyFileParts
  let finalFileID := s.nextFileID
  let s := { s with nextFileID := s.nextFileID + 1 }
  let s ← s.insertCompositeFile finalFileID selected totalSize totalPartCount now
  let s ← s.insertCompletedPartManifest finalFileID upload selected now
  let etag ← multipartETag env selected
  let checksumValue ← calculateMultipartChecksum env upload selected
  validateFinalChecksum env upload request checksumValue
  let (s, _) ← s.publishS3ObjectTx env now (objectPath request.bucket request.key) finalFileID
    totalSize (multipartObjectMetadata upload etag checksumValue) request.condition
  let s ← s.finalizeMultipartParts request.uploadID selected now
  let s ← s.finishMultipartControl request.uploadID fingerprint finalFileID etag checksumValue now
  pure (s, ⟨finalFileID, totalSize, etag, spec, checksumValue⟩)

/-- The result is missing when the upload had expired and was aborted instead. -/
def completeMultipartUpload (env : Env) (s : Store) (now : Int)
    (request : CompleteMultipartRequest) :
    Except Err (Store × Option CompleteMultipartResult) := do
  validateCompleteMultipartRequest request
  let fingerprint := multipartCompletionFingerprint env request.parts
  let upload ← s.matchedUpload request.uploadID request.bucket request.key
  match upload.state with
  | .completed => do
      let result ← s.readCompletedMultipartResult env upload request fingerprint
      pure (s, some result)
  | .active =>
    if upload.expiresAt ≤ now then do
      let s ← s.abortMultipartUploadTx upload now
      pure (s, none)
    else do
      validateCompleteChecksumRequest env upload request
      let s ← s.claimMultipartCompletion request.uploadID now
      let (s, result) ← s.completeActiveMultipart env now request upload fingerprint
      pure (s, some result)
  | _ => .error .noSuchUpload

end TgFile.Store
