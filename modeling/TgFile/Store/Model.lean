import TgFile.Directory.Operations
import TgFile.S3.Checksum
import TgFile.Sqlite.Table

/-! # The database

The tables that the file manager keeps next to the directory, as the migrations create them.  A
table is the list of its rows; the unique indexes are the `clash` relations of its row type. -/

namespace TgFile

open Go

/-- `file_state`. -/
inductive FileState
  | init
  | ready
  | deleted
  deriving DecidableEq, Repr

/-- `file_layout_version`: 1 for a File of blocks, 2 for a File of other Files. -/
inductive FileLayout
  | physical
  | composite
  deriving DecidableEq, Repr

/-- A row of `tg_file_tab`. -/
structure StoredFile where
  fileID : Nat
  fileSize : Int
  filePartCount : Int
  fileState : FileState
  fileLayout : FileLayout
  ctime : Int
  mtime : Int
  deriving DecidableEq, Repr

/-- `UNIQUE (file_id)`. -/
def StoredFile.clash (a b : StoredFile) : Bool := a.fileID = b.fileID

/-- A row of `tg_file_part_tab`. -/
structure FilePart where
  fileID : Nat
  filePartID : Nat
  fileKey : Text
  filePartMd5 : Text
  filePartSize : Int
  ctime : Int
  mtime : Int
  deriving DecidableEq, Repr

/-- `UNIQUE (file_id, file_part_id)`. -/
def FilePart.clash (a b : FilePart) : Bool := a.fileID = b.fileID ∧ a.filePartID = b.filePartID

/-- `delete_state`. -/
inductive BlockState
  | live
  | pending
  | deleting
  | deleted
  | expired
  | failed
  deriving DecidableEq, Repr

/-- A row of `tg_file_part_delete_state_tab`. -/
structure DeleteState where
  fileID : Nat
  filePartID : Nat
  backendKind : Text
  deleteRef : Text
  uploadedAt : Int
  state : BlockState
  attemptCount : Nat
  nextAttemptAt : Int
  leaseUntil : Int
  lastAttemptAt : Int
  lastErrorCode : Text
  deletedAt : Int
  ctime : Int
  mtime : Int
  deriving DecidableEq, Repr

/-- `PRIMARY KEY (file_id, file_part_id)`. -/
def DeleteState.clash (a b : DeleteState) : Bool :=
  a.fileID = b.fileID ∧ a.filePartID = b.filePartID

/-- A row of `tg_s3_object_metadata_tab`. -/
structure S3ObjectMetadata where
  entryID : Nat
  etag : Text
  checksumSHA256 : Text
  requestChecksumAlgorithm : Text
  requestChecksumValue : Text
  checksumType : Text
  contentType : Text
  cacheControl : Text
  contentDisposition : Text
  contentEncoding : Text
  contentLanguage : Text
  expires : Text
  userMetadata : Text
  ctime : Int
  mtime : Int
  deriving DecidableEq, Repr

/-- `PRIMARY KEY (entry_id)`. -/
def S3ObjectMetadata.clash (a b : S3ObjectMetadata) : Bool := a.entryID = b.entryID

/-- A row of `tg_s3_file_segment_tab`. -/
structure Segment where
  fileID : Nat
  segmentIndex : Nat
  sourceFileID : Nat
  segmentSize : Int
  ctime : Int
  mtime : Int
  deriving DecidableEq, Repr

/-- `PRIMARY KEY (file_id, segment_index)` and `UNIQUE (source_file_id)`. -/
def Segment.clash (a b : Segment) : Bool :=
  (a.fileID = b.fileID ∧ a.segmentIndex = b.segmentIndex) ∨ a.sourceFileID = b.sourceFileID

/-- A row of `tg_s3_completed_part_tab`; `none` for a checksum that is not available, otherwise
its algorithm and value. -/
structure CompletedPart where
  fileID : Nat
  partNumber : Nat
  partSize : Int
  checksum : Option (Text × Text)
  ctime : Int
  mtime : Int
  deriving DecidableEq, Repr

/-- `PRIMARY KEY (file_id, part_number)`. -/
def CompletedPart.clash (a b : CompletedPart) : Bool :=
  a.fileID = b.fileID ∧ a.partNumber = b.partNumber

/-- `upload_state`. -/
inductive UploadState
  | active
  | completing
  | completed
  | aborted
  deriving DecidableEq, Repr

/-- A row of `tg_s3_multipart_upload_tab`; uploads that carry no checksum have neither an
algorithm nor a type. -/
structure MultipartUpload where
  uploadID : Text
  bucket : Text
  key : Text
  state : UploadState
  contentType : Text
  cacheControl : Text
  contentDisposition : Text
  contentEncoding : Text
  contentLanguage : Text
  expires : Text
  userMetadata : Text
  checksumAlgorithm : Option S3.ChecksumAlgorithm
  checksumType : Option S3.ChecksumType
  fingerprint : Text
  resultFileID : Nat
  resultETag : Text
  resultChecksum : Text
  initiatedAt : Int
  expiresAt : Int
  completedAt : Int
  cleanupAt : Int
  ctime : Int
  mtime : Int
  deriving DecidableEq, Repr

/-- `PRIMARY KEY (upload_id)`. -/
def MultipartUpload.clash (a b : MultipartUpload) : Bool := a.uploadID = b.uploadID

/-- An upload whose control rows may go. -/
def MultipartUpload.Finished (upload : MultipartUpload) : Prop :=
  upload.state = .completed ∨ upload.state = .aborted

instance (upload : MultipartUpload) : Decidable upload.Finished :=
  inferInstanceAs (Decidable (_ ∨ _))

/-- `part_state`. -/
inductive PartState
  | active
  | selected
  | discarded
  deriving DecidableEq, Repr

/-- A row of `tg_s3_multipart_part_tab`. -/
structure MultipartPart where
  uploadID : Text
  partNumber : Nat
  state : PartState
  fileID : Nat
  partSize : Int
  etag : Text
  checksumValue : Text
  uploadedAt : Int
  ctime : Int
  mtime : Int
  deriving DecidableEq, Repr

/-- `PRIMARY KEY (upload_id, part_number)` and `UNIQUE (file_id)`. -/
def MultipartPart.clash (a b : MultipartPart) : Bool :=
  (a.uploadID = b.uploadID ∧ a.partNumber = b.partNumber) ∨ a.fileID = b.fileID

/-- `WebDAVPropertyName`. -/
structure PropertyName where
  namespaceURI : Text
  localName : Text
  deriving DecidableEq, Repr

/-- A row of `tg_webdav_property_tab`. -/
structure WebDAVProperty where
  entryID : Nat
  name : PropertyName
  valueXML : Text
  ctime : Int
  mtime : Int
  deriving DecidableEq, Repr

/-- `PRIMARY KEY (entry_id, namespace_uri, local_name)`. -/
def WebDAVProperty.clash (a b : WebDAVProperty) : Bool := a.entryID = b.entryID ∧ a.name = b.name

/-- `lock_depth`. -/
inductive LockDepth
  | zero
  | infinity
  deriving DecidableEq, Repr

/-- A row of `tg_webdav_lock_tab`. -/
structure WebDAVLock where
  token : Text
  rootPath : Text
  rootEntryID : Nat
  depth : LockDepth
  ownerXML : Text
  principal : Text
  createdAt : Int
  expiresAt : Int
  lockNull : Bool
  deriving DecidableEq, Repr

/-- `PRIMARY KEY (token)` and the unique index on `root_path`. -/
def WebDAVLock.clash (a b : WebDAVLock) : Bool := a.token = b.token ∨ a.rootPath = b.rootPath

/-- A row of `tg_backup_export_pin_tab`. -/
structure ExportPin where
  jobID : Text
  fileID : Nat
  ctime : Int
  deriving DecidableEq, Repr

/-- `PRIMARY KEY (job_id, file_id)`. -/
def ExportPin.clash (a b : ExportPin) : Bool := a.jobID = b.jobID ∧ a.fileID = b.fileID

/-- `stage_state`. -/
inductive StageState
  | queued
  | uploading
  | verifying
  | ready
  | failed
  deriving DecidableEq, Repr

/-- A row of `tg_backup_job_file_tab`. -/
structure BackupJobFile where
  jobID : Text
  fileRef : Text
  sourceFileID : Text
  targetFileID : Nat
  layout : FileLayout
  stageState : StageState
  nextPartIndex : Nat
  errorCode : Text
  ctime : Int
  mtime : Int
  deriving DecidableEq, Repr

/-- `PRIMARY KEY (job_id, file_ref)`. -/
def BackupJobFile.clash (a b : BackupJobFile) : Bool := a.jobID = b.jobID ∧ a.fileRef = b.fileRef

/-- `job_kind`. -/
inductive JobKind
  | exportJob
  | importJob
  deriving DecidableEq, Repr

/-- `job_state`. -/
inductive JobState
  | receiving
  | queued
  | validating
  | snapshotting
  | building
  | staging
  | publishing
  | canceling
  | succeeded
  | failed
  | canceled
  deriving DecidableEq, Repr

/-- `conflict_policy`. -/
inductive ConflictPolicy
  | fail
  | replace
  deriving DecidableEq, Repr

/-- A row of `tg_backup_job_tab`. -/
structure BackupJob where
  jobID : Text
  kind : JobKind
  state : JobState
  scope : Text
  dryRun : Bool
  conflictPolicy : ConflictPolicy
  artifactPath : Text
  cancelRequested : Bool
  completedAt : Int
  deriving DecidableEq, Repr

/-- `PRIMARY KEY (job_id)`. -/
def BackupJob.clash (a b : BackupJob) : Bool := a.jobID = b.jobID

/-- The database of the file manager, and the next value of the File id generator. -/
structure Store where
  dir : Directory
  files : List StoredFile
  parts : List FilePart
  deleteStates : List DeleteState
  metadata : List S3ObjectMetadata
  segments : List Segment
  completedParts : List CompletedPart
  uploads : List MultipartUpload
  uploadParts : List MultipartPart
  properties : List WebDAVProperty
  locks : List WebDAVLock
  pins : List ExportPin
  jobFiles : List BackupJobFile
  jobs : List BackupJob
  nextFileID : Nat
  deriving DecidableEq, Repr

/-- What the file manager's operations take from other packages: the block backend's name and
largest block, the media type table, the hash functions, and the functions of `s3checksum`, which
`Env.digesting` sets to what that package computes. -/
structure Env where
  backendName : Text
  maxFileSize : Int
  /-- `mimetype.LookupWithDefault` of an extension. -/
  mimeType : Text → Text
  /-- The hexadecimal MD5 of the concatenation of the bytes that hexadecimal texts stand for. -/
  md5OfHex : List Text → Text
  /-- The hexadecimal SHA-256 of a text. -/
  sha256 : Text → Text
  /-- `s3checksum.Decode` succeeds. -/
  checksumDecodes : S3.ChecksumAlgorithm → Text → Bool
  /-- `s3checksum.FullObject` of values and sizes. -/
  checksumFullObject : S3.ChecksumAlgorithm → List (Text × Int) → Option Text
  /-- The stored value of `s3checksum.Composite`. -/
  checksumComposite : S3.ChecksumAlgorithm → List Text → Option Text
  /-- `s3checksum.ParseCompositeStored` of a stored value and a number of parts. -/
  checksumParseComposite : S3.ChecksumAlgorithm → Text → Nat → Option Text

/-- A backend with blocks of one byte and constant digests. -/
def Env.plain : Env where
  backendName := "plain".toList
  maxFileSize := 1
  mimeType _ := []
  md5OfHex _ := []
  sha256 _ := []
  checksumDecodes _ _ := true
  checksumFullObject _ _ := some []
  checksumComposite _ _ := some []
  checksumParseComposite _ _ _ := some []

namespace Store

/-- The database after the migrations. -/
def empty : Store where
  dir := .empty
  files := []
  parts := []
  deleteStates := []
  metadata := []
  segments := []
  completedParts := []
  uploads := []
  uploadParts := []
  properties := []
  locks := []
  pins := []
  jobFiles := []
  jobs := []
  nextFileID := 1

end Store

end TgFile
