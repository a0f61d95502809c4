import Mathlib.Tactic.TypeStar

/-! # Errors of the directory and file managers

The sentinel errors that callers tell apart.  Wrapping an error with more text keeps the sentinel,
so the model returns the sentinel alone. -/

namespace TgFile

/-- The sentinel errors of `directory` and `filemgr`. -/
inductive Err
  /-- `os.ErrNotExist` -/
  | notExist
  /-- `os.ErrExist` -/
  | exist
  | invalidPath
  | pathComponentNotDirectory
  | sourceNotFound
  | destinationMustNotBeRoot
  | destinationExists
  | destinationInsideSource
  | entryMustNotBeRoot
  | entryNotFile
  | parentNotFound
  | noRowsAffected
  | rootNotFoundAfterCreate
  | invalidFileSize
  | invalidBlockSize
  | tooManyFileParts
  | invalidFilePart
  | fileShortRead
  | invalidUploadDeleteReference
  | s3Precondition
  | s3ObjectConflict
  | webDAVPrecondition
  | webDAVLocked
  | webDAVLockToken
  | webDAVProperty
  | webDAVQuota
  | webDAVTooManyItems
  | webDAVSyncToken
  | webDAVLockNullNotPrepared
  | noSuchUpload
  | invalidMultipartPart
  | invalidPartOrder
  | multipartPartTooSmall
  | multipartEntityTooLarge
  | multipartConflict
  | invalidMultipartRequest
  | multipartChecksum
  | multipartChecksumType
  | multipartObjectSize
  | backupConflict
  | backupState
  | backupCompensation
  /-- A `UNIQUE` or `CHECK` constraint refused the statement. -/
  | constraint
  /-- An error that no caller tells apart. -/
  | internal
  deriving DecidableEq, Repr

end TgFile
