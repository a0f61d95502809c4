import TgFile.Go.Path

/-! # Checksum policies

The algorithms and aggregation types of `s3checksum`, with the defaults and combinations that
CreateMultipartUpload accepts. -/

namespace TgFile.S3

open Go

/-- `s3checksum.Algorithm`. -/
inductive ChecksumAlgorithm
  | crc32
  | crc32c
  | crc64nvme
  | sha1
  | sha256
  deriving DecidableEq, Repr

/-- `s3checksum.Type`. -/
inductive ChecksumType
  | fullObject
  | composite
  deriving DecidableEq, Repr

/-- The name of an algorithm on the wire and in the database. -/
def ChecksumAlgorithm.text : ChecksumAlgorithm → Text
  | crc32 => "CRC32".toList
  | crc32c => "CRC32C".toList
  | crc64nvme => "CRC64NVME".toList
  | sha1 => "SHA1".toList
  | sha256 => "SHA256".toList

/-- The name on the wire. -/
def ChecksumType.text : ChecksumType → Text
  | fullObject => "FULL_OBJECT".toList
  | composite => "COMPOSITE".toList

/-- The algorithm of a name. -/
def parseAlgorithm (value : Text) : Option ChecksumAlgorithm :=
  [.crc32, .crc32c, .crc64nvme, .sha1, .sha256].find? fun a => a.text = value

/-- The type of a name. -/
def parseType (value : Text) : Option ChecksumType :=
  [.fullObject, .composite].find? fun t => t.text = value

/-- The algorithm has checksums of the type. -/
def validateCombination (algorithm : ChecksumAlgorithm) (type : ChecksumType) : Bool :=
  match type, algorithm with
  | .fullObject, .crc32 => true
  | .fullObject, .crc32c => true
  | .fullObject, .crc64nvme => true
  | .fullObject, .sha1 => false
  | .fullObject, .sha256 => false
  | .composite, .crc64nvme => false
  | .composite, _ => true

/-- Without a name it is CRC64NVME. -/
def parseAlgorithmWithDefault (algorithmValue typeValue : Text) : Option ChecksumAlgorithm :=
  if algorithmValue = [] then
    if typeValue = ChecksumType.composite.text then none else some .crc64nvme
  else parseAlgorithm algorithmValue

/-- The type of an algorithm without a name. -/
def parseTypeWithDefault (algorithm : ChecksumAlgorithm) (typeValue : Text) : Option ChecksumType :=
  if typeValue = [] then some (if algorithm = .crc64nvme then .fullObject else .composite)
  else parseType typeValue

/-- The checksum of a new upload. -/
def resolveMultipart (algorithmValue typeValue : Text) :
    Option (ChecksumAlgorithm × ChecksumType) := do
  let algorithm ← parseAlgorithmWithDefault algorithmValue typeValue
  let type ← parseTypeWithDefault algorithm typeValue
  if validateCombination algorithm type then some (algorithm, type) else none

end TgFile.S3
