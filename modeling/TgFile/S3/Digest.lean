import Mathlib.Data.Nat.Bits
import TgFile.Go.Encoding
import TgFile.Go.Query
import TgFile.Go.Reader
import TgFile.Store.Model

/-! # Digests of parts and objects

`s3checksum`: the Base64 digests on the wire, and the two ways to get the checksum of an object from
those of its parts, `Composite` and `FullObject`.  The hash functions themselves are functions. -/

namespace TgFile.S3

open Go

/-- The size of a digest in bytes. -/
def ChecksumAlgorithm.size : ChecksumAlgorithm → Nat
  | crc32 => 4
  | crc32c => 4
  | crc64nvme => 8
  | sha1 => 20
  | sha256 => 32

/-- The hash functions, with digests of fixed sizes. -/
structure Hashes where
  md5 : List Byte → List Byte
  sum : ChecksumAlgorithm → List Byte → List Byte
  md5_length : ∀ bytes, (md5 bytes).length = 16
  sum_length : ∀ algorithm bytes, (sum algorithm bytes).length = algorithm.size

/-- `Decode`. -/
def decode (algorithm : ChecksumAlgorithm) (value : Text) : Option (List Byte) :=
  (Base64.decodeStd value).filter fun digest => digest.length = algorithm.size

namespace Hashes

variable (hashes : Hashes)

/-- `SumBase64` of the hash of bytes. -/
def sumBase64 (algorithm : ChecksumAlgorithm) (bytes : List Byte) : Text :=
  Base64.encodeStd (hashes.sum algorithm bytes)

/-- The hexadecimal MD5 of bytes. -/
def md5Hex (bytes : List Byte) : Text := Hex.encodeToString (hashes.md5 bytes)

/-- `Composite`: the request checksum and the persisted value. -/
def composite (algorithm : ChecksumAlgorithm) (values : List Text) : Option (Text × Text) :=
  if values = [] ∨ validateCombination algorithm .composite = false then none
  else do
    let raws ← values.mapM (decode algorithm)
    let requestValue := hashes.sumBase64 algorithm raws.flatten
    some (requestValue, requestValue ++ '-' :: decimal values.length)

end Hashes

/-- `ParseCompositeStored`: the text before the last dash, if the number after it is that of the
parts. -/
def parseCompositeStored (algorithm : ChecksumAlgorithm) (value : Text) (expectedParts : Nat) :
    Option Text := do
  let suffix := (value.reverse.takeWhile (· ≠ '-')).reverse
  let requestValue := value.take (value.length - suffix.length - 1)
  if '-' ∉ value ∨ requestValue = [] ∨ suffix = [] then none
  else do
    let partCount ← atoi (.text suffix)
    if partCount ≠ expectedParts ∨ partCount ≤ 0 then none
    else do
      let _ ← decode algorithm requestValue
      some requestValue

/-! ## Combining CRCs -/

section
variable {w : Nat}

/-- `gf2MatrixTimes`: the sum of the rows at the bits of a vector. -/
def gf2MatrixTimes : List (BitVec w) → BitVec w → BitVec w → BitVec w
  | [], _, sum => sum
  | row :: rows, vector, sum =>
    if vector = 0 then sum
    else gf2MatrixTimes rows (vector >>> 1) (if vector &&& 1 ≠ 0 then sum ^^^ row else sum)

/-- The matrix applied twice. -/
def gf2MatrixSquare (matrix : List (BitVec w)) : List (BitVec w) :=
  matrix.map fun row => gf2MatrixTimes matrix row 0

/-- The loop of `combineCRC` over the bits of the length, which squares the operator before every
bit. -/
def combineBits : List (BitVec w) → BitVec w → List Bool → BitVec w
  | _, first, [] => first
  | matrix, first, bit :: bits =>
    let square := gf2MatrixSquare matrix
    combineBits square (if bit then gf2MatrixTimes square first 0 else first) bits

/-- The operator of one zero bit. -/
def zeroBit (polynomial : BitVec w) : List (BitVec w) :=
  polynomial :: (List.range (w - 1)).map fun index => 1 <<< index

/-- The CRC of two pieces, from theirs and the length of the second. -/
def combineCRC (first second : BitVec w) (secondLength : Int) (polynomial : BitVec w) : BitVec w :=
  if secondLength ≤ 0 then first
  else
    combineBits (gf2MatrixSquare (gf2MatrixSquare (zeroBit polynomial))) first
      secondLength.toNat.bits ^^^ second

/-- `BigEndian.Uint32` and `BigEndian.Uint64`. -/
def ofBytes (w : Nat) (raw : List Byte) : BitVec w :=
  .ofNat w (raw.foldl (fun value b => value * 256 + b.toNat) 0)

/-- `BigEndian.PutUint32` and `BigEndian.PutUint64`. -/
def toBytes (value : BitVec w) : List Byte :=
  (List.range (w / 8)).map fun index => .ofNat (value.toNat >>> (w - 8 - 8 * index))

/-- `combineCRC32Parts` and `combineCRC64Parts` after the first part. -/
def combineParts (algorithm : ChecksumAlgorithm) (polynomial : BitVec w) :
    BitVec w → List (Text × Int) → Option (BitVec w)
  | combined, [] => some combined
  | combined, (value, size) :: parts =>
    if size < 0 then none
    else do
      let raw ← decode algorithm value
      combineParts algorithm polynomial
        (combineCRC combined (ofBytes w raw) size polynomial) parts

/-- The CRC of parts, from theirs and their lengths. -/
def combineCRCParts (w : Nat) (algorithm : ChecksumAlgorithm) (polynomial : BitVec w) :
    List (Text × Int) → Option Text
  | [] => none
  | (value, size) :: parts =>
    if size < 0 then none
    else do
      let raw ← decode algorithm value
      let combined ← combineParts algorithm polynomial (ofBytes w raw) parts
      some (Base64.encodeStd (toBytes combined))

end

/-- The reflected polynomial of CRC32. -/
def crc32IEEEPolynomial : BitVec 32 := 0xedb88320

/-- The reflected polynomial of CRC32C. -/
def crc32CastagnoliPolynomial : BitVec 32 := 0x82f63b78

/-- The reflected polynomial of CRC64NVME. -/
def crc64NVMEPolynomial : BitVec 64 := 0x9a6c9329ac4bc9b5

/-- `FullObject`. -/
def fullObject (algorithm : ChecksumAlgorithm) (parts : List (Text × Int)) : Option Text :=
  match algorithm with
  | .crc32 => combineCRCParts 32 .crc32 crc32IEEEPolynomial parts
  | .crc32c => combineCRCParts 32 .crc32c crc32CastagnoliPolynomial parts
  | .crc64nvme => combineCRCParts 64 .crc64nvme crc64NVMEPolynomial parts
  | .sha1 | .sha256 => none

end TgFile.S3

namespace TgFile

open Go S3

/-- The functions of `s3checksum` and the ETag hash over hash functions. -/
def Env.digesting (env : Env) (hashes : Hashes) : Env :=
  { env with
    md5OfHex := fun etags =>
      match etags.mapM Hex.decodeString with
      | none => []
      | some raws => hashes.md5Hex raws.flatten
    checksumDecodes := fun algorithm value => (decode algorithm value).isSome
    checksumFullObject := fullObject
    checksumComposite := fun algorithm values => (hashes.composite algorithm values).map Prod.snd
    checksumParseComposite := parseCompositeStored }

namespace S3.Hashes

variable {hashes : Hashes}

lemma decode_sumBase64 (algorithm : ChecksumAlgorithm) (bytes : List Byte) :
    decode algorithm (hashes.sumBase64 algorithm bytes) = some (hashes.sum algorithm bytes) := by
  rw [decode, sumBase64, Base64.decodeStd_encodeStd, Option.filter_some,
    if_pos (decide_eq_true (hashes.sum_length algorithm bytes))]

/-- The persisted composite checksum of parts that carry their digests. -/
lemma composite_sumBase64 {algorithm : ChecksumAlgorithm} {parts : List (List Byte)}
    {value : Text × Text}
    (run : hashes.composite algorithm (parts.map (hashes.sumBase64 algorithm)) = some value) :
    value = (hashes.sumBase64 algorithm (parts.flatMap (hashes.sum algorithm)),
      hashes.sumBase64 algorithm (parts.flatMap (hashes.sum algorithm)) ++
        '-' :: decimal parts.length) := by
  have decoded : (parts.map (hashes.sumBase64 algorithm)).mapM (decode algorithm) =
      some (parts.map (hashes.sum algorithm)) := by
    clear run
    induction parts with
    | nil => rfl
    | cons bytes parts ih =>
      rw [List.map_cons, List.mapM_cons, decode_sumBase64, ih]
      rfl
  rw [composite] at run
  split_ifs at run with refused
  simp only [decoded, Option.bind_eq_bind, Option.bind_some, List.length_map] at run
  rw [← List.flatMap_def] at run
  exact (Option.some.inj run).symm

end S3.Hashes

end TgFile
