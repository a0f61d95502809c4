import TgFile.S3.Digest

/-! # The CRC of an object from those of its parts

`combineCRC` shifts the first CRC over as many zero bytes as the second part has.  A shift by one
zero bit is linear over exclusive or, so the matrices of the code are those of its powers. -/

namespace TgFile.S3

open Go

variable {w : Nat} {polynomial : BitVec w} {algorithm : ChecksumAlgorithm}

/-! ## The hash -/

/-- The register of a reflected CRC after one zero bit. -/
def shiftBit (polynomial register : BitVec w) : BitVec w :=
  if register.getLsbD 0 then register >>> 1 ^^^ polynomial else register >>> 1

/-- The register after eight zero bits. -/
def shiftByte (polynomial : BitVec w) : BitVec w → BitVec w := (shiftBit polynomial)^[8]

/-- The register after bytes. -/
def crcUpdate (polynomial register : BitVec w) (bytes : List Byte) : BitVec w :=
  bytes.foldl (fun register b => shiftByte polynomial (register ^^^ .ofNat w b.toNat)) register

/-- The CRC of bytes. -/
def crcSum (polynomial : BitVec w) (bytes : List Byte) : BitVec w :=
  ~~~ crcUpdate polynomial (.allOnes w) bytes

/-- `NewHash` of a CRC: the big-endian digest of bytes. -/
def newCRCHash : ChecksumAlgorithm → Option (List Byte → List Byte)
  | .crc32 => some fun bytes => toBytes (crcSum crc32IEEEPolynomial bytes)
  | .crc32c => some fun bytes => toBytes (crcSum crc32CastagnoliPolynomial bytes)
  | .crc64nvme => some fun bytes => toBytes (crcSum crc64NVMEPolynomial bytes)
  | .sha1 | .sha256 => none

/-! ## Linear operators and their matrices -/

/-- A function that keeps sums. -/
def Linear (f : BitVec w → BitVec w) : Prop := ∀ a b, f (a ^^^ b) = f a ^^^ f b

/-- The matrix of an operator: its values at the single bits from `index` on. -/
def columns (f : BitVec w → BitVec w) (index count : Nat) : List (BitVec w) :=
  (List.range' index count).map fun i => f (.twoPow w i)

lemma Linear.zero {f : BitVec w → BitVec w} (linear : Linear f) : f 0#w = 0#w := by
  have twice := linear 0#w 0#w
  rwa [BitVec.xor_self, BitVec.xor_self] at twice

lemma Linear.comp {f g : BitVec w → BitVec w} (left : Linear f) (right : Linear g) :
    Linear (f ∘ g) := fun a b => by
  rw [Function.comp_apply, right, left]
  rfl

lemma Linear.iterate {f : BitVec w → BitVec w} (linear : Linear f) (n : Nat) : Linear f^[n] := by
  induction n with
  | zero => exact fun _ _ => rfl
  | succ n ih => exact ih.comp linear

lemma getLsbD_shiftBit (register : BitVec w) (i : Nat) :
    (shiftBit polynomial register).getLsbD i =
      ((register.getLsbD 0 && polynomial.getLsbD i) ^^ register.getLsbD (1 + i)) := by
  cases low : register.getLsbD 0 <;> simp [shiftBit, low, Bool.xor_comm]

lemma linear_shiftBit (polynomial : BitVec w) : Linear (shiftBit polynomial) := by
  intro a b
  refine BitVec.eq_of_getLsbD_eq fun i _ => ?_
  simp only [BitVec.getLsbD_xor, getLsbD_shiftBit]
  cases a.getLsbD 0 <;> cases b.getLsbD 0 <;> cases polynomial.getLsbD i <;>
    cases a.getLsbD (1 + i) <;> cases b.getLsbD (1 + i) <;> rfl

/-- A vector above a bit is that bit and the vector above the next one. -/
lemma shift_split (vector : BitVec w) {index : Nat} (inside : index < w) :
    vector >>> index <<< index =
      (if vector.getLsbD index then .twoPow w index else 0#w) ^^^
        vector >>> (index + 1) <<< (index + 1) := by
  refine BitVec.eq_of_getLsbD_eq fun i small => ?_
  have shifted : ∀ k, (vector >>> k <<< k).getLsbD i = (!decide (i < k) && vector.getLsbD i) := by
    intro k
    by_cases below : i < k
    · simp [below]
    · simp [small, below, show k + (i - k) = i by omega]
  rw [BitVec.getLsbD_xor, shifted, shifted]
  rcases lt_trichotomy i index with below | rfl | above
  · cases vector.getLsbD index <;> simp [below, Nat.lt_succ_of_lt below, below.ne']
  · cases low : vector.getLsbD i <;> simp [small]
  · cases vector.getLsbD index <;> simp [above.not_gt, Nat.not_lt.mpr above, above.ne]

lemma and_one_ne_zero (vector : BitVec w) (positive : 0 < w) :
    vector &&& 1 ≠ 0 ↔ vector.getLsbD 0 = true := by
  rw [show (1 : BitVec w) = 1#w from rfl, BitVec.and_one_eq_setWidth_ofBool_getLsbD]
  cases vector.getLsbD 0 with
  | false => simp
  | true =>
    refine iff_of_true (fun zero => ?_) rfl
    have bit := congrArg (BitVec.getLsbD · 0) zero
    simp [positive] at bit

/-- Multiplication by the matrix of a linear operator is the operator. -/
lemma gf2MatrixTimes_columns {f : BitVec w → BitVec w} (linear : Linear f) (vector : BitVec w)
    {index count : Nat} (rest : index + count = w) (sum : BitVec w) :
    gf2MatrixTimes (columns f index count) (vector >>> index) sum =
      sum ^^^ f (vector >>> index <<< index) := by
  induction count generalizing index sum with
  | zero =>
    have none : vector >>> index = 0 := BitVec.ushiftRight_eq_zero (by omega)
    simp [columns, gf2MatrixTimes, none, linear.zero]
  | succ count ih =>
    rw [columns, List.range'_succ, List.map_cons, gf2MatrixTimes]
    have half : vector >>> index >>> 1 = vector >>> (index + 1) :=
      (BitVec.shiftRight_add vector index 1).symm
    have low : (vector >>> index &&& 1 ≠ 0) ↔ vector.getLsbD index = true := by
      rw [and_one_ne_zero _ (by omega), BitVec.getLsbD_ushiftRight, Nat.add_zero]
    have split := congrArg f (@shift_split w vector index (by omega))
    split_ifs with none bit
    · simp [none, linear.zero]
    · rw [half]
      refine (ih (by omega) _).trans ?_
      rw [split, if_pos (low.mp bit), linear, BitVec.xor_assoc]
    · rw [half]
      refine (ih (by omega) _).trans ?_
      rw [split, if_neg (low.not.mp bit), BitVec.zero_xor]

lemma gf2MatrixTimes_eq {f : BitVec w → BitVec w} (linear : Linear f) (vector : BitVec w) :
    gf2MatrixTimes (columns f 0 w) vector 0 = f vector := by
  simpa using gf2MatrixTimes_columns linear vector (Nat.zero_add w) 0

lemma gf2MatrixSquare_columns {f : BitVec w → BitVec w} (linear : Linear f) :
    gf2MatrixSquare (columns f 0 w) = columns (f ∘ f) 0 w := by
  rw [gf2MatrixSquare]
  nth_rewrite 2 [columns]
  rw [List.map_map]
  exact List.map_congr_left fun i _ => gf2MatrixTimes_eq linear (f (.twoPow w i))

lemma zeroBit_columns (positive : 0 < w) :
    zeroBit polynomial = columns (shiftBit polynomial) 0 w := by
  cases w with
  | zero => cases positive
  | succ n =>
    rw [zeroBit, columns, List.range'_succ, List.map_cons, List.range'_eq_map_range, List.map_map]
    refine congrArg₂ List.cons ?_ (List.map_congr_left fun i member => ?_)
    · refine BitVec.eq_of_getLsbD_eq fun j small => ?_
      simp [getLsbD_shiftBit, show 0 ≠ 1 + j by omega]
    · have inside := List.mem_range.mp member
      have power : BitVec.ofNat (n + 1) (1 <<< i) = .twoPow (n + 1) i :=
        BitVec.eq_of_toNat_eq (by
          rw [BitVec.toNat_ofNat, BitVec.toNat_twoPow, Nat.shiftLeft_eq, Nat.one_mul])
      refine BitVec.eq_of_getLsbD_eq fun j small => ?_
      simp [getLsbD_shiftBit, power, show 0 ≠ 1 + i by omega, show i < n + 1 by omega,
        show 1 + i < n + 1 by omega]

/-- The loop over the bits of a length applies the square of its operator that many times. -/
lemma combineBits_columns {f : BitVec w → BitVec w} (linear : Linear f) (length : Nat)
    (first : BitVec w) : combineBits (columns f 0 w) first length.bits =
      (f ∘ f)^[length] first := by
  induction length using Nat.binaryRec' generalizing f first with
  | zero => simp [combineBits]
  | bit b n valid ih =>
    have square := linear.comp linear
    have twice : ∀ x, ((f ∘ f) ∘ f ∘ f)^[n] x = (f ∘ f)^[2 * n] x := fun x =>
      congrFun (Function.iterate_mul (f ∘ f) 2 n).symm x
    rw [Nat.bits_append_bit n b valid, combineBits, gf2MatrixSquare_columns linear]
    rw [ih square, gf2MatrixTimes_eq square, twice]
    cases b with
    | false => simp
    | true => rw [if_pos rfl, Nat.bit_true, Function.iterate_succ_apply]

/-- The first CRC goes over the zero bytes of the second part. -/
lemma combineCRC_eq (positive : 0 < w) (first second : BitVec w) {length : Nat}
    (given : length ≠ 0) : combineCRC first second length polynomial =
      (shiftByte polynomial)^[length] first ^^^ second := by
  have linear := linear_shiftBit polynomial
  have square := linear.comp linear
  rw [combineCRC, if_neg (by omega), zeroBit_columns positive, gf2MatrixSquare_columns linear,
    gf2MatrixSquare_columns square, Int.toNat_natCast, combineBits_columns (square.comp square)]
  rfl

/-! ## The CRC of a concatenation -/

/-- The register goes over bytes like over zero bytes, apart from what it would be without. -/
lemma crcUpdate_xor (first register : BitVec w) (bytes : List Byte) :
    crcUpdate polynomial (first ^^^ register) bytes =
      (shiftByte polynomial)^[bytes.length] first ^^^ crcUpdate polynomial register bytes := by
  induction bytes generalizing first register with
  | nil => rfl
  | cons b bytes ih =>
    have linear : Linear (shiftByte polynomial) := (linear_shiftBit polynomial).iterate 8
    have step := ih (shiftByte polynomial first)
      (shiftByte polynomial (register ^^^ .ofNat w b.toNat))
    rw [← linear, ← BitVec.xor_assoc] at step
    exact step

lemma crcSum_append (positive : 0 < w) (front back : List Byte) :
    crcSum polynomial (front ++ back) =
      combineCRC (crcSum polynomial front) (crcSum polynomial back) back.length polynomial := by
  by_cases empty : back.length = 0
  · rw [List.eq_nil_of_length_eq_zero empty, List.append_nil]
    rfl
  · rw [combineCRC_eq positive _ _ empty]
    have register : crcUpdate polynomial (.allOnes w) front =
        crcSum polynomial front ^^^ .allOnes w := by
      rw [crcSum, BitVec.xor_allOnes, BitVec.not_not]
    have whole : crcUpdate polynomial (.allOnes w) (front ++ back) =
        crcUpdate polynomial (crcUpdate polynomial (.allOnes w) front) back := List.foldl_append
    rw [crcSum, whole, register, crcUpdate_xor, ← BitVec.xor_allOnes, BitVec.xor_assoc,
      BitVec.xor_allOnes]
    rfl

/-! ## The parts of an object -/

lemma foldl_toBytes (value : BitVec w) {count : Nat} (inside : 8 * count ≤ w) :
    ((List.range count).map fun index => UInt8.ofNat (value.toNat >>> (w - 8 - 8 * index))).foldl
      (fun total b => total * 256 + b.toNat) 0 = value.toNat >>> (w - 8 * count) := by
  induction count with
  | zero => simp [Nat.shiftRight_eq_div_pow, Nat.div_eq_of_lt value.isLt]
  | succ count ih =>
    have next : w - 8 * count = w - 8 - 8 * count + 8 := by omega
    have last : w - 8 * (count + 1) = w - 8 - 8 * count := by omega
    rw [List.range_succ, List.map_append, List.foldl_append, ih (by omega), next, last,
      Nat.shiftRight_add]
    simp only [List.map_cons, List.map_nil, List.foldl_cons, List.foldl_nil, UInt8.toNat_ofNat']
    generalize value.toNat >>> (w - 8 - 8 * count) = high
    rw [Nat.shiftRight_eq_div_pow]
    omega

lemma ofBytes_toBytes (value : BitVec w) (bytes : 8 * (w / 8) = w) :
    ofBytes w (toBytes value) = value := by
  rw [ofBytes, toBytes, foldl_toBytes value bytes.le, bytes, Nat.sub_self, Nat.shiftRight_zero,
    BitVec.ofNat_toNat, BitVec.setWidth_eq]

/-- The checksum and the length of a part. -/
def partChecksum (polynomial : BitVec w) (bytes : List Byte) : Text × Int :=
  (Base64.encodeStd (toBytes (crcSum polynomial bytes)), bytes.length)

lemma decode_toBytes (size : algorithm.size = w / 8) (value : BitVec w) :
    decode algorithm (Base64.encodeStd (toBytes value)) = some (toBytes value) := by
  rw [decode, Base64.decodeStd_encodeStd, Option.filter_some, if_pos]
  simp [toBytes, size]

lemma combineParts_eq (size : algorithm.size = w / 8) (positive : 0 < w) (bytes : 8 * (w / 8) = w)
    (front : List Byte) (parts : List (List Byte)) :
    combineParts algorithm polynomial (crcSum polynomial front)
        (parts.map (partChecksum polynomial)) =
      some (crcSum polynomial (front ++ parts.flatten)) := by
  induction parts generalizing front with
  | nil => simp [combineParts]
  | cons part parts ih =>
    have next := ih (front ++ part)
    rw [List.append_assoc, ← List.flatten_cons, crcSum_append positive front part] at next
    rw [List.map_cons, partChecksum, combineParts, if_neg (by omega), decode_toBytes size,
      Option.bind_eq_bind, Option.bind_some, ofBytes_toBytes _ bytes]
    exact next

lemma combineCRCParts_eq (size : algorithm.size = w / 8) (positive : 0 < w)
    (bytes : 8 * (w / 8) = w) {parts : List (List Byte)} (given : parts ≠ []) :
    combineCRCParts w algorithm polynomial (parts.map (partChecksum polynomial)) =
      some (Base64.encodeStd (toBytes (crcSum polynomial parts.flatten))) := by
  obtain ⟨front, parts, rfl⟩ := List.exists_cons_of_ne_nil given
  rw [List.map_cons, partChecksum, combineCRCParts, if_neg (by omega), decode_toBytes size,
    Option.bind_eq_bind, Option.bind_some, ofBytes_toBytes _ bytes,
    combineParts_eq size positive bytes front parts]
  rfl

/-- `FullObject` of the checksums and lengths of parts is the checksum of their concatenation. -/
theorem full_object_of_parts {algorithm : ChecksumAlgorithm} {hash : List Byte → List Byte}
    (crc : newCRCHash algorithm = some hash) {parts : List (List Byte)} (given : parts ≠ []) :
    fullObject algorithm
        (parts.map fun part => (Base64.encodeStd (hash part), (part.length : Int))) =
      some (Base64.encodeStd (hash parts.flatten)) := by
  cases algorithm with
  | crc32 =>
    obtain rfl := Option.some.inj crc
    exact combineCRCParts_eq (by decide) (by decide) (by decide) given
  | crc32c =>
    obtain rfl := Option.some.inj crc
    exact combineCRCParts_eq (by decide) (by decide) (by decide) given
  | crc64nvme =>
    obtain rfl := Option.some.inj crc
    exact combineCRCParts_eq (by decide) (by decide) (by decide) given
  | sha1 => cases crc
  | sha256 => cases crc

/-- The checksums of `ab`, of nothing and of `c` combine to that of `abc`. -/
theorem three_parts_combined : fullObject .crc32
      ([[97, 98], [], [99]].map fun part =>
        (Base64.encodeStd (toBytes (crcSum crc32IEEEPolynomial part)), (part.length : Int))) =
    some (Base64.encodeStd (toBytes (crcSum crc32IEEEPolynomial [97, 98, 99]))) :=
  @full_object_of_parts .crc32 _ rfl [[97, 98], [], [99]] (by decide)

end TgFile.S3
