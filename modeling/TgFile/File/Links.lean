import TgFile.S3.Digest

/-! # Direct links

`server/handler/file/file_common.go` and `utils.FileIdToHash`: the key and the path under which an
uploaded File is published, and the path that a key is read as.  A text is here the list of the
bytes of a Go string, so `len` is its length; the file name cleaner takes away single ASCII
characters and keeps every other byte. -/

namespace TgFile.Links

open Go

section
variable (sum64 : List UInt8 → BitVec 64) (filename : Text) (fileid : BitVec 64)

/-- `FileIdToHash`, with `xxhash.Sum64` as a parameter. -/
def fileIdToHash : List UInt8 := S3.toBytes (sum64 (S3.toBytes fileid))

/-- The characters of `defaultFileNameCleaner`. -/
def invalidChars : Text := "\\/:*?\"<>|+#%\x7b\x7d'&$@!~()[]^` ".toList

/-- A name without the characters that are refused. -/
def removeInvalidChar (name : Text) : Text := name.filter (· ∉ invalidChars)

/-- A name of at most 128 characters that keeps its extension. -/
def tryCutBaseName (base : Text) : Text :=
  if base.length ≤ 128 then base
  else
    let ext := extension base
    let name := base.take (base.length - ext.length)
    if 16 < ext.length then base.take 128 else name.take (128 - ext.length) ++ ext

/-- The part of a key that comes from the file name. -/
def keyBase : Text := tryCutBaseName (removeInvalidChar (Path.base filename))

/-- Where the links of uploads are. -/
def uploadRoot : Text := "/defaults/".toList

/-- The path and the key of an uploaded File. -/
def buildFileKeyLink : Text × Text :=
  let hash := Hex.encodeToString (fileIdToHash sum64 fileid)
  let fkey := hash ++ '-' :: keyBase filename
  (Path.join [uploadRoot, hash.take 2, fkey], fkey)

end

/-- Why a file key is refused. -/
inductive KeyError
  | length (n : Nat)
  | separator
  | hash (offset : Nat)
  | suffix (offset : Nat)
  deriving DecidableEq, Repr

/-- A lower case hexadecimal digit. -/
def isHashChar (c : Char) : Bool := ('0' ≤ c ∧ c ≤ '9') ∨ ('a' ≤ c ∧ c ≤ 'f')

/-- A control character of ASCII. -/
def isControl (c : Char) : Bool := c.toNat < 0x20 ∨ c.toNat = 0x7f

/-- A character that no suffix may have. -/
def refusedInSuffix (c : Char) : Bool := c = '/' ∨ c = '\\' ∨ isControl c

/-- The path behind a file key. -/
def extractLinkFromFileKey (fkey : Text) : Except KeyError Text :=
  if fkey.length < 17 ∨ 145 < fkey.length then .error (.length fkey.length)
  else if fkey[16]? ≠ some '-' then .error .separator
  else
    match (fkey.take 16).findIdx? fun c => !isHashChar c with
    | some offset => .error (.hash offset)
    | none =>
      match (fkey.drop 17).findIdx? refusedInSuffix with
      | some offset => .error (.suffix (17 + offset))
      | none => .ok (uploadRoot ++ fkey.take 2 ++ '/' :: fkey)

variable {key link : Text}

/-- A key is read as a path exactly when it is a hash, a hyphen and a short suffix. -/
lemma extractLinkFromFileKey_ok :
    extractLinkFromFileKey key = .ok link ↔ (17 ≤ key.length ∧ key.length ≤ 145) ∧
      key[16]? = some '-' ∧ (∀ c ∈ key.take 16, isHashChar c = true) ∧
      (∀ c ∈ key.drop 17, refusedInSuffix c = false) ∧
      uploadRoot ++ key.take 2 ++ '/' :: key = link := by
  unfold extractLinkFromFileKey
  by_cases size : key.length < 17 ∨ 145 < key.length
  · have short : ¬(17 ≤ key.length ∧ key.length ≤ 145) := by omega
    simp [size, short]
  · have long : 17 ≤ key.length ∧ key.length ≤ 145 := by omega
    by_cases separator : key[16]? = some '-'
    · rw [if_neg size, if_neg (not_not.mpr separator)]
      have hashed := @List.findIdx?_eq_none_iff _ (key.take 16) fun c => !isHashChar c
      have allowed := @List.findIdx?_eq_none_iff _ (key.drop 17) refusedInSuffix
      simp only [Bool.not_eq_false'] at hashed
      rw [← hashed, ← allowed]
      split
      · simp_all
      · split <;> simp_all
    · simp [size, separator]

lemma isHashChar_hexDigit {v : Nat} (small : v < 16) : isHashChar (Json.hexDigit v) = true := by
  have all : ∀ v < 16, isHashChar (Json.hexDigit v) = true := by decide +kernel
  exact all v small

lemma isHashChar_of_mem_encode {raw : List UInt8} {c : Char}
    (member : c ∈ Hex.encodeToString raw) : isHashChar c = true := by
  obtain ⟨b, -, digit⟩ := List.mem_flatMap.mp member
  have small := b.toNat_lt
  simp only [List.mem_cons, List.not_mem_nil, or_false] at digit
  obtain rfl | rfl := digit
  · apply isHashChar_hexDigit
    omega
  · apply isHashChar_hexDigit
    omega

lemma encode_length (raw : List UInt8) : (Hex.encodeToString raw).length = 2 * raw.length := by
  induction raw with
  | nil => rfl
  | cons b raw ih =>
    rw [Hex.encodeToString, List.flatMap_cons, List.length_append, List.length_cons,
      ← Hex.encodeToString, ih]
    simp
    omega

lemma keyBase_length_le (filename : Text) : (keyBase filename).length ≤ 128 := by
  simp only [keyBase, tryCutBaseName]
  split_ifs with short long
  · exact short
  · exact List.length_take_le _ _
  · rw [List.length_append, List.length_take]
    omega

/-- Cutting keeps bytes of the name. -/
lemma mem_of_mem_cut {base : Text} {c : Char} (member : c ∈ tryCutBaseName base) : c ∈ base := by
  simp only [tryCutBaseName] at member
  split_ifs at member with short long
  · exact member
  · exact List.mem_of_mem_take member
  · obtain name | ext := List.mem_append.mp member
    · exact List.mem_of_mem_take (List.mem_of_mem_take name)
    · unfold extension at ext
      split_ifs at ext with dot
      · obtain rfl | later := List.mem_cons.mp ext
        · exact dot
        · exact List.mem_reverse.mp (List.takeWhile_subset _ (List.mem_reverse.mp later))
      · cases ext

/-- A key base holds only control characters that a key may not have. -/
lemma refused_iff_control {filename : Text} {c : Char} (member : c ∈ keyBase filename) :
    refusedInSuffix c = isControl c := by
  have kept := List.mem_filter.mp (mem_of_mem_cut member)
  have valid : c ∉ invalidChars := of_decide_eq_true kept.2
  have slash : c ≠ '/' := by
    rintro rfl
    exact valid (by decide)
  have back : c ≠ '\\' := by
    rintro rfl
    exact valid (by decide)
  simp [refusedInSuffix, slash, back]

/-! ## Paths of keys -/

lemma isName_of_long {c : Text} (long : 2 < c.length) (noSlash : '/' ∉ c) : Path.IsName c := by
  refine ⟨?_, ?_, ?_, noSlash⟩ <;> rintro rfl <;> simp at long

lemma isName_first {p : Text} (two : p.length = 2) (hashed : ∀ c ∈ p, isHashChar c = true) :
    Path.IsName p := by
  refine ⟨?_, ?_, ?_, fun slash => absurd (hashed _ slash) (by decide)⟩
  · rintro rfl
    cases two
  · rintro rfl
    cases two
  · rintro rfl
    exact absurd (hashed '.' (by simp)) (by decide)

/-- The name of the directory of all links. -/
def rootName : Text := "defaults".toList

lemma rootName_isName : Path.IsName rootName := by decide

lemma uploadRoot_append (p : Text) : uploadRoot ++ p = Path.render ([rootName] ++ [p]) := by
  rw [Path.render_concat (List.cons_ne_nil _ _)]
  rfl

variable {p : Text}

lemma link_eq_render (p key : Text) :
    uploadRoot ++ p ++ '/' :: key = Path.render ([rootName, p] ++ [key]) := by
  rw [uploadRoot_append]
  exact (Path.render_concat (List.cons_ne_nil _ _) _).symm

lemma join_eq_render (names : Path.Names [rootName, p, key]) :
    Path.join [uploadRoot, p, key] = Path.render [rootName, p, key] := by
  have nonempty : uploadRoot ≠ [] := by decide
  have glued : ['/'].intercalate [uploadRoot, p, key] = (uploadRoot ++ '/' :: p) ++ '/' :: key := by
    simp [List.intercalate]
  have root : Path.isAbs uploadRoot = true := rfl
  have elements : Path.elements uploadRoot = [rootName] := by decide
  simp only [Path.join, List.dropWhile_cons, nonempty, decide_false, Bool.false_eq_true, ↓reduceIte,
    glued]
  rw [Path.clean_eq_render (Path.isAbs_append (Path.isAbs_append root _) _),
    Path.elements_append_name (Path.isAbs_append root _) (names key (by simp)),
    Path.elements_append_name root (names p (by simp)), elements]
  rfl

/-- A key that is read as a path is a name below the name of its first two digits. -/
lemma names_of_extract (run : extractLinkFromFileKey key = .ok link) :
    Path.Names [rootName, key.take 2, key] ∧ (∀ c ∈ key.take 2, isHashChar c = true) ∧
      link = Path.render ([rootName, key.take 2] ++ [key]) := by
  obtain ⟨⟨long, -⟩, separator, hashed, allowed, rfl⟩ := extractLinkFromFileKey_ok.mp run
  have first : ∀ c ∈ key.take 2, isHashChar c = true := by
    intro c member
    apply hashed
    exact (List.take_prefix_take_left (by decide)).subset member
  have noSlash : '/' ∉ key := by
    intro slash
    obtain ⟨_, same⟩ := List.getElem?_eq_some_iff.mp separator
    rw [← List.take_append_drop 16 key, List.drop_eq_getElem_cons long, same] at slash
    obtain inHash | inRest := List.mem_append.mp slash
    · exact absurd (hashed _ inHash) (by decide)
    · obtain same | later := List.mem_cons.mp inRest
      · exact absurd same (by decide)
      · exact absurd (allowed _ later) (by decide)
  refine ⟨?_, first, link_eq_render _ _⟩
  simp only [Path.Names, List.forall_mem_cons]
  refine ⟨rootName_isName, isName_first ?_ first, isName_of_long ?_ noSlash, List.forall_mem_nil _⟩
  · rw [List.length_take]
    omega
  · omega

/-- The key of an upload leads to the path it was published under exactly when the cleaned and
cut file name has no control character, and every key that is accepted leads to a direct child of
the directory of its first two digits. -/
theorem upload_link_found_iff (sum64 : List UInt8 → BitVec 64) (filename : Text)
    (fileid : BitVec 64) :
    (extractLinkFromFileKey (buildFileKeyLink sum64 filename fileid).2 =
        .ok (buildFileKeyLink sum64 filename fileid).1 ↔
      ∀ c ∈ keyBase filename, isControl c = false) ∧
    ∀ key link, extractLinkFromFileKey key = .ok link →
      (∀ c ∈ key.take 2, isHashChar c = true) ∧ Path.clean link = link ∧
        Path.dir link = uploadRoot ++ key.take 2 ∧ Path.base link = key := by
  constructor
  · have hashed := @isHashChar_of_mem_encode (fileIdToHash sum64 fileid)
    have size : (Hex.encodeToString (fileIdToHash sum64 fileid)).length = 16 := by
      rw [encode_length, fileIdToHash, S3.toBytes, List.length_map, List.length_range]
    have short := keyBase_length_le filename
    simp only [buildFileKeyLink]
    generalize Hex.encodeToString (fileIdToHash sum64 fileid) = hash at size hashed
    have front : (hash ++ '-' :: keyBase filename).take 16 = hash := by
      rw [← size, List.take_left]
    have back : (hash ++ '-' :: keyBase filename).drop 17 = keyBase filename := by
      rw [List.drop_append, size, List.drop_eq_nil_of_le (by omega)]
      rfl
    have two : (hash ++ '-' :: keyBase filename).take 2 = hash.take 2 :=
      List.take_append_of_le_length (by omega)
    have control : (∀ c ∈ keyBase filename, refusedInSuffix c = false) ↔
        ∀ c ∈ keyBase filename, isControl c = false :=
      forall₂_congr fun c member => by rw [refused_iff_control member]
    rw [← control]
    constructor
    · intro run
      rw [← back]
      exact (extractLinkFromFileKey_ok.mp run).2.2.2.1
    · intro allowed
      have long : 17 ≤ (hash ++ '-' :: keyBase filename).length ∧
          (hash ++ '-' :: keyBase filename).length ≤ 145 := by
        rw [List.length_append, List.length_cons]
        omega
      have separator : (hash ++ '-' :: keyBase filename)[16]? = some '-' := by
        rw [List.getElem?_append_right (by omega), size]
        rfl
      have accepted := extractLinkFromFileKey_ok.mpr
        ⟨long, separator, front.symm ▸ fun c => hashed, back.symm ▸ allowed, rfl⟩
      have names := (names_of_extract accepted).1
      rw [two] at names
      rw [accepted, two, link_eq_render]
      exact congrArg _ (join_eq_render names).symm
  · intro key link run
    obtain ⟨names, hashed, rfl⟩ := names_of_extract run
    refine ⟨hashed, Path.clean_render names, ?_, Path.base_render_concat (names key (by simp))⟩
    rw [Path.dir_render_concat names, uploadRoot_append]
    rfl

/-- A file name with a control character. -/
theorem control_character_refused :
    extractLinkFromFileKey (buildFileKeyLink (fun _ => 0) ['a', '\x01'] 1).2 =
      .error (.suffix 18) := by
  decide

end TgFile.Links
