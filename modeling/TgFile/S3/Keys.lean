import TgFile.Directory.Resolve
import TgFile.System.Requests

/-! # Buckets and object keys

The names the configuration accepts for buckets and the keys the handler accepts for new objects.
The segments of an accepted key are the names of a directory path. -/

namespace TgFile.S3

open Go Go.Path

variable {key : Text}

/-- The characters of the two ends of `bucketNamePattern`. -/
def bucketNameEnd (c : Char) : Bool := c.isLower ∨ c.isDigit

/-- Names that are routes of the server. -/
def reservedBuckets : List Text := ["backup".toList, "file".toList, "webdav".toList]

/-- The check of a bucket name when the configuration is loaded. -/
def validBucketName (name : Text) : Bool :=
  3 ≤ name.length ∧ name.length ≤ 63 ∧
    (∀ c ∈ name, bucketNameEnd c ∨ c = '.' ∨ c = '-') ∧
    (∀ c ∈ name.head?, bucketNameEnd c) ∧ (∀ c ∈ name.getLast?, bucketNameEnd c) ∧
    ¬['.', '.'] <:+: name ∧ name ∉ reservedBuckets

/-- A configured bucket. -/
structure Bucket where
  name : Text
  valid : validBucketName name = true

/-- The longest key. -/
def maxObjectKeyBytes : Nat := 1024

/-- A `Text` is valid UTF-8, which the source checks too. -/
def validObjectKeyShape (key : Text) : Bool :=
  key ≠ [] ∧ byteLength key ≤ maxObjectKeyBytes ∧ ¬['/'] <+: key ∧ ¬['/'] <:+ key ∧ '\\' ∉ key

/-- Whether the key is accepted for a new object. -/
def validateNewObjectKey (key : Text) : Bool :=
  validObjectKeyShape key ∧
    (∀ character ∈ key,
      ¬(character.toNat = 0 ∨ character.toNat < 0x20 ∨ character.toNat = 0x7f)) ∧
    (∀ segment ∈ key.splitOn '/',
      ¬(segment = [] ∨ segment = ['.'] ∨ segment = ['.', '.'])) ∧
    trimFront (clean ('/' :: key)) ['/'] = key

/-- An accepted key. -/
structure ObjectKey where
  text : Text
  accepted : validateNewObjectKey text = true
  deriving DecidableEq

lemma Bucket.isName (bucket : Bucket) : IsName bucket.name := by
  have valid := bucket.valid
  simp only [validBucketName, decide_eq_true_eq] at valid
  obtain ⟨long, -, chars, -⟩ := valid
  refine ⟨?_, ?_, ?_, fun slash => ?_⟩
  · intro empty
    simp [empty] at long
  · intro dot
    simp [dot] at long
  · intro dots
    simp [dots] at long
  · have bad := chars '/' slash
    revert bad
    decide

/-! ## Segments -/

lemma render_splitOn (key : Text) : render (key.splitOn '/') = '/' :: key := by
  rw [render, List.intercalate_splitOn]

lemma byteLength_append (a b : Text) : byteLength (a ++ b) = byteLength a + byteLength b := by
  simp [byteLength]

/-- A text is its first segments, a slash and the others. -/
lemma eq_of_splitOn {front rest : List Text} (nonempty : front ≠ []) (proper : rest ≠ [])
    (names : Names (front ++ rest)) (same : key.splitOn '/' = front ++ rest) :
    key = ['/'].intercalate front ++ '/' :: ['/'].intercalate rest := by
  have noSlash : ∀ c ∈ front ++ rest, '/' ∉ c := fun c member => (names c member).2.2.2
  have split : (['/'].intercalate front ++ '/' :: ['/'].intercalate rest).splitOn '/' =
      key.splitOn '/' := by
    rw [splitOn_append_slash,
      List.splitOn_intercalate _ (fun c member =>
        noSlash c (List.mem_append_left _ member)) nonempty,
      List.splitOn_intercalate _ (fun c member =>
        noSlash c (List.mem_append_right _ member)) proper,
      same]
  have texts := congrArg (List.intercalate ['/']) split
  rw [List.intercalate_splitOn, List.intercalate_splitOn] at texts
  exact texts.symm

/-- What is checked beside the shape of the segments. -/
structure PlainKey (key : Text) : Prop where
  short : byteLength key ≤ maxObjectKeyBytes
  noBackslash : '\\' ∉ key
  printable : ∀ character ∈ key,
    ¬(character.toNat = 0 ∨ character.toNat < 0x20 ∨ character.toNat = 0x7f)

/-- **The accepted keys are the plain texts whose segments are names.** -/
lemma validateNewObjectKey_iff :
    validateNewObjectKey key = true ↔ PlainKey key ∧ Names (key.splitOn '/') := by
  simp only [validateNewObjectKey, validObjectKeyShape, decide_eq_true_eq]
  constructor
  · rintro ⟨⟨-, short, -, -, noBackslash⟩, printable, segments, -⟩
    refine ⟨⟨short, noBackslash, printable⟩, fun c member => ?_⟩
    have plain := segments c member
    exact ⟨fun h => plain (.inl h), fun h => plain (.inr (.inl h)),
      fun h => plain (.inr (.inr h)), notMem_of_mem_splitOn member⟩
  · rintro ⟨plain, names⟩
    refine ⟨⟨?_, plain.short, ?_, ?_, plain.noBackslash⟩, plain.printable, ?_, ?_⟩
    · rintro rfl
      exact (names [] (by simp)).1 rfl
    · rintro ⟨rest, rfl⟩
      have split : (['/'] ++ rest).splitOn '/' = [[]] ++ rest.splitOn '/' :=
        splitOn_append_slash [] rest
      exact (names [] (split ▸ List.mem_cons_self)).1 rfl
    · rintro ⟨front, rfl⟩
      have split := splitOn_append_slash front []
      exact (names [] (by simp [split])).1 rfl
    · intro c member bad
      obtain ⟨nonempty, notDot, notDots, -⟩ := names c member
      rcases bad with h | h | h
      · exact nonempty h
      · exact notDot h
      · exact notDots h
    · rw [← render_splitOn, clean_render names, render_splitOn]
      simp [trimFront]

namespace ObjectKey

/-- The names between the slashes of a key. -/
def segments (key : ObjectKey) : List Text := key.text.splitOn '/'

lemma names (key : ObjectKey) : Names key.segments :=
  (validateNewObjectKey_iff.mp key.accepted).2

lemma segments_ne_nil (key : ObjectKey) : key.segments ≠ [] :=
  List.splitOnP_ne_nil _ _

lemma ext_text {left right : ObjectKey} (same : left.text = right.text) : left = right := by
  cases left
  cases right
  cases same
  rfl

lemma segments_injective {left right : ObjectKey} (same : left.segments = right.segments) :
    left = right := by
  refine ext_text (List.cons.inj (?_ : '/' :: left.text = '/' :: right.text)).2
  rw [← render_splitOn, ← render_splitOn]
  exact congrArg render same

/-- The keys at which the path of a key could meet another object. -/
lemma front_iff {key other : ObjectKey} :
    other.text ++ ['/'] <+: key.text ↔ ∃ rest, rest ≠ [] ∧ key.segments =
      other.segments ++ rest := by
  constructor
  · rintro ⟨rest, same⟩
    refine ⟨rest.splitOn '/', List.splitOnP_ne_nil _ _, ?_⟩
    rw [segments, ← same, List.append_assoc]
    exact splitOn_append_slash _ _
  · rintro ⟨rest, proper, same⟩
    have whole := eq_of_splitOn other.segments_ne_nil proper (same ▸ key.names) same
    rw [segments, List.intercalate_splitOn] at whole
    exact ⟨['/'].intercalate rest, by rw [whole, List.append_assoc]; rfl⟩

/-- A front of an accepted key is accepted. -/
lemma exists_front (key : ObjectKey) {front rest : List Text} (nonempty : front ≠ [])
    (proper : rest ≠ []) (same : key.segments = front ++ rest) :
    ∃ other : ObjectKey, other.segments = front := by
  obtain ⟨plain, names⟩ := validateNewObjectKey_iff.mp key.accepted
  rw [show key.text.splitOn '/' = front ++ rest from same] at names
  have whole := eq_of_splitOn nonempty proper names same
  have frontNames := (names_append.mp names).1
  have split : (['/'].intercalate front).splitOn '/' = front :=
    List.splitOn_intercalate _ (fun c member => (frontNames c member).2.2.2) nonempty
  have inside : ∀ c ∈ ['/'].intercalate front, c ∈ key.text := fun c member =>
    whole ▸ List.mem_append_left _ member
  have short := plain.short
  rw [whole, byteLength_append] at short
  have plainFront : PlainKey (['/'].intercalate front) :=
    ⟨Nat.le_trans (Nat.le_add_right _ _) short,
      fun member => plain.noBackslash (inside _ member),
      fun c member => plain.printable c (inside c member)⟩
  exact ⟨⟨_, validateNewObjectKey_iff.mpr ⟨plainFront, split.symm ▸ frontNames⟩⟩, split⟩

end ObjectKey

/-! ## The path of an object -/

lemma objectPath_splitOn (bucket key : Text) :
    Store.objectPath bucket key = render (bucket :: key.splitOn '/') := by
  have split := render_append (List.cons_ne_nil bucket []) (key.splitOn '/')
  rw [List.singleton_append, render_singleton,
    ← render_eq_flatMap (List.splitOn_ne_nil _ _), render_splitOn] at split
  exact split.symm

section
variable (bucket : Bucket)

lemma objectPath_eq_render (key : ObjectKey) :
    Store.objectPath bucket.name key.text = render (bucket.name :: key.segments) :=
  objectPath_splitOn bucket.name key.text

lemma names_path (key : ObjectKey) : Names (bucket.name :: key.segments) :=
  fun c member => (List.mem_cons.mp member).elim (fun same => same ▸ bucket.isName) (key.names c)

/-- The path of an accepted key in a bucket. -/
def Bucket.path (key : ObjectKey) : ObjectPath where
  text := Store.objectPath bucket.name key.text
  abs := rfl
  canonical := by rw [objectPath_eq_render, clean_render (names_path bucket key)]
  notRoot := by
    rw [objectPath_eq_render]
    exact fun root => List.cons_ne_nil _ _ ((render_eq_slash (names_path bucket key)).mp root)

lemma Bucket.elements_path (key : ObjectKey) :
    elements (bucket.path key).text = bucket.name :: key.segments := by
  rw [show (bucket.path key).text = Store.objectPath bucket.name key.text from rfl,
    objectPath_eq_render, elements_render (names_path bucket key)]

/-! ## Confinement -/

/-- Whether a key may be read, also one that is not accepted any more. -/
def validateHistoricalObjectKeyBoundary (bucket key : Text) : Bool :=
  ¬(key = [] ∨ ['/'] <+: key ∨ ['/'] <:+ key) ∧
    (∀ segment ∈ key.splitOn '/', ¬(segment = [] ∨ segment = ['.'] ∨ segment = ['.', '.'])) ∧
    '/' :: bucket ++ ['/'] <+: clean ('/' :: bucket ++ ['/'] ++ key)

/-- The names that `txGetEntryInfo` looks up, from the root on. -/
def lookedUp (location : Text) : Except Err (List Text) :=
  let (dir, name, isRoot) := Directory.splitFilename location
  if isRoot then .ok [name]
  else do
    let items ← Directory.rebuildDirItems dir
    pure (items ++ [name])

lemma lookedUp_objectPath (names : Names (key.splitOn '/')) :
    lookedUp (Store.objectPath bucket.name key) = .ok (['/'] :: bucket.name ::
      key.splitOn '/') := by
  have whole : Names (bucket.name :: key.splitOn '/') := fun c member =>
    (List.mem_cons.mp member).elim (fun same => same ▸ bucket.isName) (names c)
  have parts : elements (Store.objectPath bucket.name key) = bucket.name :: key.splitOn '/' := by
    rw [objectPath_splitOn, elements_render whole]
  obtain ⟨cs, n, split⟩ := (List.eq_nil_or_concat' (bucket.name :: key.splitOn '/')).resolve_left
    (List.cons_ne_nil _ _)
  have front : Names cs := (names_append.mp (split ▸ whole)).1
  rw [lookedUp, Directory.splitFilename_concat rfl (parts.trans split)]
  simp only [Bool.false_eq_true, if_false, Directory.rebuildDirItems_render front]
  rw [split]
  rfl

end

/-- **Keys and paths.**  Different keys, or keys of different buckets, are looked up under different
names, and every key that may be written or read is looked up strictly below its bucket. -/
theorem object_paths_confined :
    (∀ (b b' : Bucket) (k k' : ObjectKey), lookedUp (Store.objectPath b.name k.text) =
      lookedUp (Store.objectPath b'.name k'.text) → b.name = b'.name ∧ k = k') ∧
    ∀ (b : Bucket) (key : Text), validateNewObjectKey key = true ∨
      validateHistoricalObjectKeyBoundary b.name key = true →
      ∃ below, below ≠ [] ∧ Names below ∧
        lookedUp (Store.objectPath b.name key) = .ok (['/'] :: b.name :: below) := by
  constructor
  · intro b b' k k' same
    rw [lookedUp_objectPath b k.names, lookedUp_objectPath b' k'.names] at same
    obtain ⟨bucket, segments⟩ : _ ∧ _ := by simpa using same
    exact ⟨bucket, ObjectKey.segments_injective segments⟩
  · intro b key accepted
    have names : Names (key.splitOn '/') := by
      rcases accepted with new | old
      · exact (validateNewObjectKey_iff.mp new).2
      · simp only [validateHistoricalObjectKeyBoundary, decide_eq_true_eq, not_or] at old
        intro segment member
        obtain ⟨filled, dot, dots⟩ := old.2.1 segment member
        exact ⟨filled, dot, dots, notMem_of_mem_splitOn member⟩
    exact ⟨key.splitOn '/', List.splitOn_ne_nil _ _, names, lookedUp_objectPath b names⟩

end TgFile.S3
