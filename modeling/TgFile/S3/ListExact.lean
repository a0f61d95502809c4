import TgFile.S3.KeyMap
import TgFile.S3.ListRows

/-! # What a listing contains

The keys of the files below a bucket that start with a prefix, each as itself or as its common
prefix.  `LIKE` ignores the case of ASCII letters, and SQLite cuts a text at its first NUL, so the
query catches other files too and cuts another key out of some paths.  A listing is exact when the
other files that are caught fall together with files that belong to it and leave what is shown of
them unchanged, and no shown item has a NUL. -/

namespace TgFile

open Go Go.Path Sqlite

namespace Store

open S3

/-! ## What belongs to a listing -/

/-- The request of a listing from the start. -/
def listRequest (bucket : Bucket) (keyPrefix delimiter : Text) (maxKeys : Nat) : S3ListRequest :=
  ⟨bucket.name, keyPrefix, delimiter, [], [], maxKeys⟩

/-- The item of a key that starts with the prefix, and whether it is a common prefix. -/
def itemOfKey (keyPrefix delimiter key : Text) : Text × Bool :=
  let rest := key.drop keyPrefix.length
  if delimiter = ['/'] ∧ '/' ∈ rest then
    (keyPrefix ++ rest.takeWhile (fun c => c ≠ '/') ++ ['/'], true)
  else (key, false)

/-- What a listing is asked for. -/
structure ListQuery where
  bucket : Bucket
  keyPrefix : Text
  delimiter : Text

namespace ListQuery

section
variable (q : ListQuery)

/-- The request of the listing from the start. -/
def request (maxKeys : Nat) : S3ListRequest := listRequest q.bucket q.keyPrefix q.delimiter maxKeys

/-- The front of the paths below the bucket. -/
def root : Text := '/' :: q.bucket.name ++ ['/']

/-- The item of a key. -/
def item (key : Text) : Text × Bool := itemOfKey q.keyPrefix q.delimiter key

/-- The file mappings that belong to the listing: those whose key starts with the prefix. -/
def Lists (d : Directory) (key : Text) (e : Entry) : Prop :=
  e.fileKind = .file ∧ d.PathOf (q.root ++ key) e ∧ q.keyPrefix <+: key

end

end ListQuery

/-- The keys that start with the prefix, as themselves or as their common prefixes, in order. -/
structure ExactListing (env : Env) (s : Store) (q : ListQuery) (result : S3ListResult) :
    Prop where
  items : ∀ item, item ∈ result.items ↔ ∃ key e info, q.Lists s.dir key e ∧
    (q.item key).2 = false ∧ s.objectInfo env (q.root ++ key) e = some info ∧
    item = s3ListItem key info
  commonPrefixes : ∀ common, common ∈ result.commonPrefixes ↔
    ∃ key e, q.Lists s.dir key e ∧ q.item key = (common, true)
  itemsOrdered : result.items.Pairwise fun a b => a.key < b.key
  prefixesOrdered : result.commonPrefixes.Pairwise (· < ·)
  complete : result.isTruncated = false

/-! ## What the query catches -/

namespace ListQuery

section
variable (q : ListQuery)

/-- The paths that the query takes for ones that start with the prefix: the case of ASCII letters
is ignored and both texts end at their first NUL, where a prefix loses its `%`. -/
def Catches (path : Text) : Prop :=
  if nul ∈ q.keyPrefix then foldCase (cText (q.root ++ q.keyPrefix)) = foldCase (cText path)
  else foldCase (q.root ++ q.keyPrefix) <+: foldCase (cText path)

/-- The key that the query cuts out of a path. -/
def cutKey (path : Text) : Text := (cText path).drop q.root.length

/-- The file mappings that the query catches. -/
def Caught (d : Directory) (row : Text × Entry) : Prop :=
  d.PathOf row.1 row.2 ∧ row.2.fileKind = .file ∧ q.Catches row.1

/-- The caught file mappings whose item is a key. -/
def Rivals (d : Directory) (key : Text) (row : Text × Entry) : Prop :=
  q.Caught d row ∧ (q.item (q.cutKey row.1)).1 = key

end

end ListQuery

/-- A row with the least value. -/
def LeastOf {κ : Type} [LE κ] (rows : Text × Entry → Prop) (f : Entry → κ) (first : Text × Entry) :
    Prop :=
  rows first ∧ ∀ row, rows row → f first.2 ≤ f row.2

/-- The least values of the rows show a file: its size and time, and the metadata of the least entry
id and the least File id. -/
structure ShowsOwn (s : Store) (rows : Text × Entry → Prop) (e : Entry) : Prop where
  least : ∀ row, rows row → e.fileSize ≤ row.2.fileSize ∧ e.mtime ≤ row.2.mtime
  metadata : ∀ first ref, LeastOf rows Entry.entryID first → LeastOf rows refText ref →
    s.shownMetadata first.2.entryID (refText ref.2) = s.shownMetadata e.entryID (refText e)

/-- The files that a listing may have to do with: a caught file has the item of a file that belongs
to the listing, no item has a NUL, and the caught files with the key of a file show that file. -/
structure ListQuery.Harmless (q : ListQuery) (s : Store) : Prop where
  own : ∀ row, q.Caught s.dir row → q.cutKey row.1 ≠ [] →
    ∃ key e, q.Lists s.dir key e ∧ q.item (q.cutKey row.1) = q.item key
  plain : ∀ key e, q.Lists s.dir key e → nul ∉ (q.item key).1
  unchanged : ∀ key e, q.Lists s.dir key e → (q.item key).2 = false →
    ShowsOwn s (q.Rivals s.dir key) e

/-! ## Items -/

/-- The characters of a bucket name take one byte and are not NUL. -/
lemma ascii_of_mem_bucket (bucket : Bucket) {c : Char} (member : c ∈ bucket.name) :
    c.utf8Size = 1 ∧ c ≠ nul := by
  have valid := bucket.valid
  simp only [validBucketName, decide_eq_true_eq] at valid
  have kind := valid.2.2.1 c member
  simp only [bucketNameEnd, Bool.decide_or, Bool.or_eq_true, decide_eq_true_eq] at kind
  rw [Char.utf8Size_eq_one_iff]
  have range : 0 < c.val.toNat ∧ c.val.toNat ≤ 127 := by
    rcases kind with (lower | digit) | rfl | rfl
    · have bounds : 97 ≤ c.val.toNat ∧ c.val.toNat ≤ 122 := by
        unfold Char.isLower at lower
        simp only [Bool.and_eq_true, decide_eq_true_eq, UInt32.le_iff_toNat_le] at lower
        exact lower
      omega
    · have bounds : 48 ≤ c.val.toNat ∧ c.val.toNat ≤ 57 := by
        unfold Char.isDigit at digit
        simp only [Bool.and_eq_true, decide_eq_true_eq, UInt32.le_iff_toNat_le] at digit
        exact digit
      omega
    · decide
    · decide
  refine ⟨UInt32.le_iff_toNat_le.mpr range.2, ?_⟩
  rintro rfl
  exact absurd range.1 (by decide)

lemma takeWhile_segment {front : Text} (first : '/' ∉ front) (more : Text) :
    (front ++ '/' :: more).takeWhile (fun c => c ≠ '/') = front := by
  have before : ∀ c ∈ front, decide (c ≠ '/') = true := by
    rintro c member
    refine decide_eq_true ?_
    rintro rfl
    exact first member
  rw [List.takeWhile_append_of_pos before]
  simp

/-- The first characters up to a slash. -/
lemma take_instr {rest : Text} (slash : '/' ∈ rest) :
    rest.take (instr rest '/') = rest.takeWhile (fun c => c ≠ '/') ++ ['/'] := by
  obtain ⟨front, more, rfl, first⟩ := List.eq_append_cons_of_mem slash
  have index : (front ++ '/' :: more).idxOf '/' = front.length := by
    rw [List.idxOf_append_of_notMem first]
    simp
  have split : front ++ '/' :: more = (front ++ ['/']) ++ more := by simp
  rw [takeWhile_segment first, instr, if_pos slash, index, split]
  exact List.take_left' (by simp)

lemma itemOfKey_plain {keyPrefix delimiter key : Text}
    (plain : (itemOfKey keyPrefix delimiter key).2 = false) :
    itemOfKey keyPrefix delimiter key = (key, false) := by
  simp only [itemOfKey] at plain ⊢
  split_ifs at plain ⊢ with slash
  rfl

namespace ListQuery

variable {q : ListQuery} {path key : Text} {maxKeys : Nat} {d : Directory} {e : Entry}
  {row : Text × Entry}

/-- The characters of the root take one byte and are not NUL. -/
lemma ascii_root : ∀ c ∈ q.root, c.utf8Size = 1 ∧ c ≠ nul := by
  intro c member
  rcases List.mem_append.mp member with front | slash
  · rcases List.mem_cons.mp front with rfl | inName
    · decide
    · exact ascii_of_mem_bucket q.bucket inName
  · rw [List.mem_singleton.mp slash]
    decide

lemma nul_notMem_root : nul ∉ q.root := fun member => (ascii_root nul member).2 rfl

lemma nul_notMem_cutKey : nul ∉ q.cutKey path := fun member =>
  nul_notMem_cText _ (List.mem_of_mem_drop member)

/-- The key that is cut out of the path of a key ends at the first NUL. -/
lemma cutKey_root : q.cutKey (q.root ++ key) = cText key := by
  rw [cutKey, cText_append nul_notMem_root, List.drop_left]

/-- A common prefix starts with the prefix and ends in a slash. -/
lemma item_common (common : (q.item key).2 = true) : q.delimiter = ['/'] ∧
    '/' ∈ key.drop q.keyPrefix.length ∧ (q.item key).1 =
      q.keyPrefix ++ (key.drop q.keyPrefix.length).takeWhile (fun c => c ≠ '/') ++ ['/'] := by
  simp only [item, itemOfKey] at common ⊢
  split_ifs at common ⊢ with slash
  exact ⟨slash.1, slash.2, rfl⟩

lemma item_plain (plain : (q.item key).2 = false) : q.item key = (key, false) :=
  itemOfKey_plain plain

/-- Keys of one item are all shown as themselves or all by their common prefix. -/
lemma item_flag {other : Text} (same : (q.item key).1 = (q.item other).1) :
    (q.item key).2 = (q.item other).2 := by
  have never : ∀ {key other}, (q.item key).1 = (q.item other).1 →
      (q.item key).2 = true → (q.item other).2 = false → False := by
    intro key other same common plain
    obtain ⟨isSlash, -, shown⟩ := item_common common
    have other_eq : _ = other := shown.symm.trans
      (same.trans (congrArg Prod.fst (item_plain plain)))
    have slash : '/' ∈ other.drop q.keyPrefix.length := by
      rw [← other_eq, List.append_assoc, List.drop_left]
      simp
    have again : q.item other = _ := if_pos ⟨isSlash, slash⟩
    rw [again] at plain
    cases plain
  cases left : (q.item key).2 with
  | true =>
    cases right : (q.item other).2 with
    | true => rfl
    | false => exact (never same left right).elim
  | false =>
    cases right : (q.item other).2 with
    | true => exact (never same.symm right left).elim
    | false => rfl

lemma item_ne_nil : (q.item key).1 ≠ [] ↔ key ≠ [] := by
  cases flag : (q.item key).2 with
  | true =>
    obtain ⟨-, slash, shown⟩ := item_common flag
    refine iff_of_true (by simp [shown]) ?_
    rintro rfl
    simp at slash
  | false => rw [item_plain flag]

/-- Up to its first NUL, a key has the same item unless the item has the NUL. -/
lemma item_cText (front : q.keyPrefix <+: key) (plain : nul ∉ (q.item key).1) :
    q.item (cText key) = q.item key := by
  cases flag : (q.item key).2 with
  | false =>
    rw [item_plain flag] at plain
    rw [cText_eq plain]
  | true =>
    obtain ⟨isSlash, slash, shown⟩ := item_common flag
    obtain ⟨rest, rfl⟩ := front
    rw [List.drop_left] at slash shown
    obtain ⟨segment, more, rfl, first⟩ := List.eq_append_cons_of_mem slash
    rw [takeWhile_segment first] at shown
    rw [shown] at plain
    have cut : cText (q.keyPrefix ++ (segment ++ '/' :: more)) =
        q.keyPrefix ++ (segment ++ '/' :: cText more) := by
      have split : q.keyPrefix ++ (segment ++ '/' :: more) =
          q.keyPrefix ++ segment ++ ['/'] ++ more := by simp
      rw [split, cText_append plain]
      simp
    have item : ∀ tail, q.item (q.keyPrefix ++ (segment ++ '/' :: tail)) =
        (q.keyPrefix ++ segment ++ ['/'], true) := by
      intro tail
      simp only [ListQuery.item, itemOfKey, List.drop_left, takeWhile_segment first]
      exact if_pos ⟨isSlash, by simp⟩
    rw [cut, item, item]

/-! ## Rows and paths -/

/-- `LIKE` with the pattern of the query. -/
lemma likeText_iff : likeText (some '\\') (q.request maxKeys).pattern path = true ↔
    q.Catches path := by
  have root : (q.request maxKeys).root = q.root := rfl
  have keyPrefix : (q.request maxKeys).keyPrefix = q.keyPrefix := rfl
  have cut : nul ∈ q.root ++ q.keyPrefix ↔ nul ∈ q.keyPrefix := by
    rw [List.mem_append, or_iff_right nul_notMem_root]
  rw [likeText, S3ListRequest.pattern, root, keyPrefix, cText_escapeLike_any, Catches]
  by_cases nulPrefix : nul ∈ q.keyPrefix
  · rw [if_pos (cut.mpr nulPrefix), if_pos nulPrefix, like_escapeLike]
  · rw [if_neg fun member => nulPrefix (cut.mp member), if_neg nulPrefix, like_escapeLike_any]

lemma accepted_iff : Accepted d (q.request maxKeys) row ↔ q.Caught d row :=
  and_congr_right fun _ => and_congr_right fun _ => likeText_iff

/-- A prefix with a NUL is compared with whole texts. -/
lemma length_cutKey (catches : q.Catches path) (nulPrefix : nul ∈ q.keyPrefix) :
    (q.cutKey path).length = textLength q.keyPrefix := by
  rw [Catches, if_pos nulPrefix, cText_append nul_notMem_root] at catches
  have length := congrArg List.length catches
  rw [foldCase, foldCase, List.length_map, List.length_map, List.length_append] at length
  rw [cutKey, List.length_drop, textLength]
  omega

/-- `length` counts the characters of a prefix up to its NUL, but then nothing is left behind it. -/
lemma drop_textLength (catches : q.Catches path) :
    (q.cutKey path).drop (textLength q.keyPrefix) = (q.cutKey path).drop q.keyPrefix.length := by
  by_cases nulPrefix : nul ∈ q.keyPrefix
  · have length := length_cutKey catches nulPrefix
    have shorter : textLength q.keyPrefix ≤ q.keyPrefix.length :=
      (List.takeWhile_prefix _).length_le
    rw [List.drop_eq_nil_of_le length.le, List.drop_eq_nil_of_le (length.le.trans shorter)]
  · rw [textLength, cText_eq nulPrefix]

/-- The query finds the item of the key that it cuts out. -/
lemma projectS3Row_eq (catches : q.Catches path) :
    projectS3Row (q.request maxKeys) path = q.item (q.cutKey path) := by
  have objectKey : substrFrom path (byteLength (q.request maxKeys).root + 1) = q.cutKey path := by
    have length : byteLength (q.request maxKeys).root = q.root.length :=
      byteLength_of_ascii fun c member => (ascii_root (q := q) c member).1
    rw [length, substrFrom, substr, Nat.add_sub_cancel]
    rfl
  have rest : substrFrom (q.cutKey path) (textLength q.keyPrefix + 1) =
      (q.cutKey path).drop q.keyPrefix.length := by
    rw [substrFrom, substr, cText_eq nul_notMem_cutKey, Nat.add_sub_cancel, drop_textLength catches]
  have plainRest : nul ∉ (q.cutKey path).drop q.keyPrefix.length := fun member =>
    nul_notMem_cutKey (List.mem_of_mem_drop member)
  simp only [projectS3Row, objectKey]
  change (let rest := substrFrom (q.cutKey path) (textLength q.keyPrefix + 1)
    let delimiterIndex := if q.delimiter = ['/'] then instr rest '/' else 0
    if 0 < delimiterIndex then (q.keyPrefix ++ substrFront rest delimiterIndex, true)
    else (q.cutKey path, false)) = _
  rw [rest]
  simp only [item, itemOfKey]
  by_cases slash : q.delimiter = ['/'] ∧ '/' ∈ (q.cutKey path).drop q.keyPrefix.length
  · have found : 0 < instr ((q.cutKey path).drop q.keyPrefix.length) '/' := by
      rw [instr, if_pos slash.2]
      exact Nat.succ_pos _
    rw [if_pos slash, if_pos slash.1, if_pos found, substrFront, cText_eq plainRest,
      take_instr slash.2, List.append_assoc]
  · have none : ¬0 < (if q.delimiter = ['/'] then
        instr ((q.cutKey path).drop q.keyPrefix.length) '/' else 0) := by
      split_ifs with isSlash
      · rw [instr, if_neg fun member => slash ⟨isSlash, member⟩]
        exact Nat.lt_irrefl 0
      · exact Nat.lt_irrefl 0
    rw [if_neg slash, if_neg none]

/-- The item of a caught path has no NUL. -/
lemma nul_notMem_item (catches : q.Catches path) : nul ∉ (q.item (q.cutKey path)).1 := by
  cases flag : (q.item (q.cutKey path)).2 with
  | false =>
    rw [item_plain flag]
    exact nul_notMem_cutKey
  | true =>
    obtain ⟨-, slash, shown⟩ := item_common flag
    have prefixPlain : nul ∉ q.keyPrefix := by
      intro nulPrefix
      rw [← drop_textLength catches,
        List.drop_eq_nil_of_le (length_cutKey catches nulPrefix).le] at slash
      cases slash
    rw [shown]
    simp only [List.mem_append, List.mem_singleton, not_or]
    refine ⟨⟨prefixPlain, fun member => ?_⟩, by decide⟩
    exact nul_notMem_cutKey (List.mem_of_mem_drop ((List.takeWhile_prefix _).subset member))

/-- A file that belongs to the listing is caught. -/
lemma Lists.caught (lists : q.Lists d key e) : q.Caught d (q.root ++ key, e) := by
  refine ⟨lists.2.1, lists.1, (@likeText_iff q _ 0).mp (likeText_of_isPrefix ?_)⟩
  exact (List.prefix_append_right_inj _).mpr lists.2.2

lemma Lists.key_ne_nil (valid : d.Valid) (lists : q.Lists d key e) : key ≠ [] := by
  rintro rfl
  refine valid.path_end lists.2.1 lists.1 ?_
  rw [List.append_nil]
  exact List.getLast?_concat

lemma Lists.exists_info {s : Store} (tree : SoundTree s.dir) (env : Env)
    (lists : q.Lists s.dir key e) : ∃ info, s.objectInfo env (q.root ++ key) e = some info := by
  obtain ⟨fileID, ref⟩ := tree.exists_ref lists.2.1 lists.1
  exact ⟨_, by rw [objectInfo, ref, Option.map_some]⟩

end ListQuery

/-! ## Rows and files -/

variable {q : ListQuery} {s : Store} {env : Env} {request : S3ListRequest} {row : Text × Entry}
  {files : List (Text × Entry)} {entry : S3ListPageEntry} {key : Text} {e : Entry} {maxKeys : Nat}

lemma LeastOf.minOf_eq {κ : Type} [LinearOrder κ] {f : Entry → κ} {rows : Text × Entry → Prop}
    {group : List (Text × Entry)} (inGroup : ∀ row, row ∈ group ↔ rows row)
    (least : LeastOf rows f row) : minOf (fun row => f row.2) group = some (f row.2) :=
  (minOf_eq_iff (f := fun row : Text × Entry => f row.2) ((inGroup row).mpr least.1)).mpr
    fun other member => least.2 other ((inGroup other).mp member)

lemma exists_leastOf {κ : Type} [LinearOrder κ] (f : Entry → κ) {rows : Text × Entry → Prop}
    {group : List (Text × Entry)} (inGroup : ∀ row, row ∈ group ↔ rows row) (member : rows row) :
    ∃ first, LeastOf rows f first := by
  obtain ⟨first, inRows, least⟩ :=
    minOf_isSome (f := fun row : Text × Entry => f row.2) ((inGroup row).mpr member)
  refine ⟨first, (inGroup first).mp inRows, fun other inOther => ?_⟩
  exact (minOf_eq_iff (f := fun row : Text × Entry => f row.2) inRows).mp least other
    ((inGroup other).mpr inOther)

lemma shownItem_inj {key : Text} {size size' mtime mtime' : Int} {shown shown' : Text × Text × Text}
    : shownItem key size mtime shown = shownItem key size' mtime' shown' ↔
      size = size' ∧ mtime = mtime' ∧ shown = shown' := by
  obtain ⟨etag, algorithm, kind⟩ := shown
  obtain ⟨etag', algorithm', kind'⟩ := shown'
  simp only [shownItem, S3ListItem.mk.injEq, Prod.mk.injEq, true_and]

lemma mem_rowsAfter {bucket : Bucket} {keyPrefix delimiter : Text} :
    entry ∈ rowsAfter (listRequest bucket keyPrefix delimiter maxKeys) files ↔
      entry ∈ s3ListEntries (listRequest bucket keyPrefix delimiter maxKeys) files ∧
        entry.key ≠ [] := by
  have positive : ([] : Text) < entry.key ↔ entry.key ≠ [] := by
    cases entry.key with
    | nil => simp
    | cons c rest => simp
  rw [rowsAfter, List.mem_filter, decide_eq_true_eq]
  exact and_congr_right fun _ => positive

lemma rowsAfter_ordered : (rowsAfter request files).Pairwise fun a b => a.key < b.key :=
  (s3ListEntries_ordered request files).filter _

/-- The result of the whole listing. -/
abbrev fullResult (env : Env) (s : Store) (q : ListQuery) (files : List (Text × Entry)) :
    S3ListResult :=
  s.pageResult env (q.request 0) (rowsAfter (q.request 0) files) false

lemma mem_commonPrefixes {common : Text} : common ∈ (s.fullResult env q files).commonPrefixes ↔
    ∃ entry ∈ rowsAfter (q.request 0) files, (entry.key, entry.common) = (common, true) := by
  simp only [fullResult, pageResult, List.mem_map, List.mem_filter, Prod.mk.injEq]
  constructor
  · rintro ⟨entry, ⟨member, isCommon⟩, rfl⟩
    exact ⟨entry, member, rfl, isCommon⟩
  · rintro ⟨entry, member, rfl, isCommon⟩
    exact ⟨entry, ⟨member, isCommon⟩, rfl⟩

lemma mem_items {item : S3ListItem} : item ∈ (s.fullResult env q files).items ↔
    ∃ entry ∈ rowsAfter (q.request 0) files, s.entryItem env (q.request 0) entry = some item :=
  List.mem_filterMap

section
variable (tree : SoundTree s.dir)
include tree

/-- An exact listing has a row for the item of every file that belongs to it. -/
lemma ExactListing.exists_entry (exact : ExactListing env s q (s.fullResult env q files))
    (lists : q.Lists s.dir key e) :
    ∃ entry ∈ rowsAfter (q.request 0) files, (entry.key, entry.common) = q.item key := by
  cases flag : (q.item key).2 with
  | true =>
    have item : q.item key = ((q.item key).1, true) := Prod.ext rfl flag
    rw [item]
    exact mem_commonPrefixes.mp ((exact.commonPrefixes _).mpr ⟨key, e, lists, item⟩)
  | false =>
    obtain ⟨info, read⟩ := lists.exists_info tree env
    obtain ⟨entry, member, shown⟩ :=
      mem_items.mp ((exact.items _).mpr ⟨key, e, info, lists, flag, read, rfl⟩)
    obtain ⟨plain, sameKey⟩ := entryItem_some shown
    refine ⟨entry, member, ?_⟩
    rw [ListQuery.item_plain flag, plain, ← sameKey]
    rfl

variable (run : s3ListedFiles s.dir (q.request 0) = .ok files)
include run

lemma mem_files : row ∈ files ↔ q.Caught s.dir row :=
  (mem_s3ListedFiles tree.valid run).trans ListQuery.accepted_iff

/-- The rows that the query merges for a key. -/
lemma mem_group (key : Text) (row : Text × Entry) :
    row ∈ files.filter (fun row => itemKey (q.request 0) row = key) ↔ q.Rivals s.dir key row := by
  rw [List.mem_filter, mem_files tree run, decide_eq_true_eq]
  refine and_congr_right fun caught => ?_
  rw [itemKey, ListQuery.projectS3Row_eq caught.2.2]

/-- The merged row of a file has the file's item. -/
lemma item_of_entry (member : entry ∈ s3ListEntries (q.request 0) files)
    (rival : q.Rivals s.dir entry.key row) :
    q.item (q.cutKey row.1) = (entry.key, entry.common) := by
  refine Prod.ext rival.2 ?_
  obtain ⟨-, merged⟩ := mem_s3ListEntries.mp member
  have inGroup := mem_group tree run entry.key
  rw [merged.common]
  cases flag : (q.item (q.cutKey row.1)).2 with
  | true =>
    refine (List.any_eq_true.mpr ⟨row, (inGroup row).mpr rival, ?_⟩).symm
    rw [ListQuery.projectS3Row_eq rival.1.2.2, flag]
  | false =>
    refine (List.any_eq_false.mpr fun other inOther => ?_).symm
    obtain ⟨caught, same⟩ := (inGroup other).mp inOther
    rw [ListQuery.projectS3Row_eq caught.2.2, ListQuery.item_flag (same.trans rival.2.symm), flag]
    exact Bool.false_ne_true

/-- Every caught file has a merged row. -/
lemma exists_entry_of_caught (caught : q.Caught s.dir row) :
    ∃ entry ∈ s3ListEntries (q.request 0) files,
      q.item (q.cutKey row.1) = (entry.key, entry.common) := by
  obtain ⟨entry, member, same⟩ := exists_s3ListEntry ((mem_files tree run).mpr caught)
  rw [itemKey, ListQuery.projectS3Row_eq caught.2.2] at same
  exact ⟨entry, member, item_of_entry tree run member ⟨caught, same.symm⟩⟩

lemma exists_caught_of_entry (member : entry ∈ s3ListEntries (q.request 0) files) :
    ∃ row, q.Caught s.dir row ∧ q.item (q.cutKey row.1) = (entry.key, entry.common) := by
  obtain ⟨⟨row, inFiles, item⟩, -⟩ := mem_s3ListEntries.mp member
  have caught := (mem_files tree run).mp inFiles
  rw [itemKey, ListQuery.projectS3Row_eq caught.2.2] at item
  exact ⟨row, caught, item_of_entry tree run member ⟨caught, item⟩⟩

/-- The merged row of a key shows a file with that key when no row of the key has less to show. -/
lemma entryItem_eq_iff (env : Env) (member : entry ∈ s3ListEntries (q.request 0) files)
    (plain : entry.common = false) (rival : q.Rivals s.dir entry.key row) :
    s.entryItem env (q.request 0) entry = some (shownItem entry.key row.2.fileSize row.2.mtime
        (s.shownMetadata row.2.entryID (refText row.2))) ↔
      ShowsOwn s (q.Rivals s.dir entry.key) row.2 := by
  obtain ⟨-, merged⟩ := mem_s3ListEntries.mp member
  obtain ⟨fileID, ref⟩ := refs_of_listedFiles tree run entry member
  have inGroup := mem_group tree run entry.key
  obtain ⟨first, isFirst⟩ := exists_leastOf Entry.entryID inGroup rival
  obtain ⟨named, isNamed⟩ := exists_leastOf refText inGroup rival
  -- the values of the row are those of the rows with the least value
  have idOf : ∀ first, LeastOf (q.Rivals s.dir entry.key) Entry.entryID first →
      first.2.entryID = entry.entryID := fun first least =>
    Option.some.inj ((least.minOf_eq inGroup).symm.trans merged.entryID)
  have refOf : ∀ named, LeastOf (q.Rivals s.dir entry.key) refText named →
      refText named.2 = decimal fileID := by
    intro named least
    obtain ⟨lowest, argmin, same⟩ := merged.ref
    have value : minOf (fun row : Text × Entry => refText row.2)
        (files.filter fun row => itemKey (q.request 0) row = entry.key) =
          some (refText lowest.2) := by
      rw [minOf, argmin, Option.map_some]
    rw [Option.some.inj ((least.minOf_eq inGroup).symm.trans value), refText, ← same, ref]
  have size : entry.fileSize = row.2.fileSize ↔
      ∀ other, q.Rivals s.dir entry.key other → row.2.fileSize ≤ other.2.fileSize := by
    rw [← Option.some.injEq, ← merged.fileSize,
      minOf_eq_iff (f := fun row : Text × Entry => row.2.fileSize) ((inGroup row).mpr rival)]
    simp only [inGroup]
  have mtime : entry.mtime = row.2.mtime ↔
      ∀ other, q.Rivals s.dir entry.key other → row.2.mtime ≤ other.2.mtime := by
    rw [← Option.some.injEq, ← merged.mtime,
      minOf_eq_iff (f := fun row : Text × Entry => row.2.mtime) ((inGroup row).mpr rival)]
    simp only [inGroup]
  rw [entryItem_eq plain ref, Option.some.injEq, shownItem_inj, size, mtime]
  constructor
  · rintro ⟨sizes, mtimes, shown⟩
    refine ⟨fun other inOther => ⟨sizes other inOther, mtimes other inOther⟩, ?_⟩
    intro first named isFirst isNamed
    rw [idOf first isFirst, refOf named isNamed, shown]
  · rintro ⟨low, shown⟩
    refine ⟨fun other inOther => (low other inOther).1, fun other inOther =>
      (low other inOther).2, ?_⟩
    rw [← shown first named isFirst isNamed, idOf first isFirst, refOf named isNamed]

/-- The merged row of a key shows the file with that key when no row of the key has less to show. -/
lemma entryItem_lists_iff (member : entry ∈ s3ListEntries (q.request 0) files)
    (lists : q.Lists s.dir key e) (plain : (q.item key).2 = false)
    (same : (entry.key, entry.common) = q.item key) {info : S3ObjectInfo}
    (read : s.objectInfo env (q.root ++ key) e = some info) :
    s.entryItem env (q.request 0) entry = some (s3ListItem key info) ↔
      ShowsOwn s (q.Rivals s.dir key) e := by
  obtain ⟨rfl, notCommon⟩ := Prod.mk.inj (same.trans (ListQuery.item_plain plain))
  -- the key is what the query cut out of some path, so it has no NUL
  obtain ⟨row, caught, item⟩ := exists_caught_of_entry tree run member
  have noNul : nul ∉ entry.key := by
    have cut := ListQuery.nul_notMem_item caught.2.2
    rwa [item] at cut
  have rival : q.Rivals s.dir entry.key (q.root ++ entry.key, e) := by
    refine ⟨lists.caught, ?_⟩
    rw [ListQuery.cutKey_root, cText_eq noNul, ListQuery.item_plain plain]
  rw [objectItem_eq read]
  exact entryItem_eq_iff tree run env member notCommon rival

/-- Every row of an exact listing has the item of a file that belongs to it. -/
lemma ExactListing.exists_lists (exact : ExactListing env s q (s.fullResult env q files))
    (member : entry ∈ rowsAfter (q.request 0) files) :
    ∃ key e, q.Lists s.dir key e ∧ (entry.key, entry.common) = q.item key := by
  cases flag : entry.common with
  | true =>
    obtain ⟨key, e, lists, item⟩ := (exact.commonPrefixes entry.key).mp
      (mem_commonPrefixes.mpr ⟨entry, member, Prod.ext rfl flag⟩)
    exact ⟨key, e, lists, item.symm⟩
  | false =>
    obtain ⟨fileID, ref⟩ := refs_of_listedFiles tree run entry (mem_rowsAfter.mp member).1
    obtain ⟨key, e, info, lists, plain, read, same⟩ :=
      (exact.items _).mp (mem_items.mpr ⟨entry, member, entryItem_eq flag ref⟩)
    refine ⟨key, e, lists, ?_⟩
    rw [ListQuery.item_plain plain]
    exact congrArg (fun item : S3ListItem => (item.key, false)) same

lemma ExactListing.harmless (exact : ExactListing env s q (s.fullResult env q files)) :
    q.Harmless s := by
  constructor
  case own =>
    intro row caught nonempty
    obtain ⟨entry, member, item⟩ := exists_entry_of_caught tree run caught
    have shown : entry.key ≠ [] := by
      have proper := (ListQuery.item_ne_nil (q := q)).mpr nonempty
      rwa [item] at proper
    obtain ⟨key, e, lists, same⟩ := exact.exists_lists tree run (mem_rowsAfter.mpr ⟨member, shown⟩)
    exact ⟨key, e, lists, item.trans same⟩
  case plain =>
    intro key e lists
    obtain ⟨entry, member, item⟩ := exact.exists_entry tree lists
    obtain ⟨row, caught, same⟩ := exists_caught_of_entry tree run (mem_rowsAfter.mp member).1
    rw [← item, ← same]
    exact ListQuery.nul_notMem_item caught.2.2
  case unchanged =>
    intro key e lists plain
    obtain ⟨info, read⟩ := lists.exists_info tree env
    obtain ⟨entry, member, shown⟩ :=
      mem_items.mp ((exact.items _).mpr ⟨key, e, info, lists, plain, read, rfl⟩)
    obtain ⟨notCommon, sameKey⟩ := entryItem_some shown
    refine (entryItem_lists_iff tree run (mem_rowsAfter.mp member).1 lists plain ?_ read).mp shown
    rw [ListQuery.item_plain plain]
    exact Prod.ext sameKey.symm notCommon

lemma ListQuery.Harmless.exists_entry (harmless : q.Harmless s) (lists : q.Lists s.dir key e) :
    ∃ entry ∈ rowsAfter (q.request 0) files, (entry.key, entry.common) = q.item key := by
  have plain := harmless.plain key e lists
  obtain ⟨entry, member, item⟩ := exists_entry_of_caught tree run lists.caught
  rw [ListQuery.cutKey_root, ListQuery.item_cText lists.2.2 plain] at item
  refine ⟨entry, mem_rowsAfter.mpr ⟨member, ?_⟩, item.symm⟩
  exact (congrArg Prod.fst item).symm.trans_ne
    (ListQuery.item_ne_nil.mpr (lists.key_ne_nil tree.valid))

lemma ListQuery.Harmless.exists_lists (harmless : q.Harmless s)
    (member : entry ∈ rowsAfter (q.request 0) files) :
    ∃ key e, q.Lists s.dir key e ∧ (entry.key, entry.common) = q.item key := by
  obtain ⟨inEntries, nonempty⟩ := mem_rowsAfter.mp member
  obtain ⟨row, caught, item⟩ := exists_caught_of_entry tree run inEntries
  have proper : q.cutKey row.1 ≠ [] := by
    refine (ListQuery.item_ne_nil (q := q)).mp ?_
    rwa [item]
  obtain ⟨key, e, lists, same⟩ := harmless.own row caught proper
  exact ⟨key, e, lists, item.symm.trans same⟩

lemma ListQuery.Harmless.exact (harmless : q.Harmless s) (env : Env) :
    ExactListing env s q (s.fullResult env q files) := by
  have shows : ∀ {entry key e info}, entry ∈ rowsAfter (q.request 0) files →
      q.Lists s.dir key e → (q.item key).2 = false → (entry.key, entry.common) = q.item key →
      s.objectInfo env (q.root ++ key) e = some info →
      s.entryItem env (q.request 0) entry = some (s3ListItem key info) := by
    intro entry key e info member lists plain item read
    exact (entryItem_lists_iff tree run (mem_rowsAfter.mp member).1 lists plain item read).mpr
      (harmless.unchanged key e lists plain)
  constructor
  case items =>
    intro item
    rw [mem_items]
    constructor
    · rintro ⟨entry, member, shown⟩
      obtain ⟨key, e, lists, same⟩ := harmless.exists_lists tree run member
      obtain ⟨info, read⟩ := lists.exists_info tree env
      have plain : (q.item key).2 = false :=
        (congrArg Prod.snd same).symm.trans (entryItem_some shown).1
      refine ⟨key, e, info, lists, plain, read, ?_⟩
      exact Option.some.inj (shown.symm.trans (shows member lists plain same read))
    · rintro ⟨key, e, info, lists, plain, read, rfl⟩
      obtain ⟨entry, member, same⟩ := harmless.exists_entry tree run lists
      exact ⟨entry, member, shows member lists plain same read⟩
  case commonPrefixes =>
    intro common
    rw [mem_commonPrefixes]
    constructor
    · rintro ⟨entry, member, same⟩
      obtain ⟨key, e, lists, item⟩ := harmless.exists_lists tree run member
      exact ⟨key, e, lists, item.symm.trans same⟩
    · rintro ⟨key, e, lists, item⟩
      obtain ⟨entry, member, same⟩ := harmless.exists_entry tree run lists
      exact ⟨entry, member, same.trans item⟩
  case itemsOrdered => exact (pageResult_ordered rowsAfter_ordered).1
  case prefixesOrdered => exact (pageResult_ordered rowsAfter_ordered).2
  case complete => rfl

end

/-! ## When a listing is exact -/

/-- With a limit above the number of rows, a listing is the whole listing. -/
lemma listS3Objects_full (tree : SoundTree s.dir)
    (run : s3ListedFiles s.dir (q.request 0) = .ok files)
    (enough : (rowsAfter (q.request 0) files).length < maxKeys) :
    s.listS3Objects env (q.request maxKeys) = .ok (s.fullResult env q files) := by
  have positive : (q.request maxKeys).maxKeys ≠ 0 := Nat.ne_of_gt (Nat.zero_lt_of_lt enough)
  have page : s.listS3Objects env (q.request maxKeys) =
      .ok (s.pageResult env (q.request maxKeys) ((rowsAfter (q.request 0) files).take maxKeys)
        (maxKeys < (rowsAfter (q.request 0) files).length)) := listS3Objects_ok tree run positive
  rw [page, List.take_of_length_le (Nat.le_of_lt enough), decide_eq_false (Nat.lt_asymm enough)]
  rfl

/-- A listing has to do with nothing else when every caught path starts with the prefix, in the
same case, and has no NUL. -/
lemma harmless_of_own (valid : s.dir.Valid)
    (own : ∀ row, q.Caught s.dir row → q.root ++ q.keyPrefix <+: row.1 ∧ nul ∉ row.1) :
    q.Harmless s := by
  have plainKey : ∀ {key e}, q.Lists s.dir key e → nul ∉ key := fun lists member =>
    (own _ lists.caught).2 (List.mem_append_right _ member)
  have owned : ∀ row, q.Caught s.dir row →
      q.Lists s.dir (q.cutKey row.1) row.2 ∧ row.1 = q.root ++ q.cutKey row.1 := by
    intro row caught
    obtain ⟨⟨rest, path⟩, noNul⟩ := own row caught
    rw [List.append_assoc] at path
    have cut : q.cutKey row.1 = q.keyPrefix ++ rest := by
      rw [ListQuery.cutKey, cText_eq noNul, ← path, List.drop_left]
    rw [cut]
    exact ⟨⟨caught.2.1, path ▸ caught.1, List.prefix_append _ _⟩, path.symm⟩
  constructor
  case own => exact fun row caught _ => ⟨_, _, (owned row caught).1, rfl⟩
  case plain =>
    intro key e lists
    have cut := ListQuery.nul_notMem_item (lists.caught).2.2
    rwa [ListQuery.cutKey_root, cText_eq (plainKey lists)] at cut
  case unchanged =>
    intro key e lists plain
    -- the only file with a key is the one at its path
    have only : ∀ row, q.Rivals s.dir key row → row.2 = e := by
      rintro row ⟨caught, item⟩
      obtain ⟨other, path⟩ := owned row caught
      have flag := ListQuery.item_flag (item.trans
        (congrArg Prod.fst (ListQuery.item_plain plain)).symm)
      rw [ListQuery.item_plain (flag.trans plain)] at item
      have same : q.cutKey row.1 = key := item
      rw [same] at other
      exact valid.eq_of_path other.2.1 lists.2.1
    refine ⟨fun row rival => ?_, fun first ref isFirst isRef => ?_⟩
    · rw [only row rival]
      exact ⟨le_refl _, le_refl _⟩
    · rw [only first isFirst.1, only ref isRef.1]

/-- One File, published as `a`. -/
def storeA : Store :=
  (oneFile.step .plain noArchive (.s3 (.publish (bucketB.path keyA) 1 0 noMetadata none))).store

lemma storeA_tree : SoundTree storeA.dir := by
  have start : System.Reachable .plain noArchive (fun _ _ => True) oneFile :=
    (System.Reachable.init 0).run _
  exact (System.protocolSound (start.step _ trivial)).sound.tree

end Store

end TgFile
