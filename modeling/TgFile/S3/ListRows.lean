import TgFile.S3.Listing

/-! # The rows of a listing

What the query of `ListS3Objects` returns for a directory that forms a tree: the files with their
paths that the pattern accepts, one row for every item of theirs, and the page of a request. -/

namespace TgFile

open Go Go.Path Result Sqlite

namespace Directory

variable {d : Directory} {e : Entry} {path : Text}

/-- The paths of the mappings. -/
def PathOf (d : Directory) (path : Text) (e : Entry) : Prop :=
  ∃ cs, d.find cs = some e ∧ path = render cs

/-- The path of a child, as the query builds it. -/
lemma render_child {cs : List Text} (names : Names cs) (name : Text) :
    (if render cs = ['/'] then '/' :: name else render cs ++ '/' :: name) =
      render (cs ++ [name]) := by
  by_cases root : cs = []
  · rw [root, render_nil, if_pos rfl, List.nil_append, render_singleton]
  · rw [if_neg fun slash => root ((render_eq_slash names).mp slash), render_concat root]

lemma Valid.pathsBelow_eq (valid : d.Valid) (depth : Nat) {cs : List Text}
    (found : d.find cs = some e) :
    d.pathsBelow depth (render cs) e =
      (Entry.schema.preorder (fun pid => d.entries.filter fun c => c.parentEntryID = pid) depth cs
        e).map fun row => (render row.1, row.2) := by
  induction depth generalizing cs e with
  | zero => rfl
  | succ depth ih =>
    have below : ∀ c ∈ d.entries.filter fun c => c.parentEntryID = e.entryID, d.pathsBelow depth
            (if render cs = ['/'] then '/' :: c.fileName else render cs ++ '/' :: c.fileName) c =
          (Entry.schema.preorder (fun pid => d.entries.filter fun c => c.parentEntryID = pid)
            depth (cs ++ [Entry.schema.name c]) c).map fun row => (render row.1, row.2) := by
      intro c kid
      obtain ⟨member, parent⟩ := List.mem_filter.mp kid
      have child : d.find (cs ++ [c.fileName]) = some c :=
        valid.tree.find_concat_eq found member (of_decide_eq_true parent)
      rw [render_child (valid.names_of_find found)]
      exact ih child
    rw [pathsBelow, Tree.Schema.preorder, List.map_cons]
    congr 1
    by_cases dir : Entry.schema.isDir e = true
    · rw [if_pos dir, List.map_flatMap]
      exact List.flatMap_congr below
    · rw [if_neg dir]
      -- a file has no rows below it
      have none : d.entries.filter (fun c => c.parentEntryID = e.entryID) = [] := by
        refine List.filter_eq_nil_iff.mpr fun c member parent => dir ?_
        exact valid.tree.dirs e (Tree.Schema.find_mem found) c member (of_decide_eq_true parent)
      rw [none]
      rfl

lemma Valid.mem_mappingTree (valid : d.Valid) : (path, e) ∈ d.mappingTree ↔ d.PathOf path e := by
  have listing : Entry.schema.Listing d.entries
      fun pid => d.entries.filter fun c => c.parentEntryID = pid := by
    refine ⟨fun pid r => ?_, fun pid => ?_⟩
    · rw [List.mem_filter, decide_eq_true_eq]
      rfl
    · exact (List.Nodup.of_map _ valid.tree.ids).filter _
  have below : ∀ root ∈ d.entries.filter fun e => e.parentEntryID = 0 ∧ e.fileName = ['/'],
      d.find [] = some root := by
    intro root member
    obtain ⟨inRows, place⟩ := List.mem_filter.mp member
    obtain ⟨top, name⟩ := of_decide_eq_true place
    rw [find, Tree.Schema.find_nil]
    exact valid.tree.child_eq.mpr ⟨inRows, top, name⟩
  simp only [mappingTree, List.mem_flatMap]
  constructor
  · rintro ⟨root, member, inside⟩
    have found := below root member
    rw [← render_nil, valid.pathsBelow_eq _ found] at inside
    obtain ⟨⟨cs, x⟩, walked, same⟩ := List.mem_map.mp inside
    obtain ⟨rfl, rfl⟩ := Prod.mk.inj same
    exact ⟨cs, ((valid.tree.mem_preorder listing (Nat.le_refl _) found _ _).mp walked).2, rfl⟩
  · rintro ⟨cs, found, rfl⟩
    obtain ⟨root, top⟩ : ∃ root, d.find [] = some root :=
      Tree.Schema.find_front (found : d.find ([] ++ cs) = some e)
    obtain ⟨parent, name⟩ := Tree.Schema.find_nil_some top
    refine ⟨root, List.mem_filter.mpr ⟨Tree.Schema.find_mem top, decide_eq_true ⟨parent, name⟩⟩, ?_⟩
    rw [← render_nil, valid.pathsBelow_eq _ top]
    exact List.mem_map.mpr ⟨(cs, e), (valid.tree.mem_preorder listing (Nat.le_refl _) top _ _).mpr
        ⟨List.nil_prefix, found⟩, rfl⟩

lemma Valid.eq_of_path (valid : d.Valid) {e' : Entry} (left : d.PathOf path e)
    (right : d.PathOf path e') : e = e' := by
  obtain ⟨cs, found, rfl⟩ := left
  obtain ⟨ds, found', same⟩ := right
  rw [render_injective (valid.names_of_find found) (valid.names_of_find found') same,
    found'] at found
  exact (Option.some.inj found).symm

/-- The path of a file does not end in a slash. -/
lemma Valid.path_end (valid : d.Valid) (here : d.PathOf path e) (file : e.fileKind = .file) :
    path.getLast? ≠ some '/' := by
  obtain ⟨cs, found, rfl⟩ := here
  rcases List.eq_nil_or_concat' cs with rfl | ⟨cs, name, rfl⟩
  · rw [valid.find_root_kind found] at file
    cases file
  · obtain ⟨nonempty, -, -, noSlash⟩ := valid.names_of_find found name (by simp)
    obtain ⟨front, rendered, -⟩ := render_concat_split cs name
    rw [rendered, List.getLast?_append_of_ne_nil _ (List.cons_ne_nil _ _),
      List.getLast?_cons_of_ne_nil nonempty]
    exact fun slash => noSlash (List.mem_of_getLast? slash)

end Directory

namespace Store

/-- A file mapping of the tree has a File. -/
lemma SoundTree.exists_ref {d : Directory} (tree : SoundTree d) {path : Text} {e : Entry}
    (here : d.PathOf path e) (file : e.fileKind = .file) : ∃ fileID, e.refData = some fileID := by
  obtain ⟨cs, found, -⟩ := here
  refine Option.ne_none_iff_exists'.mp fun none => ?_
  have seen : d.view cs = some e.untimed := by rw [Directory.view, found, Option.map_some]
  have dir := (tree.shaped cs e.untimed seen).mpr none
  exact absurd (file.symm.trans dir) (by decide)

/-- The files that the pattern accepts. -/
def Accepted (d : Directory) (request : S3ListRequest) (row : Text × Entry) : Prop :=
  d.PathOf row.1 row.2 ∧ row.2.fileKind = .file ∧
    likeText (some '\\') request.pattern row.1 = true

/-- The item of a row. -/
abbrev itemKey (request : S3ListRequest) (row : Text × Entry) : Text :=
  (projectS3Row request row.1).1

variable {d : Directory} {request : S3ListRequest} {row : Text × Entry}
  {files : List (Text × Entry)} {entry : S3ListPageEntry}

lemma mem_s3ListedFiles (valid : d.Valid) (run : s3ListedFiles d request = .ok files) :
    row ∈ files ↔ Accepted d request row := by
  unfold s3ListedFiles at run
  simp only at run
  split_ifs at run
  obtain rfl := Except.ok.inj run
  rw [List.mem_filter, List.mem_filter, valid.mem_mappingTree, decide_eq_true_eq, and_assoc]
  rfl

/-- The pattern is short enough for SQLite, or there is no file to compare it with. -/
def PatternFits (d : Directory) (request : S3ListRequest) : Prop :=
  byteLength request.pattern ≤ maxLikePatternLength ∨
    ∀ path e, d.PathOf path e → e.fileKind ≠ .file

lemma s3ListedFiles_ok (valid : d.Valid) :
    (∃ files, s3ListedFiles d request = .ok files) ↔ PatternFits d request := by
  have none : d.mappingTree.filter (fun row => row.2.fileKind = .file) = [] ↔
      ∀ path e, d.PathOf path e → e.fileKind ≠ .file := by
    rw [List.filter_eq_nil_iff]
    constructor
    · intro empty path e here file
      exact empty (path, e) (valid.mem_mappingTree.mpr here) (decide_eq_true file)
    · intro noFile row member file
      exact noFile row.1 row.2 (valid.mem_mappingTree.mp member) (of_decide_eq_true file)
  unfold s3ListedFiles PatternFits
  rw [← none]
  simp only
  split_ifs with long
  · refine ⟨fun ⟨_, run⟩ => (nomatch run), fun fits => ?_⟩
    rcases fits with short | empty
    · omega
    · exact absurd empty long.2
  · refine ⟨fun _ => ?_, fun _ => ⟨_, rfl⟩⟩
    by_cases short : byteLength request.pattern ≤ maxLikePatternLength
    · exact .inl short
    · exact .inr (by_contra fun some => long ⟨by omega, some⟩)

/-! ## One row for every item -/

/-- What the query makes of the rows of an item. -/
structure Merged (request : S3ListRequest) (rows : List (Text × Entry)) (entry : S3ListPageEntry) :
    Prop where
  entryID : minOf (fun row => row.2.entryID) rows = some entry.entryID
  ref : ∃ row, minRow (fun row => refText row.2) rows = some row ∧
    entry.refData = row.2.refData
  ctime : minOf (fun row => row.2.ctime) rows = some entry.ctime
  mtime : minOf (fun row => row.2.mtime) rows = some entry.mtime
  fileSize : minOf (fun row => row.2.fileSize) rows = some entry.fileSize
  common : entry.common = rows.any fun row => (projectS3Row request row.1).2

lemma mergeS3Rows_iff {key : Text} {rows : List (Text × Entry)} :
    mergeS3Rows request key rows = some entry ↔ entry.key = key ∧ Merged request rows entry := by
  simp only [mergeS3Rows, Option.bind_eq_bind, Option.bind_eq_some_iff, Option.pure_def,
    Option.some.injEq]
  constructor
  · rintro ⟨entryID, least, ref, smallest, ctime, c, mtime, m, fileSize, z, rfl⟩
    exact ⟨rfl, least, ⟨ref, smallest, rfl⟩, c, m, z, rfl⟩
  · rintro ⟨rfl, ⟨least, ⟨ref, smallest, same⟩, c, m, z, common⟩⟩
    refine ⟨_, least, ref, smallest, _, c, _, m, _, z, ?_⟩
    cases entry
    simp_all

lemma exists_merged {rows : List (Text × Entry)} (member : row ∈ rows) (key : Text) :
    ∃ entry, mergeS3Rows request key rows = some entry := by
  obtain ⟨a, -, least⟩ := minOf_isSome (f := fun row : Text × Entry => row.2.entryID) member
  obtain ⟨b, -, ctime⟩ := minOf_isSome (f := fun row : Text × Entry => row.2.ctime) member
  obtain ⟨c, -, mtime⟩ := minOf_isSome (f := fun row : Text × Entry => row.2.mtime) member
  obtain ⟨z, -, fileSize⟩ := minOf_isSome (f := fun row : Text × Entry => row.2.fileSize) member
  obtain ⟨r, ref⟩ := minRow_isSome (fun row : Text × Entry => refText row.2) member
  simp only [mergeS3Rows, least, ref, ctime, mtime, fileSize]
  exact ⟨_, rfl⟩

lemma mem_s3ListEntries :
    entry ∈ s3ListEntries request files ↔ (∃ row ∈ files, itemKey request row = entry.key) ∧
      Merged request (files.filter fun row => itemKey request row = entry.key) entry := by
  simp only [s3ListEntries, mem_orderBy, List.mem_filterMap]
  constructor
  · rintro ⟨⟨key, group⟩, member, merged⟩
    obtain ⟨rfl, holds⟩ := mergeS3Rows_iff.mp merged
    obtain ⟨occurs, rfl⟩ := mem_groupBy.mp member
    exact ⟨occurs, holds⟩
  · rintro ⟨occurs, holds⟩
    exact ⟨(entry.key, _), mem_groupBy.mpr ⟨occurs, rfl⟩, mergeS3Rows_iff.mpr ⟨rfl, holds⟩⟩

lemma exists_s3ListEntry (member : row ∈ files) :
    ∃ entry ∈ s3ListEntries request files, entry.key = itemKey request row := by
  have grouped : row ∈ files.filter fun other => itemKey request other = itemKey request row :=
    List.mem_filter.mpr ⟨member, decide_eq_true rfl⟩
  obtain ⟨entry, merged⟩ : ∃ entry, mergeS3Rows request (itemKey request row) _ = some entry :=
    exists_merged grouped _
  obtain ⟨same, holds⟩ := mergeS3Rows_iff.mp merged
  exact ⟨entry, mem_s3ListEntries.mpr ⟨⟨row, member, same.symm⟩, same ▸ holds⟩, same⟩

lemma s3ListEntries_ordered (request : S3ListRequest) (files : List (Text × Entry)) :
    (s3ListEntries request files).Pairwise fun a b => a.key < b.key := by
  refine orderBy_strict (List.pairwise_map.mpr ?_)
  have keys : (groupBy (itemKey request) files).Pairwise fun a b => a.1 ≠ b.1 := by
    refine List.pairwise_map.mp ?_
    rw [groupBy_keys]
    exact List.nodup_dedup _
  refine keys.filterMap _ fun a b apart x left y right => ?_
  rw [(mergeS3Rows_iff.mp left).1, (mergeS3Rows_iff.mp right).1]
  exact apart

/-! ## The result of a page -/

/-- The item that a row of the query adds to the result. -/
def entryItem (env : Env) (s : Store) (request : S3ListRequest) (entry : S3ListPageEntry) :
    Option S3ListItem :=
  if entry.common then none
  else entry.refData.map fun fileID =>
    s3ListItem entry.key (s.s3ListObject env request entry fileID)

/-- The result of a list of rows. -/
def pageResult (env : Env) (s : Store) (request : S3ListRequest) (page : List S3ListPageEntry)
    (truncated : Bool) : S3ListResult where
  items := page.filterMap (s.entryItem env request)
  commonPrefixes := (page.filter fun entry => entry.common).map S3ListPageEntry.key
  nextKey := (page.getLast?.map S3ListPageEntry.key).getD []
  isTruncated := truncated

lemma entryItem_some {env : Env} {s : Store} {item : S3ListItem}
    (shown : s.entryItem env request entry = some item) :
    entry.common = false ∧ item.key = entry.key := by
  unfold entryItem at shown
  split_ifs at shown with common
  obtain ⟨fileID, -, rfl⟩ := Option.map_eq_some_iff.mp shown
  exact ⟨Bool.eq_false_iff.mpr common, rfl⟩

/-- Rows in order give items and common prefixes in order. -/
lemma pageResult_ordered {env : Env} {s : Store} {page : List S3ListPageEntry} {truncated : Bool}
    (ordered : page.Pairwise fun a b => a.key < b.key) :
    (s.pageResult env request page truncated).items.Pairwise (fun a b => a.key < b.key) ∧
      (s.pageResult env request page truncated).commonPrefixes.Pairwise (· < ·) := by
  constructor
  · refine ordered.filterMap _ fun a b before x left y right => ?_
    rw [(entryItem_some left).2, (entryItem_some right).2]
    exact before
  · exact (ordered.filter _).map _ fun _ _ before => before

/-- Every row of a page is shown as an item or as a common prefix. -/
lemma length_pageResult (env : Env) (s : Store) (page : List S3ListPageEntry) (truncated : Bool) :
    (s.pageResult env request page truncated).items.length +
      (s.pageResult env request page truncated).commonPrefixes.length ≤ page.length := by
  have items : (page.filterMap (s.entryItem env request)).length ≤
      page.countP fun entry => !entry.common := by
    rw [List.length_filterMap_eq_countP]
    refine List.countP_mono_left fun entry _ shown => ?_
    obtain ⟨item, same⟩ := Option.isSome_iff_exists.mp shown
    rw [(entryItem_some same).1]
    rfl
  have prefixes : ((page.filter fun entry => entry.common).map S3ListPageEntry.key).length =
      page.countP fun entry => entry.common := by
    rw [List.length_map, List.countP_eq_length_filter]
  have split := List.length_eq_countP_add_countP (fun entry : S3ListPageEntry => entry.common)
    (l := page)
  simp only [pageResult]
  simp only [Bool.not_eq_true, Bool.decide_eq_false] at split
  omega

lemma foldlM_appendS3ListEntry {env : Env} {s : Store} {page : List S3ListPageEntry}
    (refs : ∀ entry ∈ page, ∃ fileID, entry.refData = some fileID) (truncated : Bool) :
    page.foldlM (s.appendS3ListEntry env request) ⟨[], [], [], truncated⟩ =
      .ok (s.pageResult env request page truncated) := by
  induction page using List.reverseRecOn with
  | nil => rfl
  | append_singleton page entry ih =>
    rw [List.foldlM_append, ih fun other member => refs other (List.mem_append_left _ member)]
    obtain ⟨fileID, ref⟩ := refs entry (by simp)
    change (s.appendS3ListEntry env request (s.pageResult env request page truncated) entry >>=
      fun result => .ok result) = _
    have rest : (page ++ [entry]).getLast? = some entry := List.getLast?_concat
    by_cases common : entry.common = true
    · simp [appendS3ListEntry, pageResult, entryItem, common, rest, bind, Except.bind]
    · simp [appendS3ListEntry, pageResult, entryItem, common, rest, ref, bind, Except.bind]

lemma refs_of_listedFiles (tree : SoundTree d) (run : s3ListedFiles d request = .ok files) :
    ∀ entry ∈ s3ListEntries request files, ∃ fileID, entry.refData = some fileID := by
  intro entry member
  obtain ⟨-, merged⟩ := mem_s3ListEntries.mp member
  obtain ⟨row, least, same⟩ := merged.ref
  have accepted := (mem_s3ListedFiles tree.valid run).mp (List.mem_filter.mp (minRow_mem least)).1
  rw [same]
  exact tree.exists_ref accepted.1 accepted.2.1

/-- The rows after the start of a request. -/
def rowsAfter (request : S3ListRequest) (files : List (Text × Entry)) : List S3ListPageEntry :=
  (s3ListEntries request files).filter fun entry =>
    (if request.continuationToken ≠ [] then request.continuationToken else request.startAfter) <
      entry.key

/-- A page is what the limit leaves of the rows after the start. -/
lemma listS3Objects_ok {env : Env} {s : Store} (tree : SoundTree s.dir)
    (run : s3ListedFiles s.dir request = .ok files) (positive : request.maxKeys ≠ 0) :
    s.listS3Objects env request = .ok (s.pageResult env request
      ((rowsAfter request files).take request.maxKeys)
      (request.maxKeys < (rowsAfter request files).length)) := by
  have refs : ∀ entry ∈ (rowsAfter request files).take request.maxKeys,
      ∃ fileID, entry.refData = some fileID := fun entry member =>
    refs_of_listedFiles tree run entry (List.mem_filter.mp (List.mem_of_mem_take member)).1
  have more : decide (request.maxKeys < ((rowsAfter request files).take
    (request.maxKeys + 1)).length)
      = decide (request.maxKeys < (rowsAfter request files).length) := by
    rw [List.length_take]
    congr 1
    exact propext (by omega)
  have query : queryS3ListPage s.dir request
      (if request.continuationToken ≠ [] then request.continuationToken else request.startAfter) =
      .ok ((rowsAfter request files).take (request.maxKeys + 1)) := by
    unfold queryS3ListPage
    rw [run]
    rfl
  unfold listS3Objects
  rw [if_neg positive]
  simp only [query]
  change ((readS3ListPage ((rowsAfter request files).take (request.maxKeys + 1))
    request.maxKeys).1.foldlM _ _) = _
  simp only [readS3ListPage, List.take_take, Nat.min_eq_left (Nat.le_succ _), more]
  exact foldlM_appendS3ListEntry refs _

lemma exists_files_of_listed {env : Env} {s : Store} {result : S3ListResult}
    (page : s.listS3Objects env request = .ok result) (positive : request.maxKeys ≠ 0) :
    ∃ files, s3ListedFiles s.dir request = .ok files := by
  simp only [listS3Objects, if_neg positive] at page
  obtain ⟨rows, query, -⟩ := bind_ok.mp page
  obtain ⟨files, run, -⟩ := bind_ok.mp query
  exact ⟨files, run⟩

/-! ## What is shown of an object -/

/-- The ETag, checksum algorithm and checksum type that the listing shows for an entry id and the
text of a File id. -/
def shownMetadata (s : Store) (entryID : Nat) (ref : Text) : Text × Text × Text :=
  match s.readS3Metadata entryID with
  | some row => (row.etag, row.requestChecksumAlgorithm, row.checksumType)
  | none => ("W/\"".toList ++ ref ++ ['"'], [], [])

/-- An item with what is shown of its metadata. -/
def shownItem (key : Text) (size mtime : Int) (shown : Text × Text × Text) : S3ListItem :=
  ⟨key, size, mtime, shown.1, shown.2.1, shown.2.2⟩

variable {env : Env} {s : Store}

lemma s3ListItem_eq (key : Text) (link : WebDAV.Link) :
    s3ListItem key ⟨link, (s.readS3Metadata link.entryID).getD (legacyS3Metadata env link)⟩ =
      shownItem key link.fileSize link.mtime
        (s.shownMetadata link.entryID (decimal link.fileID)) := by
  unfold shownMetadata shownItem s3ListItem
  cases s.readS3Metadata link.entryID with
  | some row => rfl
  | none => rfl

lemma entryItem_eq {fileID : Nat} (plain : entry.common = false)
    (ref : entry.refData = some fileID) :
    s.entryItem env request entry = some (shownItem entry.key entry.fileSize entry.mtime
      (s.shownMetadata entry.entryID (decimal fileID))) := by
  simp only [entryItem, plain, Bool.false_eq_true, if_false, ref, Option.map_some]
  exact congrArg some (s3ListItem_eq _ _)

lemma objectItem_eq {key path : Text} {e : Entry} {info : S3ObjectInfo}
    (object : s.objectInfo env path e = some info) :
    s3ListItem key info =
      shownItem key e.fileSize e.mtime (s.shownMetadata e.entryID (refText e)) := by
  obtain ⟨fileID, ref, rfl⟩ := Option.map_eq_some_iff.mp object
  rw [refText, ref]
  exact s3ListItem_eq key (fileLink path e fileID)

end Store

end TgFile
