import TgFile.S3.Effects

/-! # What a request leaves at the paths of objects

The object at a path, read off the directory and the metadata table.  PutObject, CopyObject and
DeleteObject rewrite the object of one path; every other path keeps its object as it is. -/

namespace TgFile.Store

open Go Go.Path Result WebDAV

variable {env : Env} {s s' : Store} {now size : Int} {path : Text} {entry : Entry} {fileID : Nat}

/-! ## The object at a path -/

/-- The link of a file mapping. -/
def fileLink (path : Text) (e : Entry) (fileID : Nat) : Link where
  entryID := e.entryID
  fileName := path
  fileID := fileID
  fileSize := e.fileSize
  mode := e.fileMode
  ctime := e.ctime
  mtime := e.mtime
  isDir := false

/-- The object that a file mapping is. -/
def objectInfo (env : Env) (s : Store) (path : Text) (e : Entry) : Option S3ObjectInfo :=
  e.refData.map fun fileID =>
    ⟨fileLink path e fileID,
      (s.readS3Metadata e.entryID).getD (legacyS3Metadata env (fileLink path e fileID))⟩

/-- The object at a path. -/
def objectAt (env : Env) (s : Store) (path : Text) : Option S3ObjectInfo :=
  ((s.dir.find (elements path)).filter fun e => e.fileKind = .file).bind (s.objectInfo env path)

lemma objectAt_eq_some {info : S3ObjectInfo} :
    s.objectAt env path = some info ↔ ∃ e, s.dir.find (elements path) = some e ∧
      e.fileKind = .file ∧ s.objectInfo env path e = some info := by
  simp only [objectAt, Option.bind_eq_some_iff, Option.filter_eq_some_iff, decide_eq_true_eq,
    and_assoc]

lemma objectAt_of_find {e : Entry} (found : s.dir.find (elements path) = some e)
    (file : e.fileKind = .file) : s.objectAt env path = s.objectInfo env path e := by
  rw [objectAt, found, Option.filter_some, if_pos (decide_eq_true file), Option.bind_some]

lemma objectAt_of_dir (dir : ∀ e, s.dir.find (elements path) = some e → e.fileKind = .dir) :
    s.objectAt env path = none := by
  refine Option.eq_none_iff_forall_ne_some.mpr fun info present => ?_
  obtain ⟨e, found, file, -⟩ := objectAt_eq_some.mp present
  rw [dir e found] at file
  cases file

lemma objectAt_congr (dir : s'.dir = s.dir) (metadata : s'.metadata = s.metadata) (path : Text) :
    s'.objectAt env path = s.objectAt env path := by
  unfold objectAt objectInfo readS3Metadata
  rw [dir, metadata]

/-- Every file is an object. -/
lemma SoundTree.objectAt_isSome (tree : SoundTree s.dir) {e : Entry}
    (found : s.dir.find (elements path) = some e) (file : e.fileKind = .file) :
    ∃ info, s.objectAt env path = some info := by
  have shape := tree.shaped _ _ (Directory.view_eq_some.mpr ⟨e, found, rfl⟩)
  rw [Directory.untimed_fileKind, Directory.untimed_refData] at shape
  cases holds : e.refData with
  | none =>
    rw [shape.mpr holds] at file
    cases file
  | some fileID =>
    rw [objectAt_of_find found file, objectInfo, holds]
    exact ⟨_, rfl⟩

/-- The outcomes of looking for the object at a path, outside and inside a transaction. -/
inductive Looked (env : Env) (s : Store) (path : Text) :
    Except Err S3ObjectInfo → Except Err (Option S3ObjectInfo) → Prop
  | object {info : S3ObjectInfo} (found : s.objectAt env path = some info)
      (clear : ¬s.dir.ThroughFile (elements path).dropLast) :
      Looked env s path (.ok info) (.ok (some info))
  | missing (absent : s.objectAt env path = none)
      (clear : ¬s.dir.ThroughFile (elements path).dropLast) :
      Looked env s path (.error .notExist) (.ok none)
  | blocked (absent : s.objectAt env path = none)
      (file : s.dir.ThroughFile (elements path).dropLast) :
      Looked env s path (.error .pathComponentNotDirectory) (.error .pathComponentNotDirectory)

lemma SoundTree.looked (tree : SoundTree s.dir) (env : Env) (path : ObjectPath) :
    Looked env s path.text (s.statS3Object env path.text) (s.statS3ObjectTx env path.text) := by
  have notRoot : elements path.text ≠ [] := fun root => path.notRoot (by
    rw [← path.canonical, clean_eq_render path.abs, root, render_nil])
  have located := tree.valid.txGetEntryInfo_located path.abs
  simp only [statS3Object, statS3ObjectTx, Directory.stat, Directory.txStat]
  generalize s.dir.txGetEntryInfo path.text = outcome at located
  generalize same : elements path.text = es at located
  cases located with
  | root => exact absurd same notRoot
  | @missing cs n none clear =>
    refine .missing (objectAt_of_dir fun e found => ?_) ?_
    · rw [same, Directory.find_snoc, none] at found
      cases found
    · rw [same, List.dropLast_concat]
      exact clear
  | @blocked cs n file =>
    refine .blocked (objectAt_of_dir fun e found => ?_) ?_
    · obtain ⟨front, f, ⟨rest, rfl⟩, atFront, kind⟩ := file
      rw [same, List.append_assoc] at found
      rw [tree.valid.isDir_above (by simp) atFront found] at kind
      cases kind
    · rw [same, List.dropLast_concat]
      exact file
  | @inside cs n p parent dir =>
    have clear : ¬s.dir.ThroughFile (elements path.text).dropLast := by
      rw [same, List.dropLast_concat]
      exact tree.valid.not_throughFile_of_dir parent dir
    rw [← same]
    cases found : s.dir.find (elements path.text) with
    | none =>
      refine .missing (objectAt_of_dir fun e present => ?_) clear
      rw [found] at present
      cases present
    | some e =>
      cases kind : e.fileKind with
      | dir =>
        have absent : s.objectAt env path.text = none := objectAt_of_dir fun x present => by
          rw [← Option.some.inj (found.symm.trans present), kind]
        simpa [kind, pure, Except.pure, bind, Except.bind] using Looked.missing absent clear
      | file =>
        obtain ⟨info, object⟩ := tree.objectAt_isSome found kind
        have read := (objectAt_of_find found kind).symm.trans object
        simp only [objectInfo, Option.map_eq_some_iff] at read
        obtain ⟨fileID, holds, rfl⟩ := read
        simpa [kind, holds, directoryEntryToLink, fileLink, pure, Except.pure, bind,
          Except.bind] using Looked.object object clear

/-! ## Rewriting the object of one path -/

/-- The other paths keep their files and the metadata of these. -/
structure Rewrites (s s' : Store) (path : Text) : Prop where
  files : s.dir.FilesBeside s'.dir (elements path)
  metadata : ∀ q e, q ≠ elements path → s.dir.find q = some e → e.fileKind = .file →
    s'.readS3Metadata e.entryID = s.readS3Metadata e.entryID

namespace Rewrites

variable {path : Text}

lemma of_same (dir : s'.dir = s.dir) (metadata : s'.metadata = s.metadata) :
    Rewrites s s' path where
  files := by
    rw [dir]
    exact .refl _ _
  metadata q e _ _ _ := by rw [readS3Metadata, metadata, readS3Metadata]

lemma of_dir (files : s.dir.FilesBeside s'.dir (elements path))
    (metadata : s'.metadata = s.metadata) : Rewrites s s' path where
  files := files
  metadata q e _ _ _ := by rw [readS3Metadata, metadata, readS3Metadata]

lemma trans {s₁ : Store} (left : Rewrites s s₁ path) (right : Rewrites s₁ s' path) :
    Rewrites s s' path where
  files := left.files.trans right.files
  metadata q e other found file :=
    (right.metadata q e other ((left.files q other e file).mpr found) file).trans
      (left.metadata q e other found file)

/-- **The object of another path is the same.** -/
lemma objectAt (rewrites : Rewrites s s' path) {other : Text}
    (apart : elements other ≠ elements path) : s'.objectAt env other = s.objectAt env other := by
  refine Option.ext fun info => ?_
  rw [objectAt_eq_some, objectAt_eq_some]
  refine exists_congr fun e => ?_
  constructor
  · rintro ⟨found, file, read⟩
    have before := (rewrites.files _ apart e file).mp found
    rw [objectInfo, rewrites.metadata _ e apart before file] at read
    exact ⟨before, file, read⟩
  · rintro ⟨found, file, read⟩
    refine ⟨(rewrites.files _ apart e file).mpr found, file, ?_⟩
    rw [objectInfo, rewrites.metadata _ e apart found file]
    exact read

lemma insert (valid : s.dir.Valid) {row : S3ObjectMetadata} {own : Entry}
    (found : s.dir.find (elements path) = some own) (same : row.entryID = own.entryID)
    (dir : s'.dir = s.dir) (rows : s'.metadata = s.metadata ++ [row]) : Rewrites s s' path where
  files := by
    rw [dir]
    exact .refl _ _
  metadata q e other here _ := by
    have apart : row.entryID ≠ e.entryID := fun id =>
      other (valid.tree.path_unique_of_id here found (id.symm.trans same))
    rw [readS3Metadata, rows, List.find?_append, readS3Metadata, List.find?_singleton,
      if_neg (by simpa using apart), Option.or_none]

/-- The rows of the entry at the path are deleted. -/
lemma delete (valid : s.dir.Valid) {own : Entry} (found : s.dir.find (elements path) = some own) :
    Rewrites s (s.deleteS3Metadata own.entryID) path where
  files := .refl _ _
  metadata q e other here _ := by
    have apart : e.entryID ≠ own.entryID := fun id =>
      other (valid.tree.path_unique_of_id here found id)
    simp only [readS3Metadata, deleteS3Metadata, List.find?_filter]
    refine congrArg (List.find? · s.metadata) (funext fun row => ?_)
    by_cases mine : row.entryID = e.entryID
    · simp [mine, apart]
    · simp [mine]

end Rewrites

/-! ## The requests -/

lemma rebindReplaced_same {current : Option S3ObjectInfo}
    (run : s.rebindReplaced current entry path = .ok s') :
    s'.dir = s.dir ∧ s'.metadata = s.metadata := by
  cases current with
  | none =>
    obtain rfl := Except.ok.inj run
    exact ⟨rfl, rfl⟩
  | some current =>
    simp only [rebindReplaced, rebindWebDAVProtocolState, bind_ok, pure_ok] at run
    obtain ⟨properties, -, locks, -, rfl⟩ := run
    exact ⟨rfl, rfl⟩

lemma markReplacedPending_same {replacedFileID : Nat}
    (run : s.markReplacedPending replacedFileID fileID now = .ok s') :
    s'.dir = s.dir ∧ s'.metadata = s.metadata := by
  unfold markReplacedPending at run
  split_ifs at run
  · obtain ⟨hit, rfl, -⟩ := markFileTreePendingIfUnreferenced_ok run
    exact ⟨rfl, rfl⟩
  · obtain rfl := Except.ok.inj run
    exact ⟨rfl, rfl⟩

lemma dropOverwrittenState_same (info : Option S3ObjectInfo) :
    (s.dropOverwrittenState info).dir = s.dir ∧
      (s.dropOverwrittenState info).metadata = s.metadata := by
  cases info with
  | none => exact ⟨rfl, rfl⟩
  | some info => exact ⟨rfl, rfl⟩

/-- Removing the file at a path together with its metadata. -/
lemma removeFile_rewrites (tree : SoundTree s.dir) (path : ObjectPath) {old : Entry}
    {d' : Directory} {removed : List Entry} (found : s.dir.find (elements path.text) = some old)
    (file : old.fileKind = .file) (run : s.dir.remove now path.text = .ok (d', removed)) :
    Rewrites s ({ s with dir := d' }.deleteS3Metadata old.entryID) path.text :=
  (Rewrites.delete tree.valid found).trans
    (.of_dir (tree.valid.remove_filesBeside path.abs found file run) rfl)

lemma removeReplacedS3Object_rewrites (tree : SoundTree s.dir) (path : ObjectPath)
    {current : Option S3ObjectInfo} {replacedID : Nat}
    (looked : s.statS3ObjectTx env path.text = .ok current)
    (run : s.removeReplacedS3Object now path.text current = .ok (s', replacedID)) :
    SoundTree s'.dir ∧ Rewrites s s' path.text := by
  rcases statS3ObjectTx_ok tree path.abs looked with
    ⟨rfl, -⟩ | ⟨info, old, rfl, found, file, id, holds⟩
  · obtain ⟨rfl, -⟩ := Prod.mk.inj (Except.ok.inj run)
    exact ⟨tree, .of_same rfl rfl⟩
  · simp only [removeReplacedS3Object, bind_ok, pure_ok] at run
    obtain ⟨⟨d', removed⟩, cut, result⟩ := run
    obtain ⟨rfl, -⟩ := Prod.mk.inj result
    have gone := remove_file tree path.abs found file cut
    rw [id]
    exact ⟨tree.of_remaps gone.keeps.valid gone.shaped (gone.remaps _ holds) (by simp),
      removeFile_rewrites tree path found file cut⟩

lemma find_of_view {d : Directory} {cs : List Text} (shown : d.view cs = some entry.untimed) :
    ∃ own, d.find cs = some own ∧ own.entryID = entry.entryID ∧ own.fileKind = entry.fileKind ∧
      own.refData = entry.refData ∧ own.fileSize = entry.fileSize := by
  obtain ⟨own, found, untimed⟩ := Directory.view_eq_some.mp shown
  simp only [Entry.untimed, Entry.mk.injEq] at untimed
  obtain ⟨id, -, ref, kind, -, -, size, -, -⟩ := untimed
  exact ⟨own, found, id, kind, ref, size⟩

/-- The mapping that `Create` makes. -/
lemma create_rewrites (tree : SoundTree s.dir) (path : ObjectPath) {d' : Directory}
    (run : s.dir.create now path.text size (some fileID) = .ok (d', entry)) :
    d'.Valid ∧ Rewrites s { s with dir := d' } path.text ∧
      ∃ own, d'.find (elements path.text) = some own ∧ own.entryID = entry.entryID ∧
        own.fileKind = .file ∧ own.refData = some fileID ∧ own.fileSize = size := by
  have notRoot : elements path.text ≠ [] := fun root => path.notRoot (by
    rw [← path.canonical, clean_eq_render path.abs, root, render_nil])
  obtain ⟨grown, absent, kind, ref, sized⟩ := tree.valid.create_grown path.abs notRoot run
  obtain ⟨x, shown, -, -, whole⟩ := grown.made _ absent List.prefix_rfl
  rw [whole rfl] at shown
  obtain ⟨own, found, sameID, sameKind, sameRef, sameSize⟩ := find_of_view shown
  exact ⟨grown.valid, .of_dir grown.filesBeside rfl, own, found, sameID, sameKind.trans kind,
    sameRef.trans ref, sameSize.trans sized⟩

/-- The object of a path is a File of a size with metadata, whichever entry these belong to. -/
def Shows (env : Env) (s : Store) (path : Text) (fileID : Nat) (size : Int)
    (metadata : S3ObjectMetadata) : Prop :=
  ∃ info, s.objectAt env path = some info ∧ info.link.fileID = fileID ∧
    info.link.fileSize = size ∧ { info.metadata with entryID := 0 } = { metadata with entryID := 0 }

lemma shows_of_row {own : Entry} {row metadata : S3ObjectMetadata} {rows : List S3ObjectMetadata}
    (found : s.dir.find (elements path) = some own) (file : own.fileKind = .file)
    (ref : own.refData = some fileID) (sized : own.fileSize = size)
    (table : s.metadata = rows ++ [row]) (fresh : ∀ other ∈ rows, other.entryID ≠ row.entryID)
    (same : own.entryID = row.entryID)
    (stored : { row with entryID := 0 } = { metadata with entryID := 0 }) :
    Shows env s path fileID size metadata := by
  have read : s.readS3Metadata own.entryID = some row := by
    rw [readS3Metadata, table, List.find?_append, same,
      List.find?_eq_none.mpr fun other member => ?_]
    · simp
    · simpa using fresh other member
  refine ⟨⟨fileLink path own fileID, row⟩, ?_, rfl, sized, stored⟩
  rw [objectAt_of_find found file, objectInfo, ref, read]
  rfl

lemma publishS3ObjectTx_rewrites (tree : SoundTree s.dir) (path : ObjectPath)
    {metadata : S3ObjectMetadata} {condition : Option S3Condition}
    (run : s.publishS3ObjectTx env now path.text fileID size metadata condition =
      .ok (s', entry)) :
    Rewrites s s' path.text ∧
      Shows env s' path.text fileID size { metadata with ctime := now, mtime := now } := by
  simp only [publishS3ObjectTx, bind_ok, pure_ok] at run
  obtain ⟨current, looked, _, -, _, -, ⟨s₁, replacedID⟩, removedRun, ⟨d', e⟩, made, s₂, rebound,
    s₃, inserted, s₄, marked, result⟩ := run
  obtain ⟨rfl, rfl⟩ := Prod.mk.inj result
  obtain ⟨tree₁, removed⟩ := removeReplacedS3Object_rewrites tree path looked removedRun
  obtain ⟨valid, created, own, found, id, file, ref, rfl⟩ := create_rewrites tree₁ path made
  obtain ⟨dir₂, metadata₂⟩ := rebindReplaced_same rebound
  obtain ⟨fresh, rfl⟩ := insertS3Metadata_ok inserted
  obtain ⟨dir₄, metadata₄⟩ := markReplacedPending_same marked
  have atPath : s₂.dir.find (elements path.text) = some own := by
    rw [dir₂]
    exact found
  refine ⟨removed.trans <| created.trans <| (Rewrites.of_same dir₂ metadata₂).trans <|
    Rewrites.insert (dir₂ ▸ valid) atPath id.symm dir₄ metadata₄, ?_⟩
  rw [← dir₄] at atPath
  exact shows_of_row atPath file ref rfl metadata₄ fresh id rfl

lemma copyDifferentS3ObjectTx_rewrites (tree : SoundTree s.dir) (destination : ObjectPath)
    {sourceInfo : S3ObjectInfo} {destinationInfo : Option S3ObjectInfo}
    {metadata : Option S3ObjectMetadata}
    (looked : s.statS3ObjectTx env destination.text = .ok destinationInfo)
    (run : s.copyDifferentS3ObjectTx now destination.text sourceInfo destinationInfo metadata =
      .ok (s', entry)) :
    Rewrites s s' destination.text ∧
      Shows env s' destination.text sourceInfo.link.fileID sourceInfo.link.fileSize
        { metadata.getD sourceInfo.metadata with ctime := now, mtime := now } := by
  simp only [copyDifferentS3ObjectTx, bind_ok, pure_ok] at run
  obtain ⟨⟨s₁, replacedID⟩, removedRun, _, -, ⟨d', e⟩, made, s₂, inserted, s₃, copied, s₄,
    marked, result⟩ := run
  obtain ⟨rfl, rfl⟩ := Prod.mk.inj result
  obtain ⟨tree₁, removed⟩ := removeReplacedS3Object_rewrites tree destination looked removedRun
  obtain ⟨droppedDir, droppedRows⟩ := dropOverwrittenState_same (s := s₁) destinationInfo
  rw [← droppedDir] at tree₁
  obtain ⟨valid, created, own, found, id, file, ref, sized⟩ :=
    create_rewrites tree₁ destination made
  obtain ⟨fresh, rfl⟩ := insertS3Metadata_ok inserted
  obtain ⟨rows, rfl⟩ := copyEntryProperties_ok copied
  obtain ⟨dir₄, metadata₄⟩ := markReplacedPending_same marked
  refine ⟨removed.trans <| (Rewrites.of_same droppedDir droppedRows).trans <| created.trans <|
    Rewrites.insert valid found id.symm dir₄ metadata₄, ?_⟩
  have atPath : s₄.dir.find (elements destination.text) = some own := by
    rw [dir₄]
    exact found
  exact shows_of_row atPath file ref sized metadata₄ fresh id rfl

/-- What a copy onto the same key stores: nothing, or new metadata created when the old was. -/
lemma copySameS3ObjectTx_rewrites (tree : SoundTree s.dir) (source : ObjectPath)
    {info : S3ObjectInfo} {metadata : Option S3ObjectMetadata}
    (object : s.objectAt env source.text = some info)
    (run : s.copySameS3ObjectTx now source.text info metadata = .ok s') :
    Rewrites s s' source.text ∧
      Shows env s' source.text info.link.fileID info.link.fileSize
        (match metadata with
        | none => info.metadata
        | some metadata => { metadata with ctime := info.metadata.ctime, mtime := now }) := by
  cases metadata with
  | none =>
    obtain rfl := Except.ok.inj run
    exact ⟨.of_same rfl rfl, info, object, rfl, rfl, rfl⟩
  | some metadata =>
    obtain ⟨own, found, file, read⟩ := objectAt_eq_some.mp object
    simp only [objectInfo, Option.map_eq_some_iff] at read
    obtain ⟨fileID, ref, rfl⟩ := read
    simp only [copySameS3ObjectTx, bind_ok, pure_ok] at run
    obtain ⟨s₁, inserted, d', touched, rfl⟩ := run
    obtain ⟨fresh, rfl⟩ := insertS3Metadata_ok inserted
    obtain ⟨valid, -, view, -⟩ := tree.valid.touch_spec source.abs touched
    obtain ⟨current, atPath, sameID, sameKind, sameRef, sameSize⟩ :=
      find_of_view ((view _).trans (Directory.view_eq_some.mpr ⟨own, found, rfl⟩))
    have moved : Rewrites (s.deleteS3Metadata own.entryID)
        { s.deleteS3Metadata own.entryID with dir := d' } source.text :=
      .of_dir (tree.valid.touch_filesBeside source.abs touched) rfl
    refine ⟨(Rewrites.delete tree.valid found).trans <| moved.trans <|
      Rewrites.insert valid atPath sameID.symm rfl rfl, ?_⟩
    exact shows_of_row atPath (sameKind.trans file) (sameRef.trans ref) sameSize rfl fresh sameID
      rfl

lemma deleteS3Object_rewrites (tree : SoundTree s.dir) (path : ObjectPath)
    {condition : Option S3Condition} {deleted : Bool}
    (run : s.deleteS3Object env now path.text condition = .ok (s', deleted)) :
    Rewrites s s' path.text ∧ s'.objectAt env path.text = none := by
  simp only [deleteS3Object, bind_ok] at run
  obtain ⟨current, looked, _, -, rest⟩ := run
  rcases statS3ObjectTx_ok tree path.abs looked with
    ⟨rfl, dir⟩ | ⟨info, old, rfl, found, file, id, holds⟩
  · obtain ⟨rfl, -⟩ := Prod.mk.inj (pure_ok.mp rest)
    exact ⟨.of_same rfl rfl, objectAt_of_dir dir⟩
  · simp only [bind_ok, pure_ok] at rest
    obtain ⟨⟨d', removed⟩, cut, s₁, marked, result⟩ := rest
    obtain ⟨rfl, -⟩ := Prod.mk.inj result
    obtain ⟨hit, rfl, -⟩ := markFileTreePendingIfUnreferenced_ok marked
    obtain ⟨d₁, pruned, same, -⟩ := tree.valid.remove_pruned path.abs cut
    rw [id]
    refine ⟨(removeFile_rewrites tree path found file cut).trans (.of_same rfl rfl),
      objectAt_of_dir fun e here => ?_⟩
    have shown : d'.view (elements path.text) = some e.untimed :=
      Directory.view_eq_some.mpr ⟨e, here, rfl⟩
    rw [same.view, Directory.view, pruned.cut _ List.prefix_rfl] at shown
    cases shown

end TgFile.Store
