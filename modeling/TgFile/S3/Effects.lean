import TgFile.S3.Parts
import TgFile.WebDAV.Effects

/-! # What S3 requests do to entries and locks -/

namespace TgFile.Store

open Go Go.Path Result WebDAV

variable {env : Env} {s s' : Store} {now size : Int} {d d' : Directory} {old entry : Entry}
  {removed : List Entry} {fileID : Nat} {metadata : Option S3ObjectMetadata}
  {request : CompleteMultipartRequest} {uploadID : Text}

/-- What `statS3ObjectTx` found: no file, or the file at the path. -/
lemma statS3ObjectTx_ok (tree : SoundTree s.dir) {path : Text} (abs : isAbs path)
    {info : Option S3ObjectInfo} (run : s.statS3ObjectTx env path = .ok info) :
    (info = none ∧ ∀ e, s.dir.find (elements path) = some e → e.fileKind = .dir) ∨
      ∃ found e, info = some found ∧ s.dir.find (elements path) = some e ∧ e.fileKind = .file ∧
        found.link.entryID = e.entryID ∧ e.refData = some found.link.fileID := by
  simp only [statS3ObjectTx, bind_ok] at run
  obtain ⟨entry, looked, rest⟩ := run
  have here := txStat_ok tree.valid abs looked
  cases entry with
  | none =>
    obtain rfl := pure_ok.mp rest
    refine .inl ⟨rfl, fun e found => ?_⟩
    rw [← here] at found
    cases found
  | some e =>
    by_cases dir : e.fileKind = .dir
    · simp only [dir, if_true, pure_ok] at rest
      refine .inl ⟨rest.symm, fun x found => ?_⟩
      rw [← here] at found
      rw [← Option.some.inj found, dir]
    · simp only [dir, if_false, directoryEntryToLink, bind_ok, pure_ok] at rest
      obtain ⟨link, linked, rfl⟩ := rest
      have kind : e.fileKind = .file := by
        cases h : e.fileKind with
        | file => rfl
        | dir => exact absurd h dir
      cases holds : e.refData with
      | none =>
        rw [holds] at linked
        cases linked
      | some fileID =>
        rw [holds] at linked
        obtain rfl := Except.ok.inj linked
        exact .inr ⟨_, e, rfl, here.symm, kind, rfl, holds⟩

/-- A file has nothing below it. -/
lemma eq_of_below_file (valid : d.Valid) {cs q : List Text} {e x : Entry}
    (found : d.find cs = some e) (file : e.fileKind = .file) (below : cs <+: q)
    (other : d.find q = some x) : x = e := by
  obtain ⟨rest, rfl⟩ := below
  by_cases proper : rest = []
  · rw [proper, List.append_nil, found] at other
    exact (Option.some.inj other).symm
  · rw [valid.isDir_above proper found other] at file
    cases file

/-- Removing the file at a path. -/
structure FileRemoved (d d' : Directory) (cs : List Text) (old : Entry) (removed : List Entry) :
    Prop where
  keeps : Directory.Keeps d d' removed
  shaped : d'.Shaped
  only : ∀ x ∈ removed, x = old
  listed : old ∈ removed
  remaps : ∀ fileID, old.refData = some fileID → Directory.Remaps d d' [] [fileID]

lemma remove_file (tree : SoundTree d) {path : Text} (abs : isAbs path)
    (found : d.find (elements path) = some old) (file : old.fileKind = .file)
    (run : d.remove now path = .ok (d', removed)) :
    FileRemoved d d' (elements path) old removed := by
  obtain ⟨d₁, pruned, -⟩ := tree.valid.remove_pruned abs run
  have only : ∀ x ∈ removed, x = old := fun x member => by
    obtain ⟨q, below, other⟩ := (pruned.removed x).mp member
    exact eq_of_below_file tree.valid found file below other
  refine ⟨tree.valid.remove_keeps abs run, tree.shaped.remove tree.valid abs run, only,
    (pruned.removed old).mpr ⟨_, List.prefix_rfl, found⟩, fun fileID holds => ?_⟩
  have remaps := tree.valid.remove_remaps abs run
  refine ⟨remaps.gained, fun other maps => (remaps.lost other maps).imp_right fun lost => ?_⟩
  obtain ⟨x, member, ref⟩ := List.mem_filterMap.mp lost
  rw [only x member, holds] at ref
  exact List.mem_singleton.mpr (Option.some.inj ref).symm

lemma SoundTree.of_remaps (tree : SoundTree d) (valid : d'.Valid) (shaped : d'.Shaped)
    {gained lost : List Nat} (remaps : Directory.Remaps d d' gained lost) (positive : 0 ∉ gained) :
    SoundTree d' where
  valid := valid
  shaped := shaped
  noZero maps := (remaps.gained 0 maps).elim tree.noZero positive

/-- The mapping of a path after its old file, if any, was removed and a new one created. -/
structure Recreated (d d' : Directory) (cs : List Text) (entry : Entry) (fileID : Nat)
    (removed : List Entry) (lost : List Nat) : Prop where
  keeps : Directory.Keeps d d' removed
  shaped : d'.Shaped
  remaps : Directory.Remaps d d' [fileID] lost
  shown : d'.view cs = some entry.untimed
  file : entry.fileKind = .file
  ref : entry.refData = some fileID

lemma create_recreated (tree : SoundTree d) (path : ObjectPath)
    (run : d.create now path.text size (some fileID) = .ok (d', entry)) :
    Recreated d d' (elements path.text) entry fileID [] [] ∧
      d.find (elements path.text) = none := by
  have notRoot : elements path.text ≠ [] := fun root => path.notRoot (by
    rw [← path.canonical, clean_eq_render path.abs, root, render_nil])
  obtain ⟨grown, absent, kind, ref, -⟩ := tree.valid.create_grown path.abs notRoot run
  obtain ⟨y, shown, -, -, whole⟩ := grown.made _ absent List.prefix_rfl
  refine ⟨⟨grown.keeps, tree.shaped.create tree.valid path.abs notRoot run, ?_, ?_, kind, ref⟩,
    Directory.view_eq_none.mp absent⟩
  · exact grown.remaps fun x other same holds => by
      rw [same, Directory.untimed_refData, ref] at holds
      exact List.mem_singleton.mpr (Option.some.inj holds).symm
  · rw [← whole rfl]
    exact shown

lemma FileRemoved.recreated {d₁ : Directory} (tree : SoundTree d) {path : ObjectPath}
    {oldID : Nat} (gone : FileRemoved d d₁ (elements path.text) old removed)
    (holds : old.refData = some oldID)
    (run : d₁.create now path.text size (some fileID) = .ok (d', entry)) :
    Recreated d d' (elements path.text) entry fileID removed [oldID] := by
  have remaps := gone.remaps oldID holds
  obtain ⟨made, -⟩ := create_recreated
    (tree.of_remaps gone.keeps.valid gone.shaped remaps (by simp)) path run
  have keeps := gone.keeps.trans made.keeps
  rw [List.append_nil] at keeps
  exact ⟨keeps, made.shaped, remaps.trans made.remaps, made.shown, made.file, made.ref⟩

/-! ## PutObject -/

/-- Marking the replaced File, unless it is linked again. -/
lemma markReplacedPending_ok {cs : List Text} {oldID : Nat} (tree : SoundTree s.dir)
    (made : Recreated s.dir d' cs entry fileID removed [oldID]) (mapped : s.dir.Maps oldID)
    (metadata : List S3ObjectMetadata) (properties : List WebDAVProperty) (locks : List WebDAVLock)
    (run : { s with dir := d', metadata, properties, locks }.markReplacedPending oldID fileID now =
      .ok s') :
    ∃ lost hit, RefEffect now s s' [fileID] lost hit ∧ s'.dir = d' ∧ s'.locks = locks ∧
      s'.metadata = metadata ∧ s'.properties = properties := by
  have notZero : oldID ≠ 0 := fun zero => tree.noZero (zero ▸ mapped)
  by_cases again : oldID = fileID
  · rw [markReplacedPending, if_neg (by simp [again])] at run
    obtain rfl := Except.ok.inj run
    have still : d'.Maps oldID := ⟨cs, _, made.shown, by rw [again]; exact made.ref⟩
    exact ⟨[], [], (RefEffect.of_dir made.keeps.valid made.shaped
      (made.remaps.still_mapped still)).update _ _ _ _, rfl, rfl, rfl, rfl⟩
  · rw [markReplacedPending, if_pos ⟨notZero, again⟩] at run
    obtain ⟨hit, rfl, handed⟩ := markFileTreePendingIfUnreferenced_ok run
    exact ⟨[oldID], hit, (RefEffect.of_marked made.keeps.valid made.shaped made.remaps
      (handed.update s.metadata s.properties s.locks s.jobs)).update _ _ _ _, rfl, rfl, rfl, rfl⟩

/-- The attached rows that publishing an object leaves: it has new metadata, and the properties
and locks of a replaced entry go to the new one. -/
inductive Rebinds (s s' : Store) (path : Text) (entry : Entry) : List Entry → Prop
  | fresh (missing : s.dir.find (elements path) = none) (locks : s'.locks = s.locks)
      (properties : s'.properties = s.properties)
      (metadata : ∃ row, row.entryID = entry.entryID ∧ s'.metadata = s.metadata ++ [row]) :
      Rebinds s s' path entry []
  | replaced {old : Entry} {removed : List Entry} (found : s.dir.find (elements path) = some old)
      (file : old.fileKind = .file) (only : ∀ x ∈ removed, x = old)
      (locks : Sqlite.updateRows WebDAVLock.clash (fun row => row.rootEntryID = old.entryID)
        (fun row => { row with rootEntryID := entry.entryID, rootPath := clean path })
        [] s.locks = .ok s'.locks)
      (properties : Sqlite.updateRows WebDAVProperty.clash (fun row => row.entryID = old.entryID)
        (fun row => { row with entryID := entry.entryID }) [] s.properties = .ok s'.properties)
      (metadata : ∃ row, row.entryID = entry.entryID ∧
        s'.metadata = (s.deleteS3Metadata old.entryID).metadata ++ [row]) :
      Rebinds s s' path entry removed

/-- What publishing an object does to the references. -/
lemma publishS3ObjectTx_effect (tree : SoundTree s.dir) (path : ObjectPath)
    {metadata : S3ObjectMetadata} {condition : Option S3Condition}
    (run : s.publishS3ObjectTx env now path.text fileID size metadata condition =
      .ok (s', entry)) :
    ∃ removed lost hit, Directory.Keeps s.dir s'.dir removed ∧
      RefEffect now s s' [fileID] lost hit ∧ s.ensureFileTreeCanBeLinked fileID = .ok () ∧
      s'.dir.view (elements path.text) = some entry.untimed ∧ entry.fileKind = .file ∧
      Rebinds s s' path.text entry removed := by
  simp only [publishS3ObjectTx, bind_ok, pure_ok] at run
  obtain ⟨current, looked, _, -, _, linkable, ⟨s₁, replacedID⟩, removedRun, ⟨d', e⟩, made, s₂,
    rebound, s₃, inserted, s₄, marked, result⟩ := run
  obtain ⟨rfl, rfl⟩ := Prod.mk.inj result
  obtain ⟨-, rfl⟩ := insertS3Metadata_ok inserted
  rcases statS3ObjectTx_ok tree path.abs looked with
    ⟨rfl, -⟩ | ⟨info, old, rfl, found, file, id, holds⟩
  · obtain ⟨rfl, rfl⟩ := Prod.mk.inj (Except.ok.inj removedRun)
    obtain rfl := Except.ok.inj rebound
    rw [markReplacedPending, if_neg (by simp)] at marked
    obtain rfl := Except.ok.inj marked
    obtain ⟨recreated, missing⟩ := create_recreated tree path made
    exact ⟨[], [], [], recreated.keeps, (RefEffect.of_dir recreated.keeps.valid recreated.shaped
      recreated.remaps).update _ _ _ _, linkable, recreated.shown, recreated.file,
      .fresh missing rfl rfl ⟨_, rfl, rfl⟩⟩
  · simp only [removeReplacedS3Object, bind_ok, pure_ok] at removedRun
    obtain ⟨⟨d₁, removed⟩, cut, result⟩ := removedRun
    obtain ⟨rfl, rfl⟩ := Prod.mk.inj result
    have gone := remove_file tree path.abs found file cut
    have recreated := gone.recreated tree holds made
    simp only [rebindReplaced, rebindWebDAVProtocolState, bind_ok, pure_ok] at rebound
    obtain ⟨properties, carried, locks, moved, rfl⟩ := rebound
    have mapped : s.dir.Maps info.link.fileID :=
      ⟨_, _, Directory.view_eq_some.mpr ⟨old, found, rfl⟩, holds⟩
    obtain ⟨lost, hit, effect, rfl, rfl, metadata, rfl⟩ :=
      markReplacedPending_ok tree recreated mapped _ _ _ marked
    rw [id] at moved carried metadata
    exact ⟨removed, lost, hit, recreated.keeps, effect, linkable, recreated.shown, recreated.file,
      .replaced found file gone.only moved carried ⟨_, rfl, metadata⟩⟩

/-! ## CopyObject and DeleteObject -/

/-- What a copy onto itself does to the references. -/
lemma copySameS3ObjectTx_effect (tree : SoundTree s.dir) {source : Text} (abs : isAbs source)
    {info : S3ObjectInfo} (run : s.copySameS3ObjectTx now source info metadata = .ok s') :
    Directory.Keeps s.dir s'.dir [] ∧ RefEffect now s s' [] [] [] ∧ s'.locks = s.locks := by
  cases metadata with
  | none =>
    obtain rfl := Except.ok.inj run
    exact ⟨.refl tree.valid, .of_dir tree.valid tree.shaped (.refl s.dir), rfl⟩
  | some metadata =>
    simp only [copySameS3ObjectTx, bind_ok, pure_ok] at run
    obtain ⟨s₁, inserted, d', touched, rfl⟩ := run
    obtain ⟨-, rfl⟩ := insertS3Metadata_ok inserted
    have keeps := tree.valid.touch_keeps abs touched
    exact ⟨keeps, (RefEffect.of_dir keeps.valid (tree.shaped.touch tree.valid abs touched)
      (tree.valid.touch_remaps abs touched)).update _ _ _ _, rfl⟩

lemma mem_ids_of_only (only : ∀ x ∈ removed, x = old) (listed : old ∈ removed) (id : Nat) :
    id ∈ removed.map Entry.entryID ↔ id = old.entryID := by
  constructor
  · rintro member
    obtain ⟨x, inside, rfl⟩ := List.mem_map.mp member
    rw [only x inside]
  · rintro rfl
    exact List.mem_map_of_mem listed

lemma locksWithout_of_only (only : ∀ x ∈ removed, x = old) (listed : old ∈ removed) :
    s.locksWithout removed = s.locksWithout [old] := by
  have same : ∀ id, id ∈ removed.map Entry.entryID ↔ id ∈ [old].map Entry.entryID := fun id => by
    rw [mem_ids_of_only only listed]
    simp
  simp only [locksWithout, same]

/-- What a copy to another key does to the references. -/
lemma copyDifferentS3ObjectTx_effect (tree : SoundTree s.dir) (destination : ObjectPath)
    {sourceInfo : S3ObjectInfo} {destinationInfo : Option S3ObjectInfo}
    (looked : s.statS3ObjectTx env destination.text = .ok destinationInfo)
    (run : s.copyDifferentS3ObjectTx now destination.text sourceInfo destinationInfo metadata =
      .ok (s', entry)) :
    ∃ removed lost hit, Directory.Keeps s.dir s'.dir removed ∧
      RefEffect now s s' [sourceInfo.link.fileID] lost hit ∧
      s.ensureFileTreeCanBeLinked sourceInfo.link.fileID = .ok () ∧
      s'.locks = s.locksWithout removed := by
  simp only [copyDifferentS3ObjectTx, bind_ok, pure_ok] at run
  obtain ⟨⟨s₁, replacedID⟩, removedRun, _, linkable, ⟨d', e⟩, made, s₂, inserted, s₃, copied, s₄,
    marked, result⟩ := run
  obtain ⟨rfl, rfl⟩ := Prod.mk.inj result
  obtain ⟨-, rfl⟩ := insertS3Metadata_ok inserted
  obtain ⟨rows, rfl⟩ := copyEntryProperties_ok copied
  rcases statS3ObjectTx_ok tree destination.abs looked with
    ⟨rfl, -⟩ | ⟨info, old, rfl, found, file, id, holds⟩
  · obtain ⟨rfl, rfl⟩ := Prod.mk.inj (Except.ok.inj removedRun)
    rw [markReplacedPending, if_neg (by simp)] at marked
    obtain rfl := Except.ok.inj marked
    obtain ⟨recreated, -⟩ := create_recreated tree destination made
    exact ⟨[], [], [], recreated.keeps, (RefEffect.of_dir recreated.keeps.valid recreated.shaped
      recreated.remaps).update _ _ _ _, linkable, by simp [locksWithout, dropOverwrittenState]⟩
  · simp only [removeReplacedS3Object, bind_ok, pure_ok] at removedRun
    obtain ⟨⟨d₁, removed⟩, cut, result⟩ := removedRun
    obtain ⟨rfl, rfl⟩ := Prod.mk.inj result
    have gone := remove_file tree destination.abs found file cut
    have recreated := gone.recreated tree holds made
    have mapped : s.dir.Maps info.link.fileID :=
      ⟨_, _, Directory.view_eq_some.mpr ⟨old, found, rfl⟩, holds⟩
    obtain ⟨lost, hit, effect, rfl, locks, -⟩ :=
      markReplacedPending_ok tree recreated mapped _ _ _ marked
    refine ⟨removed, lost, hit, recreated.keeps, effect, ?_, ?_⟩
    · exact (ensureFileTreeCanBeLinked_congr (by rfl) (by rfl) (by rfl) (by rfl) _).trans linkable
    · rw [locksWithout_of_only gone.only gone.listed, locks]
      simp only [dropOverwrittenState, deleteWebDAVLocks, locksWithout, id]
      rfl

/-- What a copy does to the references. -/
lemma copyS3Object_effect (tree : SoundTree s.dir) (source destination : ObjectPath)
    {sourceCondition destinationCondition : Option S3Condition}
    (run : s.copyS3Object env now source.text destination.text metadata sourceCondition
      destinationCondition = .ok s') :
    ∃ removed gained lost hit, Directory.Keeps s.dir s'.dir removed ∧
      RefEffect now s s' gained lost hit ∧
      (∀ fileID ∈ gained, s.ensureFileTreeCanBeLinked fileID = .ok ()) ∧
      s'.locks = s.locksWithout removed := by
  simp only [copyS3Object, bind_ok] at run
  obtain ⟨found, looked, rest⟩ := run
  cases found with
  | none => cases rest
  | some sourceInfo =>
    simp only [bind_ok] at rest
    obtain ⟨_, -, destinationInfo, lookedDestination, _, -, rest⟩ := rest
    split_ifs at rest with same
    · obtain ⟨keeps, effect, locks⟩ := copySameS3ObjectTx_effect tree source.abs rest
      exact ⟨[], [], [], [], keeps, effect, by simp, by simp [locksWithout, locks]⟩
    · simp only [bind_ok, pure_ok] at rest
      obtain ⟨⟨s₁, e⟩, copied, rfl⟩ := rest
      obtain ⟨removed, lost, hit, keeps, effect, linkable, locks⟩ :=
        copyDifferentS3ObjectTx_effect tree destination lookedDestination copied
      refine ⟨removed, _, lost, hit, keeps, effect, fun fileID member => ?_, locks⟩
      rw [List.mem_singleton.mp member]
      exact linkable

/-- What a deletion does to the references. -/
lemma deleteS3Object_effect (tree : SoundTree s.dir) (path : ObjectPath)
    {condition : Option S3Condition} {deleted : Bool}
    (run : s.deleteS3Object env now path.text condition = .ok (s', deleted)) :
    ∃ removed lost hit, Directory.Keeps s.dir s'.dir removed ∧ RefEffect now s s' [] lost hit ∧
      s'.locks = s.locksWithout removed := by
  simp only [deleteS3Object, bind_ok] at run
  obtain ⟨current, looked, _, -, rest⟩ := run
  rcases statS3ObjectTx_ok tree path.abs looked with
    ⟨rfl, -⟩ | ⟨info, old, rfl, found, file, id, holds⟩
  · obtain ⟨rfl, -⟩ := Prod.mk.inj (pure_ok.mp rest)
    exact ⟨[], [], [], .refl tree.valid, .of_dir tree.valid tree.shaped (.refl s.dir),
      by simp [locksWithout]⟩
  · simp only [bind_ok, pure_ok] at rest
    obtain ⟨⟨d', removed⟩, cut, s₁, marked, result⟩ := rest
    obtain ⟨rfl, -⟩ := Prod.mk.inj result
    have gone := remove_file tree path.abs found file cut
    obtain ⟨hit, rfl, handed⟩ := markFileTreePendingIfUnreferenced_ok marked
    refine ⟨removed, _, hit, gone.keeps, (RefEffect.of_marked gone.keeps.valid gone.shaped
      (gone.remaps _ holds) (handed.update s.metadata s.properties s.locks s.jobs)).update _ _ _ _,
        ?_⟩
    rw [locksWithout_of_only gone.only gone.listed]
    change s.locks.filter _ = _
    rw [id]
    rfl

/-! ## CompleteMultipartUpload -/

/-- The segments of a File from an index on, one for each source. -/
def segmentRows (fileID : Nat) (now : Int) (index : Nat) (sources : List (Nat × Int)) :
    List Segment :=
  (sources.zipIdx index).map fun row => ⟨fileID, row.2, row.1.1, row.1.2, now, now⟩

lemma insertSegments_ok {index : Nat} {sources : List (Nat × Int)}
    (run : insertSegments fileID now index s sources = .ok s') :
    s' = { s with segments := s.segments ++ segmentRows fileID now index sources } := by
  induction sources generalizing index s with
  | nil =>
    obtain rfl := Except.ok.inj run
    simp [segmentRows]
  | cons source sources ih =>
    simp only [insertSegments, bind_ok, Sqlite.insertRow_ok] at run
    obtain ⟨rows, ⟨-, rfl⟩, rest⟩ := run
    rw [ih rest]
    simp [segmentRows]

/-- The completed-part rows of a File from a number on. -/
def completedRows (fileID : Nat) (now : Int) (number : Nat)
    (parts : List (Int × Option (Text × Text))) : List CompletedPart :=
  (parts.zipIdx number).map fun row => ⟨fileID, row.2, row.1.1, row.1.2, now, now⟩

lemma insertCompletedParts_ok {number : Nat} {parts : List (Int × Option (Text × Text))}
    (run : insertCompletedParts fileID now number s parts = .ok s') :
    s' = { s with
      completedParts := s.completedParts ++ completedRows fileID now number parts } := by
  induction parts generalizing number s with
  | nil =>
    obtain rfl := Except.ok.inj run
    simp [completedRows]
  | cons part parts ih =>
    simp only [insertCompletedParts, bind_ok, Sqlite.insertRow_ok] at run
    obtain ⟨rows, ⟨-, rfl⟩, rest⟩ := run
    rw [ih rest]
    simp [completedRows]

/-- The store with the composite File of the selected parts. -/
def withComposite (s : Store) (now : Int) (selected : List MultipartPart)
    (totalSize totalPartCount : Int) (parts : List (Int × Option (Text × Text))) : Store :=
  { s with
    nextFileID := s.nextFileID + 1
    files := s.files ++
      [⟨s.nextFileID, totalSize, totalPartCount, .ready, .composite, now, now⟩]
    segments := s.segments ++
      segmentRows s.nextFileID now 0 (selected.map fun part => (part.fileID, part.partSize))
    completedParts := s.completedParts ++ completedRows s.nextFileID now 1 parts }

/-- The row of a completed upload. -/
def completedUpload (now : Int) (fingerprint : Text) (result : CompleteMultipartResult)
    (row : MultipartUpload) : MultipartUpload :=
  { row with
    state := .completed, fingerprint := fingerprint, resultFileID := result.fileID,
    resultETag := result.etag, resultChecksum := result.checksumValue, completedAt := now,
    cleanupAt := now + multipartDay, mtime := now }

/-- A completion with all that it computes. -/
structure Completion (env : Env) (now : Int) (s s' : Store) (request : CompleteMultipartRequest)
    (upload : MultipartUpload) (fingerprint : Text) (result : CompleteMultipartResult)
    (records : List (MultipartPart × StoredFile)) (totalPartCount : Int)
    (checksums : List (Option (Text × Text))) (published closed : Store) : Prop where
  file : result.fileID = s.nextFileID
  spec : multipartChecksumSpec upload = .ok result.checksum
  loaded : s.loadCompletionParts request.uploadID result.checksum.isNone [] 0 0 request.parts =
    .ok (records, result.size, totalPartCount)
  sized : ∀ size ∈ request.expectedSize, size = result.size
  manifest : (records.map Prod.fst).mapM (manifestChecksum upload) = .ok checksums
  tagged : multipartETag env (records.map Prod.fst) = .ok result.etag
  summed : calculateMultipartChecksum env upload (records.map Prod.fst) = .ok result.checksumValue
  final : validateFinalChecksum env upload request result.checksumValue = .ok ()
  linked : ∃ entry, (s.withComposite now (records.map Prod.fst) result.size totalPartCount
      (((records.map Prod.fst).map MultipartPart.partSize).zip checksums)).publishS3ObjectTx env now
    (objectPath request.bucket request.key) s.nextFileID result.size
    (multipartObjectMetadata upload result.etag result.checksumValue) request.condition =
      .ok (published, entry)
  finalized : published.finalizeMultipartParts request.uploadID (records.map Prod.fst) now =
    .ok closed
  finished : s' = closed.updateUpload request.uploadID (completedUpload now fingerprint result)

lemma completeActiveMultipart_completion {request : CompleteMultipartRequest}
    {upload : MultipartUpload} {fingerprint : Text} {result : CompleteMultipartResult}
    (run : s.completeActiveMultipart env now request upload fingerprint = .ok (s', result)) :
    ∃ records totalPartCount checksums published closed,
      Completion env now s s' request upload fingerprint result records totalPartCount checksums
        published closed := by
  simp only [completeActiveMultipart, bind_ok, pure_ok, require_ok, insertCompositeFile,
    insertFile, insertCompletedPartManifest, Sqlite.insertRow_ok, finishMultipartControl] at run
  obtain ⟨spec, specified, ⟨records, totalSize, totalPartCount⟩, loaded, _, sized, _, -, _, -, s₁,
    ⟨_, ⟨_, ⟨-, rfl⟩, rfl⟩, segmented⟩, s₂, ⟨checksums, summed, recorded⟩, etag, tagged, value,
    valued, _, final, ⟨published, entry⟩, linked, closed, finalized, s₃, ⟨_, -, rfl⟩, done⟩ := run
  obtain ⟨rfl, rfl⟩ := Prod.mk.inj done
  obtain rfl := insertSegments_ok segmented
  obtain rfl := insertCompletedParts_ok recorded
  exact ⟨records, totalPartCount, checksums, published, closed, rfl, specified, loaded, sized,
    summed, tagged, valued, final, ⟨entry, linked⟩, finalized, rfl⟩

/-- An update that selects discarded parts of an upload and nothing else. -/
def Selects (uploadID : Text) (now : Int) (f : MultipartPart → MultipartPart) : Prop :=
  ∀ row, f row = row ∨ (row.uploadID = uploadID ∧ row.state = .discarded ∧
    f row = { row with state := .selected, mtime := now })

lemma Selects.comp {f g : MultipartPart → MultipartPart} (first : Selects uploadID now f)
    (second : Selects uploadID now g) : Selects uploadID now (g ∘ f) := by
  intro row
  rcases first row with same | ⟨upload, discarded, selected⟩
  · rw [Function.comp_apply, same]
    exact second row
  · rcases second (f row) with same | ⟨-, again, -⟩
    · exact .inr ⟨upload, discarded, same.trans selected⟩
    · rw [selected] at again
      cases again

lemma selectPart_ok {part : MultipartPart} (run : selectPart uploadID now s part = .ok s') :
    ∃ f, Selects uploadID now f ∧ s' = { s with uploadParts := s.uploadParts.map f } := by
  simp only [selectPart, bind_ok, pure_ok] at run
  obtain ⟨_, -, rfl⟩ := run
  refine ⟨_, fun row => ?_, rfl⟩
  split_ifs with hit
  · exact .inr ⟨hit.1, hit.2.2.2, rfl⟩
  · exact .inl rfl

lemma foldlM_selectPart_ok {selected : List MultipartPart}
    (run : selected.foldlM (selectPart uploadID now) s = .ok s') :
    ∃ f, Selects uploadID now f ∧ s' = { s with uploadParts := s.uploadParts.map f } := by
  refine foldlM_ok (fun t : Store => ∃ f, Selects uploadID now f ∧
    t = { s with uploadParts := s.uploadParts.map f }) ?_ ⟨id, fun row => .inl rfl, by simp⟩ run
  rintro part - t t' ⟨f, first, rfl⟩ pass
  obtain ⟨g, second, rfl⟩ := selectPart_ok pass
  exact ⟨g ∘ f, first.comp second, by simp⟩

/-- Closing an upload: none of its parts stays active, the others are as before, and the Files of
the parts that were not selected are handed over. -/
structure ClosesParts (now : Int) (s s' : Store) (uploadID : Text) (dropped : List Nat)
    (rows : List MultipartPart) (hit : List Nat) : Prop where
  result : s' = { s with uploadParts := rows }.markRows hit now
  handed : { s with uploadParts := rows }.HandsOver dropped hit
  active : ∀ row, row.state = .active →
    (row ∈ rows ↔ row ∈ s.uploadParts ∧ row.uploadID ≠ uploadID)
  ids : ∃ f : MultipartPart → MultipartPart, rows = s.uploadParts.map f ∧
    ∀ row, (f row).uploadID = row.uploadID ∧ (f row).partNumber = row.partNumber ∧
      (f row).fileID = row.fileID

lemma finalizeMultipartParts_ok {selected : List MultipartPart}
    (run : s.finalizeMultipartParts uploadID selected now = .ok s') :
    ∃ rows hit, ClosesParts now s s' uploadID ((s.listMultipartPartFileIDs uploadID).filter
      fun fileID => fileID ∉ selected.map MultipartPart.fileID) rows hit := by
  simp only [finalizeMultipartParts, bind_ok] at run
  obtain ⟨s₁, loop, marked⟩ := run
  obtain ⟨f, selects, rfl⟩ := foldlM_selectPart_ok loop
  obtain ⟨hit, rfl, handed⟩ := markMappingFilesPending_ok marked
  -- an active row is neither discarded nor selected
  have unchanged : ∀ row : MultipartPart, row.state = .active →
      (row ∈ (s.discardActiveParts uploadID now).uploadParts.map f ↔
        row ∈ s.uploadParts ∧ row.uploadID ≠ uploadID) := by
    intro row active
    simp only [discardActiveParts, List.map_map, List.mem_map, Function.comp_apply]
    constructor
    · rintro ⟨x, member, rfl⟩
      rcases selects (if x.uploadID = uploadID ∧ x.state = .active then
        { x with state := .discarded, mtime := now } else x) with same | ⟨-, -, chosen⟩
      · rw [same] at active ⊢
        split_ifs at active ⊢ with hit
        exact ⟨member, fun own => hit ⟨own, active⟩⟩
      · rw [chosen] at active
        cases active
    · rintro ⟨member, other⟩
      refine ⟨row, member, ?_⟩
      rw [if_neg (fun both => other both.1)]
      exact (selects row).resolve_right fun own => other own.1
  refine ⟨_, hit, rfl, handed, unchanged, _, List.map_map, fun row => ?_⟩
  simp only [Function.comp_apply]
  rcases selects (if row.uploadID = uploadID ∧ row.state = .active then
    { row with state := .discarded, mtime := now } else row) with same | ⟨-, -, chosen⟩
  · rw [same]
    split_ifs <;> exact ⟨rfl, rfl, rfl⟩
  · rw [chosen]
    split_ifs <;> exact ⟨rfl, rfl, rfl⟩

lemma ClosesParts.sameTree {dropped hit : List Nat} {rows : List MultipartPart}
    (closes : ClosesParts now s s' uploadID dropped rows hit) : SameTree s s' := by
  rw [closes.result]
  exact ⟨rfl, rfl, rfl, rfl, rfl, rfl, rfl, rfl, rfl, rfl, rfl⟩

/-- After the object is published, a completion only closes the upload. -/
lemma Completion.sameTree {upload : MultipartUpload} {fingerprint : Text}
    {result : CompleteMultipartResult} {records : List (MultipartPart × StoredFile)}
    {totalPartCount : Int} {checksums : List (Option (Text × Text))} {published closed : Store}
    (completion : Completion env now s s' request upload fingerprint result records totalPartCount
      checksums published closed) : SameTree published s' := by
  obtain ⟨rows, hit, closes⟩ := finalizeMultipartParts_ok completion.finalized
  rw [completion.finished]
  exact closes.sameTree.trans (updateUpload_sameTree _ _ _)

/-- The upload while it is being completed. -/
def claimed (s : Store) (uploadID : Text) (now : Int) : Store :=
  s.updateUpload uploadID fun row => { row with state := .completing, mtime := now }

/-- A request that is repeated, comes too late, or completes the upload. -/
lemma completeMultipartUpload_cases {request : CompleteMultipartRequest}
    {result : Option CompleteMultipartResult}
    (run : s.completeMultipartUpload env now request = .ok (s', result)) :
    ∃ upload, s.matchedUpload request.uploadID request.bucket request.key = .ok upload ∧
      validateCompleteMultipartRequest request = .ok () ∧
      ((∃ answer, upload.state = .completed ∧ s' = s ∧ result = some answer ∧
          s.readCompletedMultipartResult env upload request
            (multipartCompletionFingerprint env request.parts) = .ok answer) ∨
        (result = none ∧ Expires now s s' request.uploadID) ∨
        ∃ answer records totalPartCount checksums published closed, upload.state = .active ∧
          result = some answer ∧ validateCompleteChecksumRequest env upload request = .ok () ∧
          Completion env now (s.claimed request.uploadID now) s' request upload
            (multipartCompletionFingerprint env request.parts) answer records totalPartCount
            checksums published closed) := by
  simp only [completeMultipartUpload, bind_ok] at run
  obtain ⟨_, valid, upload, matched, rest⟩ := run
  obtain ⟨-, member, same⟩ := matchedUpload_ok matched
  refine ⟨upload, matched, valid, ?_⟩
  cases state : upload.state with
  | completed =>
    simp only [state, bind_ok, pure_ok] at rest
    obtain ⟨answer, read, done⟩ := rest
    obtain ⟨rfl, rfl⟩ := Prod.mk.inj done
    exact .inl ⟨answer, rfl, rfl, rfl, read⟩
  | active =>
    simp only [state] at rest
    split_ifs at rest with late
    · simp only [bind_ok, pure_ok] at rest
      obtain ⟨s₁, abort, done⟩ := rest
      obtain ⟨rfl, rfl⟩ := Prod.mk.inj done
      exact .inr (.inl ⟨rfl, upload, member, same, state, late, abort⟩)
    · simp only [bind_ok, pure_ok, claimMultipartCompletion] at rest
      obtain ⟨_, checked, s₁, ⟨_, -, rfl⟩, ⟨s₂, answer⟩, completed, done⟩ := rest
      obtain ⟨rfl, rfl⟩ := Prod.mk.inj done
      obtain ⟨records, count, checksums, published, closed, completion⟩ :=
        completeActiveMultipart_completion completed
      exact .inr (.inr ⟨answer, records, count, checksums, published, closed, rfl, rfl, checked,
        completion⟩)
  | completing =>
    rw [state] at rest
    cases rest
  | aborted =>
    rw [state] at rest
    cases rest

end TgFile.Store
