import TgFile.Directory.Effects
import TgFile.Store.Marking
import TgFile.System.Requests

/-! # What requests do to entries and locks

For every transaction that touches the directory or the lock table: which entries it removes, and
the lock table it leaves. -/

namespace TgFile.Store

open Go Go.Path Result WebDAV

variable {s s' : Store} {now size : Int} {d' d : Directory} {removed : List Entry}
  {gained hit lost : List Nat} {options : MutationOptions} {path : Text} {fileID : Nat}
  {entry e : Entry} {created : Bool} {request : LockRequest} {lock : WebDAVLock}

/-! ## Looking up paths -/

/-- The outcome of `Stat` inside a transaction. -/
lemma txStat_ok (valid : d.Valid) {p : Text} (abs : isAbs p) {found : Option Entry}
    (run : d.txStat p = .ok found) : found = d.find (elements p) := by
  have located := valid.txGetEntryInfo_located abs
  unfold Directory.txStat at run
  split at run
  · rename_i lookup
    obtain rfl := Except.ok.inj run
    rw [lookup] at located
    generalize elements p = es at located
    cases located with
    | missing none clear => rw [Directory.find_snoc, none]; rfl
  · cases run
  · rename_i entry parentID lookup
    obtain rfl := Except.ok.inj run
    exact (valid.txGetEntryInfo_ok abs lookup).1

lemma statExisting_ok (valid : s.dir.Valid) {p : Text} (abs : isAbs p)
    (run : s.statExisting p = .ok e) : s.dir.find (elements p) = some e := by
  simp only [statExisting, bind_ok] at run
  obtain ⟨found, looked, result⟩ := run
  cases found with
  | none => cases result
  | some entry => rw [← txStat_ok valid abs looked, pure_ok.mp result]

/-- A path whose parent exists but which does not exist itself is not the root. -/
lemma notRoot_of_parent (valid : s.dir.Valid) (path : Resource)
    (parent : s.ensureWebDAVParentTx path.text = .ok ())
    (missing : s.dir.find (elements path.text) = none) : elements path.text ≠ [] := by
  intro root
  have text : path.text = ['/'] := by
    rw [← path.canonical, clean_eq_render path.abs, root, render_nil]
  rw [text] at parent missing
  simp only [ensureWebDAVParentTx, bind_ok] at parent
  obtain ⟨found, looked, result⟩ := parent
  have same := txStat_ok valid (by decide) looked
  have atRoot : elements (Path.dir (clean ['/'])) = elements ['/'] := by decide
  rw [atRoot, missing] at same
  rw [same] at result
  cases result

/-- `Mkdir` of the root fails where there is none. -/
lemma mkdir_notRoot (path : Resource) (missing : d.find (elements path.text) = none)
    (run : d.mkdir now path.text = .ok (d', e)) : elements path.text ≠ [] := by
  intro root
  have text : path.text = ['/'] := by
    rw [← path.canonical, clean_eq_render path.abs, root, render_nil]
  rw [root] at missing
  have rootRow : d.find [] = d.txSearchEntry 0 ['/'] := Tree.Schema.find_nil
  have noRoot : d.txSearchEntry 0 ['/'] = none := rootRow.symm.trans missing
  have split : Directory.splitFilename (trimSlash ['/']) = (['.'], ['.'], false) := by decide
  have items : Directory.rebuildDirItems ['.'] = .ok [['/']] := by decide
  have stop : Directory.selectItems now false [] 0 d [['/']] = .error .notExist := by
    simp only [Directory.selectItems, Directory.txSelectDirComponent, noRoot]
    rfl
  have failed : d.txOnSelectDir now ['.'] false = .error .notExist := by
    rw [Directory.txOnSelectDir, items, ← stop]
    rfl
  simp only [text, Directory.mkdir, split, Directory.selectParent, failed] at run
  cases run

/-! ## Removing entries -/

lemma collectFileID_ok {start result : List Nat} (run : collectFileID start e = .ok result) :
    start ⊆ result ∧ ∀ fileID, e.fileKind = .file → e.refData = some fileID → fileID ∈ result := by
  unfold collectFileID at run
  cases kind : e.fileKind with
  | dir =>
    rw [if_pos kind] at run
    obtain rfl := Except.ok.inj run
    exact ⟨List.Subset.refl _, fun _ file => nomatch file⟩
  | file =>
    rw [if_neg (by simp [kind])] at run
    cases holds : e.refData with
    | none =>
      rw [holds] at run
      cases run
    | some own =>
      rw [holds] at run
      obtain rfl := Except.ok.inj run
      refine ⟨?_, fun fileID _ same => ?_⟩
      · split_ifs
        · exact List.Subset.refl _
        · exact List.subset_append_left _ _
      · obtain rfl := Option.some.inj same
        split_ifs with present
        · exact present
        · exact List.mem_append_right _ List.mem_cons_self

lemma mem_mappingEntryFileIDs {entries : List Entry} {start fileIDs : List Nat}
    (run : entries.foldlM collectFileID start = .ok fileIDs) :
    start ⊆ fileIDs ∧ ∀ e ∈ entries, ∀ fileID, e.fileKind = .file → e.refData = some fileID →
      fileID ∈ fileIDs := by
  induction entries generalizing start with
  | nil =>
    obtain rfl := pure_ok.mp run
    exact ⟨List.Subset.refl _, fun e member => nomatch member⟩
  | cons first rest ih =>
    rw [List.foldlM_cons, bind_ok] at run
    obtain ⟨middle, here, later⟩ := run
    obtain ⟨grows, holdsFirst⟩ := collectFileID_ok here
    obtain ⟨growsLater, holdsRest⟩ := ih later
    refine ⟨List.Subset.trans grows growsLater, fun e member fileID file holds => ?_⟩
    rcases List.mem_cons.mp member with rfl | inRest
    · exact growsLater (holdsFirst fileID file holds)
    · exact holdsRest e inRest fileID file holds

/-- The rows that belong to removed entries go, and their Files are handed over. -/
lemma finalizeRemovedWebDAVEntries_ok (run : s.finalizeRemovedWebDAVEntries removed now = .ok s') :
    ∃ fileIDs hit, mappingEntryFileIDs removed = .ok fileIDs ∧ s'.HandsOver fileIDs hit ∧
      s' = { s with
        metadata := s.metadata.filter fun row => row.entryID ∉ removed.map Entry.entryID
        properties := s.properties.filter fun row => row.entryID ∉ removed.map Entry.entryID
        locks := s.locks.filter fun row => row.rootEntryID ∉ removed.map Entry.entryID
        deleteStates := s.deleteStates.map (markRow now hit) } := by
  simp only [finalizeRemovedWebDAVEntries, bind_ok] at run
  obtain ⟨fileIDs, collected, marked⟩ := run
  obtain ⟨hit, rfl, handed⟩ := markMappingFilesPending_ok marked
  exact ⟨fileIDs, hit, collected, ⟨handed.unreferenced, fun f member free =>
    ⟨(handed.reached f member free).own, (handed.reached f member free).sources⟩⟩, rfl⟩

/-! ## Effects -/

/-- The directory is a tree of files that map a File and directories that do not; 0 is no File. -/
structure SoundTree (d : Directory) : Prop where
  valid : d.Valid
  shaped : d.Shaped
  noZero : ¬d.Maps 0

/-- The tables that transactions on the directory leave alone. -/
structure SameFiles (s s' : Store) : Prop where
  files : s'.files = s.files
  parts : s'.parts = s.parts
  segments : s'.segments = s.segments
  completedParts : s'.completedParts = s.completedParts
  uploads : s'.uploads = s.uploads
  uploadParts : s'.uploadParts = s.uploadParts
  pins : s'.pins = s.pins
  jobFiles : s'.jobFiles = s.jobFiles
  nextFileID : s'.nextFileID = s.nextFileID

/-- What a transaction does to the Files: those that become mapped, those that may cease to be,
and those it hands over to the worker. -/
structure RefEffect (now : Int) (s s' : Store) (gained lost hit : List Nat) : Prop where
  valid : s'.dir.Valid
  shaped : s'.dir.Shaped
  remaps : Directory.Remaps s.dir s'.dir gained lost
  handed : s'.HandsOver lost hit
  deleteStates : s'.deleteStates = s.deleteStates.map (markRow now hit)
  same : SameFiles s s'

lemma map_markRow_nil (rows : List DeleteState) : rows.map (markRow now []) = rows := by
  have unchanged : markRow now [] = id := by
    funext row
    simp [markRow]
  rw [unchanged, List.map_id]

/-- A transaction that changes the directory and hands nothing over. -/
lemma RefEffect.of_dir (valid : d'.Valid) (shaped : d'.Shaped)
    (remaps : Directory.Remaps s.dir d' gained []) :
    RefEffect now s { s with dir := d' } gained [] [] where
  valid := valid
  shaped := shaped
  remaps := remaps
  handed := .nil _
  deleteStates := (map_markRow_nil _).symm
  same := ⟨rfl, rfl, rfl, rfl, rfl, rfl, rfl, rfl, rfl⟩

lemma HandsOver.update (handed : s.HandsOver lost hit) (metadata : List S3ObjectMetadata)
    (properties : List WebDAVProperty) (locks : List WebDAVLock) (jobs : List BackupJob) :
    { s with metadata, properties, locks, jobs }.HandsOver lost hit :=
  ⟨handed.unreferenced, fun fileID member free =>
    ⟨(handed.reached fileID member free).own, (handed.reached fileID member free).sources⟩⟩

/-- The effect does not look at the rows that are attached to entries. -/
lemma RefEffect.update (effect : RefEffect now s s' gained lost hit)
    (metadata : List S3ObjectMetadata) (properties : List WebDAVProperty) (locks : List WebDAVLock)
    (jobs : List BackupJob) :
    RefEffect now s { s' with metadata, properties, locks, jobs } gained lost hit where
  valid := effect.valid
  shaped := effect.shaped
  remaps := effect.remaps
  handed := effect.handed.update metadata properties locks jobs
  deleteStates := effect.deleteStates
  same := ⟨effect.same.files, effect.same.parts, effect.same.segments, effect.same.completedParts,
    effect.same.uploads, effect.same.uploadParts, effect.same.pins, effect.same.jobFiles,
    effect.same.nextFileID⟩

/-- A transaction that changes the directory and then hands Files over. -/
lemma RefEffect.of_marked (valid : d'.Valid) (shaped : d'.Shaped)
    (remaps : Directory.Remaps s.dir d' gained lost)
    (handed : { s with dir := d' }.HandsOver lost hit) :
    RefEffect now s ({ s with dir := d' }.markRows hit now) gained lost hit where
  valid := valid
  shaped := shaped
  remaps := remaps
  handed := ⟨handed.unreferenced, fun fileID member free =>
    ⟨(handed.reached fileID member free).own, (handed.reached fileID member free).sources⟩⟩
  deleteStates := rfl
  same := ⟨rfl, rfl, rfl, rfl, rfl, rfl, rfl, rfl, rfl⟩

lemma insertS3Metadata_ok {metadata : S3ObjectMetadata}
    (run : s.insertS3Metadata metadata = .ok s') :
    (∀ row ∈ s.metadata, row.entryID ≠ metadata.entryID) ∧
      s' = { s with metadata := s.metadata ++ [metadata] } := by
  simp only [insertS3Metadata, bind_ok, Sqlite.insertRow_ok, pure_ok] at run
  obtain ⟨rows, ⟨free, rfl⟩, rfl⟩ := run
  refine ⟨fun row member same => ?_, rfl⟩
  simpa [S3ObjectMetadata.clash, same] using free row member

/-! ## MKCOL and PUT -/

/-- What MKCOL does to the references. -/
lemma createWebDAVCollection_effect (tree : SoundTree s.dir) (path : Resource)
    (run : s.createWebDAVCollection now path.text options = .ok s') :
    Directory.Keeps s.dir s'.dir [] ∧ RefEffect now s s' [] [] [] ∧ s'.locks = s.locks := by
  simp only [createWebDAVCollection, bind_ok, require_ok, pure_ok] at run
  obtain ⟨_, -, entry, looked, -, rfl, ⟨d', e⟩, made, rfl⟩ := run
  have missing := txStat_ok tree.valid path.abs looked
  have notRoot : elements path.text ≠ [] := mkdir_notRoot path missing.symm made
  obtain ⟨grown, -, plain, -⟩ := tree.valid.mkdir_grown path.abs notRoot made
  have remaps : Directory.Remaps s.dir d' [] [] := grown.remaps fun x fileID same holds => by
    rw [same, Directory.untimed_refData, plain.noRef] at holds
    cases holds
  exact ⟨grown.keeps, .of_dir grown.valid (tree.shaped.mkdir tree.valid path.abs notRoot made)
    remaps, rfl⟩

lemma replaceWebDAVMappingTx_effect (tree : SoundTree s.dir) (abs : isAbs path)
    (run : s.replaceWebDAVMappingTx now path fileID size = .ok (s', entry)) :
    ∃ lost hit, Directory.Keeps s.dir s'.dir [] ∧ RefEffect now s s' [fileID] lost hit ∧
      s'.locks = s.locks ∧ s'.dir.find (elements path) = some entry := by
  simp only [replaceWebDAVMappingTx, bind_ok, pure_ok] at run
  obtain ⟨⟨d', previous⟩, replaced, e, looked, oldFileIDs, collected, s₁, marked, result⟩ := run
  obtain ⟨rfl, rfl⟩ := Prod.mk.inj result
  obtain ⟨valid', found, kind, view, -, -⟩ := tree.valid.replace_spec abs replaced
  have keeps := tree.valid.replace_keeps abs replaced
  have shaped' := tree.shaped.replace tree.valid abs replaced
  have remaps := tree.valid.replace_remaps abs replaced
  have atPath : d'.find (elements path) = some e := statExisting_ok valid' abs looked
  obtain ⟨old, holds⟩ : ∃ old, previous.refData = some old := by
    have shape := tree.shaped (elements path) _ (Directory.view_eq_some.mpr ⟨previous, found, rfl⟩)
    rw [Directory.untimed_fileKind, Directory.untimed_refData, kind] at shape
    refine Option.ne_none_iff_exists'.mp fun none => ?_
    cases shape.mpr none
  obtain rfl : oldFileIDs = [old] := by
    simp only [mappingEntryFileIDs, List.foldlM_cons, List.foldlM_nil, collectFileID, kind, holds,
      bind_ok, pure_ok] at collected
    obtain ⟨_, first, rfl⟩ := collected
    exact (Except.ok.inj first).symm
  rw [holds] at remaps
  by_cases again : old = fileID
  · rw [markReplacedMapping, if_neg (by simp [again])] at marked
    obtain rfl := Except.ok.inj marked
    have still : d'.Maps old := ⟨elements path, _, by rw [view, if_pos rfl], by simp [again]⟩
    exact ⟨[], [], keeps, (RefEffect.of_dir valid' shaped' (remaps.still_mapped still)).update _ _
      _ _, rfl, atPath⟩
  · rw [markReplacedMapping, if_pos (by simp [again])] at marked
    obtain ⟨hit, rfl, handed⟩ := markMappingFilesPending_ok marked
    refine ⟨[old], hit, keeps, ?_, rfl, atPath⟩
    exact (RefEffect.of_marked valid' shaped' remaps
      (handed.update s.metadata s.properties s.locks s.jobs)).update _ _ _ _

lemma webDAVEntryToLink_entryID {link : Link} (run : webDAVEntryToLink path entry = .ok link) :
    link.entryID = entry.entryID := by
  simp only [webDAVEntryToLink, bind_ok, pure_ok] at run
  obtain ⟨_, -, rfl⟩ := run
  rfl

/-- Storing the mapping only drops metadata. -/
lemma storeWebDAVMappingTx_rows {exist : Bool}
    (run : s.storeWebDAVMappingTx now path fileID size exist = .ok (s', entry, created)) :
    (∀ row ∈ s'.metadata, row ∈ s.metadata) ∧ s'.properties = s.properties := by
  cases exist with
  | true =>
    simp only [storeWebDAVMappingTx, if_true, replaceWebDAVMappingTx, bind_ok, pure_ok] at run
    obtain ⟨_, ⟨_, -, _, -, _, -, s₁, marked, rfl⟩, result⟩ := run
    obtain ⟨rfl, -⟩ := Prod.mk.inj result
    unfold markReplacedMapping at marked
    split_ifs at marked
    · obtain ⟨hit, rfl, -⟩ := markMappingFilesPending_ok marked
      exact ⟨fun row member => List.mem_of_mem_filter member, rfl⟩
    · obtain rfl := Except.ok.inj marked
      exact ⟨fun row member => List.mem_of_mem_filter member, rfl⟩
  | false =>
    simp only [storeWebDAVMappingTx, Bool.false_eq_true, if_false, bind_ok, pure_ok] at run
    obtain ⟨_, -, _, -, result⟩ := run
    obtain ⟨rfl, -⟩ := Prod.mk.inj result
    exact ⟨fun _ member => member, rfl⟩

/-- What PUT does to the references. -/
lemma publishWebDAVFile_effect {env : Env} (tree : SoundTree s.dir) (path : Resource)
    (run : s.publishWebDAVFile env now path.text fileID size options = .ok (s', created)) :
    ∃ lost hit e, Directory.Keeps s.dir s'.dir [] ∧ RefEffect now s s' [fileID] lost hit ∧
      s.ensureFileTreeCanBeLinked fileID = .ok () ∧
      s'.dir.view (elements path.text) = some e ∧ e.fileKind = .file ∧
      s'.locks = (s.publishLockNull e.entryID path.text).locks ∧
      (∀ row ∈ s'.metadata, row ∈ s.metadata ∨ row.entryID = e.entryID) ∧
      s'.properties = s.properties := by
  simp only [publishWebDAVFile, prepareWebDAVPublishTx, bind_ok, pure_ok, require_ok] at run
  obtain ⟨_, ⟨current, looked, _, -, _, allFiles, _, -, _, -, _, -, _, linkable, rfl⟩,
    ⟨s₁, entry, isNew⟩, stored, link, linked, s₂, inserted, result⟩ := run
  obtain ⟨rfl, rfl⟩ := Prod.mk.inj result
  obtain ⟨-, rfl⟩ := insertS3Metadata_ok inserted
  obtain ⟨fewer, properties⟩ := storeWebDAVMappingTx_rows stored
  have metadata : ∀ row ∈ s₁.metadata ++ [webDAVS3Metadata env link now],
      row ∈ s.metadata ∨ row.entryID = entry.entryID := by
    intro row member
    rcases List.mem_append.mp member with old | new
    · exact .inl (fewer row old)
    · rw [List.mem_singleton.mp new]
      exact .inr (webDAVEntryToLink_entryID linked)
  rw [path.canonical]
  have here := txStat_ok tree.valid path.abs looked
  cases current with
  | some old =>
    simp only [storeWebDAVMappingTx, Option.isSome_some, if_true, bind_ok, pure_ok] at stored
    obtain ⟨⟨s₃, e⟩, replaced, result⟩ := stored
    obtain ⟨rfl, same⟩ := Prod.mk.inj result
    obtain ⟨rfl, -⟩ := Prod.mk.inj same
    obtain ⟨lost, hit, keeps, effect, locks, atPath⟩ :=
      replaceWebDAVMappingTx_effect tree path.abs replaced
    obtain ⟨e', shown, -, kind⟩ := keeps.kept (elements path.text) old.untimed
      (Directory.view_eq_some.mpr ⟨old, here.symm, rfl⟩) (by simp)
    refine ⟨lost, hit, e.untimed, keeps, effect.update _ _ _ _, linkable,
      Directory.view_eq_some.mpr ⟨e, atPath, rfl⟩, ?_, ?_⟩
    · have same : e' = e.untimed := by
        rw [Directory.view, atPath] at shown
        exact (Option.some.inj shown).symm
      rw [← same, kind]
      exact allFiles old rfl
    · refine ⟨?_, metadata, properties⟩
      simp only [publishLockNull, locks, Directory.untimed_entryID]
  | none =>
    simp only [storeWebDAVMappingTx, Option.isSome_none, Bool.false_eq_true, if_false, bind_ok,
      pure_ok] at stored
    obtain ⟨_, parent, ⟨d', e⟩, made, result⟩ := stored
    obtain ⟨rfl, same⟩ := Prod.mk.inj result
    obtain ⟨rfl, -⟩ := Prod.mk.inj same
    have notRoot := notRoot_of_parent tree.valid path parent here.symm
    obtain ⟨grown, absent, kind, ref, -⟩ := tree.valid.create_grown path.abs notRoot made
    obtain ⟨y, shown, -, -, whole⟩ := grown.made _ absent List.prefix_rfl
    have remaps : Directory.Remaps s.dir d' [fileID] [] := grown.remaps fun x other same holds => by
      rw [same, Directory.untimed_refData, ref] at holds
      exact List.mem_singleton.mpr (Option.some.inj holds).symm
    refine ⟨[], [], e.untimed, grown.keeps, (RefEffect.of_dir grown.valid
      (tree.shaped.create tree.valid path.abs notRoot made) remaps).update _ _ _ _, linkable, ?_,
      kind, rfl, metadata, properties⟩
    rw [← whole rfl]
    exact shown

/-! ## DELETE, COPY and PROPPATCH -/

/-- The locks that removed entries leave. -/
def locksWithout (s : Store) (removed : List Entry) : List WebDAVLock :=
  s.locks.filter fun row => row.rootEntryID ∉ removed.map Entry.entryID

/-- The metadata that removed entries leave. -/
def metadataWithout (s : Store) (removed : List Entry) : List S3ObjectMetadata :=
  s.metadata.filter fun row => row.entryID ∉ removed.map Entry.entryID

/-- The properties that removed entries leave. -/
def propertiesWithout (s : Store) (removed : List Entry) : List WebDAVProperty :=
  s.properties.filter fun row => row.entryID ∉ removed.map Entry.entryID

/-- The Files of removed entries are handed over. -/
lemma handsOver_filesOf (shaped : d.Shaped) {fileIDs : List Nat}
    (present : ∀ x ∈ removed, ∃ q, d.find q = some x)
    (collected : mappingEntryFileIDs removed = .ok fileIDs) (handed : s.HandsOver fileIDs hit) :
    s.HandsOver (Directory.filesOf removed) hit where
  unreferenced := handed.unreferenced
  reached fileID member free := by
    obtain ⟨x, inRemoved, holds⟩ := List.mem_filterMap.mp member
    obtain ⟨q, found⟩ := present x inRemoved
    have shape := shaped q x.untimed (Directory.view_eq_some.mpr ⟨x, found, rfl⟩)
    have file : x.fileKind = .file := by
      cases kind : x.fileKind with
      | file => rfl
      | dir =>
        rw [Directory.untimed_fileKind, Directory.untimed_refData, holds] at shape
        cases shape.mp kind
    exact handed.reached fileID
      ((mem_mappingEntryFileIDs collected).2 x inRemoved fileID file holds) free

/-- A change of the directory whose removed entries are finalized. -/
lemma RefEffect.of_finalized (tree : SoundTree s.dir) (valid : d'.Valid) (shaped : d'.Shaped)
    (remaps : Directory.Remaps s.dir d' [] (Directory.filesOf removed))
    (present : ∀ x ∈ removed, ∃ q, s.dir.find q = some x)
    (run : { s with dir := d' }.finalizeRemovedWebDAVEntries removed now = .ok s') :
    ∃ hit, RefEffect now s s' [] (Directory.filesOf removed) hit ∧ s'.dir = d' ∧
      s'.locks = s.locksWithout removed := by
  obtain ⟨fileIDs, hit, collected, handed, rfl⟩ := finalizeRemovedWebDAVEntries_ok run
  have givenUp := handsOver_filesOf tree.shaped present collected handed
  refine ⟨hit, ⟨valid, shaped, remaps, givenUp, rfl, ?_⟩, rfl, rfl⟩
  exact ⟨rfl, rfl, rfl, rfl, rfl, rfl, rfl, rfl, rfl⟩

/-- A removal that is finalized. -/
lemma remove_finalized (tree : SoundTree s.dir) (abs : isAbs path)
    (cut : s.dir.remove now path = .ok (d', removed))
    (run : { s with dir := d' }.finalizeRemovedWebDAVEntries removed now = .ok s') :
    ∃ lost hit, Directory.Keeps s.dir s'.dir removed ∧ RefEffect now s s' [] lost hit ∧
      s'.locks = s.locksWithout removed := by
  obtain ⟨d₁, pruned, same, -⟩ := tree.valid.remove_pruned abs cut
  obtain ⟨hit, effect, rfl, locks⟩ := RefEffect.of_finalized tree same.valid
    (tree.shaped.remove tree.valid abs cut) (tree.valid.remove_remaps abs cut)
    (fun x member => ((pruned.removed x).mp member).imp fun _ found => found.2) run
  exact ⟨_, hit, tree.valid.remove_keeps abs cut, effect, locks⟩

/-- What DELETE does to the references. -/
lemma deleteWebDAVResource_effect (tree : SoundTree s.dir) (path : Resource)
    (run : s.deleteWebDAVResource now path.text options = .ok s') :
    ∃ removed lost hit, Directory.Keeps s.dir s'.dir removed ∧ RefEffect now s s' [] lost hit ∧
      s'.locks = s.locksWithout removed := by
  simp only [deleteWebDAVResource, bind_ok] at run
  obtain ⟨_, -, _, -, _, -, _, -, _, -, ⟨d', removed⟩, cut, finalized⟩ := run
  exact ⟨removed, remove_finalized tree path.abs cut finalized⟩

lemma copyWebDAVMetadata_ok {copies : List (Entry × Entry)}
    (run : s.copyWebDAVMetadata copies = .ok s') : ∃ rows, s' = { s with metadata := rows } := by
  refine foldlM_ok (fun t : Store => ∃ rows, t = { s with metadata := rows }) ?_ ⟨_, rfl⟩ run
  rintro pair - t t' ⟨rows, rfl⟩ pass
  split_ifs at pass
  · exact ⟨rows, (Except.ok.inj pass).symm⟩
  · simp only [copyMappingMetadata, bind_ok, pure_ok] at pass
    obtain ⟨rows', -, rfl⟩ := pass
    exact ⟨rows', rfl⟩

lemma copyEntryProperties_ok {source destination : Nat}
    (run : copyEntryProperties now s source destination = .ok s') :
    ∃ rows, s' = { s with properties := rows } := by
  simp only [copyEntryProperties, bind_ok, pure_ok] at run
  obtain ⟨rows, -, rfl⟩ := run
  exact ⟨rows, rfl⟩

lemma copyWebDAVProperties_ok {copies : List (Entry × Entry)}
    (run : s.copyWebDAVProperties copies now = .ok s') :
    ∃ rows, s' = { s with properties := rows } := by
  refine foldlM_ok (fun t : Store => ∃ rows, t = { s with properties := rows }) ?_ ⟨_, rfl⟩ run
  rintro pair - t t' ⟨rows, rfl⟩ pass
  obtain ⟨rows', rfl⟩ := copyEntryProperties_ok pass
  exact ⟨rows', rfl⟩

section
variable (tree : SoundTree s.dir)
include tree

/-- What COPY does to the references. -/
lemma copyWebDAVResource_effect (source destination : Resource) {overwrite recursive : Bool}
    (run : s.copyWebDAVResource now source.text destination.text overwrite recursive options =
      .ok (s', created)) :
    ∃ removed lost hit, Directory.Keeps s.dir s'.dir removed ∧ RefEffect now s s' [] lost hit ∧
      s'.locks = s.locksWithout removed := by
  simp only [copyWebDAVResource, bind_ok, pure_ok] at run
  obtain ⟨_, -, _, -, _, -, _, -, _, -, ⟨d', copies, overwritten⟩, copied, _, -, s₁, finalized, s₂,
    metadata, s₃, properties, result⟩ := run
  obtain ⟨rfl, -⟩ := Prod.mk.inj result
  have present : ∀ x ∈ overwritten, ∃ q, s.dir.find q = some x := by
    intro x member
    rcases tree.valid.copyDepth_spec source.abs destination.abs copied with
      ⟨-, -, rfl, -⟩ | ⟨-, listed, -⟩
    · cases member
    · exact ((listed x).mp member).imp fun _ found => found.2
  have keeps := tree.valid.copyDepth_keeps source.abs destination.abs copied
  obtain ⟨hit, effect, rfl, locks⟩ := RefEffect.of_finalized tree keeps.valid
    (tree.shaped.copyDepth tree.valid source.abs destination.abs copied)
    (tree.valid.copyDepth_remaps source.abs destination.abs copied) present finalized
  obtain ⟨rows, rfl⟩ := copyWebDAVMetadata_ok metadata
  obtain ⟨rows', rfl⟩ := copyWebDAVProperties_ok properties
  exact ⟨overwritten, _, hit, keeps, effect.update _ _ _ _, locks⟩

/-- What PROPPATCH does to the references. -/
lemma patchWebDAVProperties_effect (path : Resource) {patches : List PropertyPatch}
    (run : s.patchWebDAVProperties now path.text patches options = .ok s') :
    Directory.Keeps s.dir s'.dir [] ∧ RefEffect now s s' [] [] [] ∧ s'.locks = s.locks := by
  simp only [patchWebDAVProperties, bind_ok, pure_ok] at run
  obtain ⟨_, -, _, -, _, -, d', touched, rfl⟩ := run
  have keeps := tree.valid.touch_keeps path.abs touched
  exact ⟨keeps, (RefEffect.of_dir keeps.valid (tree.shaped.touch tree.valid path.abs touched)
    (tree.valid.touch_remaps path.abs touched)).update _ _ _ _, rfl⟩

/-! ## MOVE -/

/-- A lock after a move: selected locks get a new root. -/
def movedLock (source destination : Text) (lock : WebDAVLock) : WebDAVLock :=
  if moveSelectsLock source lock then moveLockRoot source destination lock else lock

/-- What MOVE does to the references. -/
lemma moveWebDAVResource_effect (source destination : Resource) {overwrite : Bool}
    (run : s.moveWebDAVResource now source.text destination.text overwrite options =
      .ok (s', created)) :
    ∃ removed lost hit, s.dir.move now source.text destination.text overwrite =
        .ok (s'.dir, removed) ∧ RefEffect now s s' [] lost hit ∧
      Sqlite.updateRows WebDAVLock.clash (moveSelectsLock source.text)
        (moveLockRoot source.text destination.text) [] (s.locksWithout removed) = .ok s'.locks := by
  simp only [moveWebDAVResource, moveLocks, bind_ok, pure_ok] at run
  obtain ⟨_, -, _, -, _, -, _, -, _, -, _, -, _, -, ⟨d', overwritten⟩, moved, s₁, finalized, s₂,
    ⟨rows, relocated, rfl⟩, result⟩ := run
  obtain ⟨rfl, -⟩ := Prod.mk.inj result
  rw [source.canonical, destination.canonical] at relocated
  have present : ∀ x ∈ overwritten, ∃ q, s.dir.find q = some x := by
    intro x member
    rcases tree.valid.move_spec source.abs destination.abs moved with ⟨-, rfl, -⟩ | ⟨-, listed⟩
    · cases member
    · exact ((listed x).mp member).imp fun _ found => found.2
  have valid' : d'.Valid := by
    rcases tree.valid.move_spec source.abs destination.abs moved with ⟨rfl, -, -⟩ | ⟨after, -⟩
    · exact tree.valid
    · exact after.valid
  obtain ⟨hit, effect, rfl, locks⟩ := RefEffect.of_finalized tree valid'
    (tree.shaped.move tree.valid source.abs destination.abs moved)
    (tree.valid.move_remaps source.abs destination.abs moved) present finalized
  rw [locks] at relocated
  exact ⟨overwritten, _, hit, moved, effect.update _ _ _ _, relocated⟩

/-! ## LOCK and UNLOCK -/

/-- What a lock request finds: a path without conflicting locks, or no entry. -/
inductive LockTarget (now : Int) (s : Store) (request : LockRequest) (fileID : Nat) :
    Store → Entry → Bool → Prop
  | present {entry : Entry} (found : s.dir.find (elements request.path) = some entry)
      (free : s.assertNoConflictingWebDAVLockTx now request.path request.depth = .ok ()) :
      LockTarget now s request fileID s entry false
  | created {entry : Entry} {d' : Directory} (missing : s.dir.find (elements request.path) = none)
      (notRoot : elements request.path ≠ []) (prepared : fileID ≠ 0)
      (made : s.dir.create now request.path 0 (some fileID) = .ok (d', entry)) :
      LockTarget now s request fileID { s with dir := d' } entry true

lemma ensureWebDAVLockTargetTx_ok (path : Resource) (same : request.path = path.text)
    (run : s.ensureWebDAVLockTargetTx now request fileID = .ok (s', entry, created)) :
    LockTarget now s request fileID s' entry created := by
  have abs : isAbs request.path = true := same ▸ path.abs
  simp only [ensureWebDAVLockTargetTx, bind_ok] at run
  obtain ⟨current, looked, rest⟩ := run
  have here := txStat_ok tree.valid abs looked
  cases current with
  | some e =>
    simp only [bind_ok, pure_ok] at rest
    obtain ⟨_, free, result⟩ := rest
    obtain ⟨rfl, pair⟩ := Prod.mk.inj result
    obtain ⟨rfl, rfl⟩ := Prod.mk.inj pair
    exact .present here.symm free
  | none =>
    simp only [bind_ok, pure_ok, require_ok] at rest
    obtain ⟨_, parent, _, prepared, ⟨d', e⟩, made, result⟩ := rest
    obtain ⟨rfl, pair⟩ := Prod.mk.inj result
    obtain ⟨rfl, rfl⟩ := Prod.mk.inj pair
    have notRoot : elements request.path ≠ [] := by
      rw [same] at parent here ⊢
      exact notRoot_of_parent tree.valid path parent here.symm
    exact .created here.symm notRoot prepared made

lemma lockWebDAVResource_ok {uuid : Text} (path : Resource) (same : request.path = path.text)
    (run : s.lockWebDAVResource now request fileID uuid = .ok (s', lock, created)) :
    ∃ s₁ entry, LockTarget now s request fileID s₁ entry created ∧
      lock = newLock now request uuid entry.entryID created ∧ now < lock.expiresAt ∧
      (∀ other ∈ s₁.locks, lock.clash other = false) ∧
      s' = { s₁ with locks := s₁.locks ++ [lock] } := by
  simp only [lockWebDAVResource, bind_ok, pure_ok, require_ok, Sqlite.insertRow_ok] at run
  obtain ⟨⟨s₁, entry, made⟩, target, _, ⟨-, lasting⟩, rows, ⟨free, rfl⟩, result⟩ := run
  obtain ⟨rfl, pair⟩ := Prod.mk.inj result
  obtain ⟨rfl, rfl⟩ := Prod.mk.inj pair
  exact ⟨s₁, entry, ensureWebDAVLockTargetTx_ok tree path same target, rfl, lasting, free, rfl⟩

/-- What LOCK does to the references. -/
lemma lockWebDAVResource_effect {uuid : Text} (path : Resource) (same : request.path = path.text)
    (run : s.lockWebDAVResource now request fileID uuid = .ok (s', lock, created)) :
    Directory.Keeps s.dir s'.dir [] ∧
      ∃ gained, RefEffect now s s' gained [] [] ∧ ∀ f ∈ gained, f = fileID ∧ f ≠ 0 := by
  obtain ⟨s₁, entry, target, -, -, -, rfl⟩ := lockWebDAVResource_ok tree path same run
  cases target with
  | present found free =>
    exact ⟨.refl tree.valid, [], (RefEffect.of_dir tree.valid tree.shaped (.refl s.dir)).update _ _
      _ _, by simp⟩
  | created missing notRoot prepared made =>
    have abs : isAbs request.path = true := same ▸ path.abs
    obtain ⟨grown, -, -, ref, -⟩ := tree.valid.create_grown abs notRoot made
    have remaps : Directory.Remaps s.dir _ [fileID] [] := grown.remaps fun x f same holds => by
      rw [same, Directory.untimed_refData, ref] at holds
      exact List.mem_singleton.mpr (Option.some.inj holds).symm
    refine ⟨grown.keeps, [fileID], (RefEffect.of_dir grown.valid
      (tree.shaped.create tree.valid abs notRoot made) remaps).update _ _ _ _, fun f member => ?_⟩
    obtain rfl := List.mem_singleton.mp member
    exact ⟨rfl, prepared⟩

end

lemma refreshWebDAVLock_ok {token principal : Text} {timeout : Int} {ifHeader : Option IfHeader}
    (run : s.refreshWebDAVLock now path token principal timeout ifHeader = .ok s') :
    ∃ lock ∈ s.locks, now < lock.expiresAt ∧
      s' = { s with
        locks := s.locks.map fun row =>
          if row.token = lock.token then { row with expiresAt := now + timeout } else row } := by
  unfold refreshWebDAVLock at run
  cases queried : s.queryWebDAVLockByToken now token with
  | none =>
    rw [queried] at run
    cases run
  | some lock =>
    simp only [queried, bind_ok, pure_ok] at run
    obtain ⟨_, -, _, -, _, -, rfl⟩ := run
    have holds := List.find?_some queried
    simp only [decide_eq_true_eq] at holds
    exact ⟨lock, List.mem_of_find?_eq_some queried, holds.2, rfl⟩

/-- What unlocking does: the row of the lock goes, and with it the resource at its root if only
the lock created it. -/
structure Unlocked (now : Int) (s s' : Store) (lock : WebDAVLock)
    (removed : List Entry) : Prop where
  keeps : Directory.Keeps s.dir s'.dir removed
  effect : ∃ lost hit, RefEffect now s s' [] lost hit
  locks : s'.locks = (s.deleteLock lock.token).locksWithout removed
  metadata : s'.metadata = s.metadataWithout removed
  properties : s'.properties = s.propertiesWithout removed
  published : lock.lockNull = false → removed = []
  within : ∀ x ∈ removed, ∃ q, elements lock.rootPath <+: q ∧ s.dir.find q = some x

lemma Unlocked.row_only (tree : SoundTree s.dir) (lock : WebDAVLock) :
    Unlocked now s (s.deleteLock lock.token) lock [] where
  keeps := .refl tree.valid
  effect := ⟨[], [], (RefEffect.of_dir tree.valid tree.shaped (.refl s.dir)).update _ _ _ _⟩
  locks := by simp [locksWithout]
  metadata := by simp [metadataWithout, deleteLock]
  properties := by simp [propertiesWithout, deleteLock]
  published _ := rfl
  within x member := nomatch member

lemma Unlocked.resource (tree : SoundTree s.dir) (abs : isAbs path)
    (rooted : elements path = elements lock.rootPath) (lockNull : lock.lockNull = true)
    (cut : s.dir.remove now path = .ok (d', removed))
    (run : { s.deleteLock lock.token with dir := d' }.finalizeRemovedWebDAVEntries removed now =
      .ok s') : Unlocked now s s' lock removed := by
  have tree' : SoundTree (s.deleteLock lock.token).dir := tree
  obtain ⟨lost, hit, keeps, effect, locks⟩ := remove_finalized tree' abs cut run
  obtain ⟨d₁, pruned, -⟩ := tree.valid.remove_pruned abs cut
  obtain ⟨_, _, -, -, rows⟩ := finalizeRemovedWebDAVEntries_ok run
  refine ⟨keeps, ⟨lost, hit, ⟨effect.valid, effect.shaped, effect.remaps, effect.handed,
    effect.deleteStates, ?_⟩⟩, locks, by rw [rows]; rfl, by rw [rows]; rfl, fun absent => ?_,
    fun x member => ?_⟩
  · exact ⟨effect.same.files, effect.same.parts, effect.same.segments,
      effect.same.completedParts, effect.same.uploads, effect.same.uploadParts, effect.same.pins,
      effect.same.jobFiles, effect.same.nextFileID⟩
  · rw [lockNull] at absent
    cases absent
  · rw [← rooted]
    exact (pruned.removed x).mp member

lemma unlockWebDAVResource_ok (tree : SoundTree s.dir) (path : Resource) {token principal : Text}
    (run : s.unlockWebDAVResource now path.text token principal = .ok s') :
    ∃ lock ∈ s.locks, lock.rootPath = path.text ∧ ∃ removed, Unlocked now s s' lock removed := by
  unfold unlockWebDAVResource at run
  cases queried : s.queryWebDAVLockByToken now token with
  | none =>
    rw [queried] at run
    cases run
  | some lock =>
    simp only [queried, bind_ok, require_ok] at run
    obtain ⟨_, ⟨rooted, -⟩, rest⟩ := run
    rw [path.canonical] at rooted
    have holds := List.find?_some queried
    simp only [decide_eq_true_eq] at holds
    obtain ⟨rfl, -⟩ := holds
    refine ⟨lock, List.mem_of_find?_eq_some queried, rooted, ?_⟩
    by_cases published : lock.lockNull = false
    · rw [if_pos published] at rest
      obtain rfl := pure_ok.mp rest
      exact ⟨[], .row_only tree lock⟩
    · rw [if_neg published] at rest
      simp only [bind_ok] at rest
      obtain ⟨⟨d', removed⟩, cut, finalized⟩ := rest
      exact ⟨removed, .resource tree path.abs (by rw [rooted]) (by simpa using published) cut
        finalized⟩

lemma expireLock_ok (tree : SoundTree s.dir) (abs : isAbs lock.rootPath)
    (run : expireLock now s lock = .ok s') :
    ∃ removed, Unlocked now s s' lock removed ∧
      (removed ≠ [] → ∃ e, s.dir.find (elements lock.rootPath) = some e ∧
        e.entryID = lock.rootEntryID) := by
  simp only [expireLock] at run
  by_cases published : lock.lockNull = false
  · rw [if_pos published] at run
    obtain rfl := pure_ok.mp run
    exact ⟨[], .row_only tree lock, fun absurdity => absurd rfl absurdity⟩
  · rw [if_neg published] at run
    simp only [bind_ok] at run
    obtain ⟨entry, looked, rest⟩ := run
    have here := txStat_ok tree.valid abs looked
    by_cases other : ∀ e ∈ entry, e.entryID ≠ lock.rootEntryID
    · rw [if_pos other] at rest
      obtain rfl := pure_ok.mp rest
      exact ⟨[], .row_only tree lock, fun absurdity => absurd rfl absurdity⟩
    · rw [if_neg other] at rest
      simp only [bind_ok] at rest
      obtain ⟨⟨d', removed⟩, cut, finalized⟩ := rest
      refine ⟨removed, .resource tree abs rfl (by simpa using published) cut finalized, fun _ => ?_⟩
      simp only [not_forall, not_not] at other
      obtain ⟨e, same, id⟩ := other
      exact ⟨e, by rw [← here]; exact same, id⟩

end TgFile.Store
