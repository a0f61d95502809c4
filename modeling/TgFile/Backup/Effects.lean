import TgFile.S3.Effects
import Mathlib.Data.List.Dedup

/-! # What links and publications do to entries and locks -/

namespace TgFile.Store

open Go Go.Path Result WebDAV Backup

variable {s s' s₁ : Store} {now : Int} {path jobID : Text} {gained lost : List Nat} {entry : Entry}
  {p p' : Publisher} {policy : ConflictPolicy} {manifest : Manifest} {d' : Directory}
  {item : Mapping}

/-! ## `CreateFileLink` -/

lemma ObjectPath.elements_ne (path : ObjectPath) : elements path.text ≠ [] := fun root =>
  path.notRoot (by rw [← path.canonical, clean_eq_render path.abs, root, render_nil])

/-- What `Mkdir` does to the references. -/
lemma dbMkdir_effect (tree : SoundTree s.dir) (abs : isAbs path)
    (run : s.dir.dbMkdir now path = .ok d') :
    Directory.Keeps s.dir d' [] ∧ RefEffect now s { s with dir := d' } [] [] [] := by
  have grown := tree.valid.dbMkdir_grown abs run
  have remaps : Directory.Remaps s.dir d' [] [] := grown.remaps fun x fileID plain holds => by
    rw [plain.noRef] at holds
    cases holds
  exact ⟨grown.keeps, .of_dir grown.valid (tree.shaped.dbMkdir tree.valid abs run) remaps⟩

/-- What `CreateFileLink` does to the references. -/
lemma createFileLink_effect (tree : SoundTree s.dir) (path : ObjectPath) {fileID : Nat}
    {size : Int} {isDir : Bool} (run : s.createFileLink now path.text fileID size isDir = .ok s') :
    ∃ gained, Directory.Keeps s.dir s'.dir [] ∧ RefEffect now s s' gained [] [] ∧
      (∀ f ∈ gained, s.ensureFileTreeCanBeLinked f = .ok ()) ∧ s'.locks = s.locks := by
  cases isDir with
  | true =>
    simp only [createFileLink, if_true, bind_ok, pure_ok] at run
    obtain ⟨d', made, rfl⟩ := run
    obtain ⟨keeps, effect⟩ := dbMkdir_effect tree path.abs made
    exact ⟨[], keeps, effect, by simp, rfl⟩
  | false =>
    simp only [createFileLink, Bool.false_eq_true, if_false, bind_ok, pure_ok] at run
    obtain ⟨_, linkable, ⟨d', entry⟩, made, rfl⟩ := run
    obtain ⟨recreated, -⟩ := create_recreated tree path made
    refine ⟨[fileID], recreated.keeps, .of_dir recreated.keeps.valid recreated.shaped
      recreated.remaps, fun f member => ?_, rfl⟩
    rw [List.mem_singleton.mp member]
    exact linkable

/-! ## `PublishBackupImport` -/

/-- A part of a publication: the entries stay, some Files become or cease to be mapped, and none
is handed over yet. -/
structure Publishes (s s' : Store) (gained lost : List Nat) : Prop where
  keeps : Directory.Keeps s.dir s'.dir []
  shaped : s'.dir.Shaped
  remaps : Directory.Remaps s.dir s'.dir gained lost
  locks : s'.locks = s.locks
  deleteStates : s'.deleteStates = s.deleteStates
  same : SameFiles s s'

lemma SameFiles.trans (left : SameFiles s s₁) (right : SameFiles s₁ s') : SameFiles s s' where
  files := right.files.trans left.files
  parts := right.parts.trans left.parts
  segments := right.segments.trans left.segments
  completedParts := right.completedParts.trans left.completedParts
  uploads := right.uploads.trans left.uploads
  uploadParts := right.uploadParts.trans left.uploadParts
  pins := right.pins.trans left.pins
  jobFiles := right.jobFiles.trans left.jobFiles
  nextFileID := right.nextFileID.trans left.nextFileID

lemma Publishes.trans {gained₁ gained₂ lost₁ lost₂ : List Nat}
    (left : Publishes s s₁ gained₁ lost₁) (right : Publishes s₁ s' gained₂ lost₂) :
    Publishes s s' (gained₁ ++ gained₂) (lost₁ ++ lost₂) where
  keeps := left.keeps.trans right.keeps
  shaped := right.shaped
  remaps := left.remaps.trans right.remaps
  locks := right.locks.trans left.locks
  deleteStates := right.deleteStates.trans left.deleteStates
  same := left.same.trans right.same

lemma Publishes.of_dir (keeps : Directory.Keeps s.dir d' []) (shaped : d'.Shaped)
    (remaps : Directory.Remaps s.dir d' gained lost) :
    Publishes s { s with dir := d' } gained lost :=
  ⟨keeps, shaped, remaps, rfl, rfl, rfl, rfl, rfl, rfl, rfl, rfl, rfl, rfl, rfl⟩

lemma Publishes.update (published : Publishes s s' gained lost) (metadata : List S3ObjectMetadata)
    (properties : List WebDAVProperty) : Publishes s { s' with metadata, properties } gained lost :=
  ⟨published.keeps, published.shaped, published.remaps, published.locks, published.deleteStates,
    published.same.files, published.same.parts, published.same.segments,
    published.same.completedParts, published.same.uploads, published.same.uploadParts,
    published.same.pins, published.same.jobFiles, published.same.nextFileID⟩

lemma Publishes.refl (tree : SoundTree s.dir) : Publishes s s [] [] :=
  .of_dir (.refl tree.valid) tree.shaped (.refl s.dir)

lemma Publishes.tree (published : Publishes s s' gained lost) (before : SoundTree s.dir)
    (positive : 0 ∉ gained) : SoundTree s'.dir :=
  before.of_remaps published.keeps.valid published.shaped published.remaps positive

lemma Publishes.linkable (published : Publishes s s' gained lost) (fileID : Nat) :
    s'.ensureFileTreeCanBeLinked fileID = s.ensureFileTreeCanBeLinked fileID :=
  ensureFileTreeCanBeLinked_congr published.same.files published.same.parts
    published.deleteStates published.same.segments fileID

lemma updateBackupEntryMetadata_publishes (tree : SoundTree s.dir) (entryID mode : Nat)
    (ctime mtime : Int) :
    Publishes s (s.updateBackupEntryMetadata entryID mode ctime mtime) [] [] := by
  have inPlace : Directory.InPlace fun e => { e with fileMode := mode, ctime, mtime } :=
    ⟨fun _ => rfl, fun _ => rfl, fun _ => rfl, fun _ => rfl⟩
  exact .of_dir (tree.valid.updateEntry_keeps inPlace)
    (tree.shaped.updateEntry inPlace fun _ => rfl)
    (Directory.updateEntry_remaps inPlace fun _ => rfl)

/-- The directory of an item was there, or it is created. -/
lemma importedDirectory_ok {reused : Bool}
    (run : s.importedDirectory now path = .ok (s', entry, reused)) :
    (s.dir.txStat path = .ok (some entry) ∧ s' = s) ∨
      ∃ d', s.dir.mkdir now path = .ok (d', entry) ∧ s' = { s with dir := d' } := by
  simp only [importedDirectory, bind_ok] at run
  obtain ⟨current, looked, rest⟩ := run
  cases current with
  | some e =>
    simp only [bind_ok, pure_ok] at rest
    obtain ⟨_, -, result⟩ := rest
    obtain ⟨rfl, pair⟩ := Prod.mk.inj result
    obtain ⟨rfl, -⟩ := Prod.mk.inj pair
    exact .inl ⟨looked, rfl⟩
  | none =>
    simp only [bind_ok, pure_ok] at rest
    obtain ⟨⟨d', e⟩, made, result⟩ := rest
    obtain ⟨rfl, pair⟩ := Prod.mk.inj result
    obtain ⟨rfl, -⟩ := Prod.mk.inj pair
    exact .inr ⟨d', made, rfl⟩

lemma importedDirectory_publishes (tree : SoundTree s.dir) (canonical : CanonicalPath path)
    {reused : Bool} (run : s.importedDirectory now path = .ok (s', entry, reused)) :
    Publishes s s' [] [] := by
  obtain ⟨abs, cleaned, notRoot⟩ := canonical
  rcases importedDirectory_ok run with ⟨-, rfl⟩ | ⟨d', made, rfl⟩
  · exact .refl tree
  · have proper := ObjectPath.elements_ne ⟨⟨path, abs, cleaned⟩, notRoot⟩
    obtain ⟨grown, -, plain, -⟩ := tree.valid.mkdir_grown abs proper made
    refine .of_dir grown.keeps (tree.shaped.mkdir tree.valid abs proper made) ?_
    exact grown.remaps fun x fileID same holds => by
      rw [same, Directory.untimed_refData, plain.noRef] at holds
      cases holds

lemma touch_publishes (tree : SoundTree s.dir) (abs : isAbs path) {mtime : Int}
    (run : s.dir.touch now path mtime = .ok d') : Publishes s { s with dir := d' } [] [] :=
  .of_dir (tree.valid.touch_keeps abs run) (tree.shaped.touch tree.valid abs run)
    (tree.valid.touch_remaps abs run)

lemma publishDirectory_publishes (tree : SoundTree p.store.dir) {item : ManifestDirectory}
    (canonical : CanonicalPath item.path) (run : publishDirectory now p item = .ok p') :
    Publishes p.store p'.store [] [] ∧ p'.replacedIDs = p.replacedIDs := by
  simp only [publishDirectory, bind_ok, pure_ok] at run
  obtain ⟨⟨s₁, entry, reused⟩, imported, d', touched, rfl⟩ := run
  have first := importedDirectory_publishes tree canonical imported
  have second := first.trans (updateBackupEntryMetadata_publishes (first.tree tree (by simp))
    entry.entryID item.mode item.ctime item.mtime)
  refine ⟨?_, rfl⟩
  cases reused with
  | false =>
    obtain rfl := Except.ok.inj touched
    exact second
  | true => exact second.trans (touch_publishes (second.tree tree (by simp)) canonical.1 touched)

/-- A mapping is created, or it takes the place of the one at its path. -/
lemma publishMapping_ok {targetID : Nat} {replaced : List Nat}
    (run : s.publishMapping now policy item targetID = .ok (s', entry, replaced)) :
    (∃ d', s.dir.txStat item.path = .ok none ∧
      s.dir.create now item.path item.size (some targetID) = .ok (d', entry) ∧
      s' = { s with dir := d' } ∧ replaced = []) ∨
    ∃ old oldID d', s.dir.txStat item.path = .ok (some old) ∧ old.refData = some oldID ∧
      s.dir.replace item.path item.size (some targetID) now item.mtime = .ok (d', entry) ∧
      s' = { (s.deleteS3Metadata old.entryID).deleteWebDAVProperties [old.entryID] with
        dir := d' } ∧ replaced = [oldID] := by
  simp only [publishMapping, bind_ok] at run
  obtain ⟨current, looked, rest⟩ := run
  cases current with
  | none =>
    simp only [bind_ok, pure_ok] at rest
    obtain ⟨⟨d', e⟩, made, result⟩ := rest
    obtain ⟨rfl, pair⟩ := Prod.mk.inj result
    obtain ⟨rfl, rfl⟩ := Prod.mk.inj pair
    exact .inl ⟨d', looked, made, rfl, rfl⟩
  | some old =>
    simp only [replaceMapping, bind_ok, pure_ok] at rest
    obtain ⟨_, ⟨_, -, stored⟩, result⟩ := rest
    cases holds : old.refData with
    | none =>
      rw [holds] at stored
      cases stored
    | some fileID =>
      simp only [holds, bind_ok, pure_ok] at stored
      obtain ⟨⟨d', previous⟩, made, rfl⟩ := stored
      obtain ⟨rfl, pair⟩ := Prod.mk.inj result
      obtain ⟨rfl, rfl⟩ := Prod.mk.inj pair
      exact .inr ⟨old, fileID, d', looked, holds, made, rfl, rfl⟩

lemma publishMapping_publishes (tree : SoundTree s.dir) (canonical : CanonicalPath item.path)
    {targetID : Nat} {replaced : List Nat}
    (run : s.publishMapping now policy item targetID = .ok (s', entry, replaced)) :
    Publishes s s' [targetID] replaced := by
  obtain ⟨abs, cleaned, notRoot⟩ := canonical
  rcases publishMapping_ok run with ⟨d', -, made, rfl, rfl⟩ |
    ⟨old, oldID, d', looked, holds, made, rfl, rfl⟩
  · obtain ⟨recreated, -⟩ := create_recreated tree ⟨⟨item.path, abs, cleaned⟩, notRoot⟩ made
    exact .of_dir recreated.keeps recreated.shaped recreated.remaps
  · obtain ⟨-, atPath, -⟩ := tree.valid.replace_spec abs made
    have here := txStat_ok tree.valid abs looked
    obtain rfl : old = entry := Option.some.inj (here.trans atPath)
    have remaps := tree.valid.replace_remaps abs made
    rw [holds] at remaps
    exact (Publishes.of_dir (tree.valid.replace_keeps abs made)
      (tree.shaped.replace tree.valid abs made) remaps).update _ _

/-- The Files of a publication can all be linked before it. -/
structure PublishedFrom (s : Store) (p : Publisher) (gained : List Nat) : Prop where
  publishes : Publishes s p.store gained p.replacedIDs
  linkable : ∀ fileID ∈ gained, s.ensureFileTreeCanBeLinked fileID = .ok ()

lemma restoreS3Metadata_ok {entryID : Nat}
    (run : restoreS3Metadata manifest path s entryID = .ok s') :
    ∃ rows, s' = { s with metadata := rows } := by
  unfold restoreS3Metadata at run
  split at run
  · exact ⟨_, (Except.ok.inj run).symm⟩
  · exact ⟨_, (insertS3Metadata_ok run).2⟩

lemma ne_zero_of_linkable {fileID : Nat} (positive : ∀ file ∈ s.files, file.fileID ≠ 0)
    (run : s.ensureFileTreeCanBeLinked fileID = .ok ()) : fileID ≠ 0 := by
  obtain ⟨record, linkable⟩ := ensureFileTreeCanBeLinked_ok run
  obtain ⟨member, rfl⟩ := readStoredFile_ok linkable.stored
  exact positive record member

lemma PublishedFrom.tree (published : PublishedFrom s p gained) (before : SoundTree s.dir)
    (positive : ∀ file ∈ s.files, file.fileID ≠ 0) : SoundTree p.store.dir :=
  published.publishes.tree before fun zero =>
    ne_zero_of_linkable positive (published.linkable 0 zero) rfl

lemma PublishedFrom.trans (before : PublishedFrom s p gained)
    (published : Publishes p.store p'.store [] []) (same : p'.replacedIDs = p.replacedIDs) :
    PublishedFrom s p' gained := by
  have both := before.publishes.trans published
  rw [List.append_nil, List.append_nil, ← same] at both
  exact ⟨both, before.linkable⟩

lemma PublishedFrom.mapping (before : PublishedFrom s p gained) (tree : SoundTree p.store.dir)
    (positive : ∀ file ∈ s.files, file.fileID ≠ 0) (canonical : CanonicalPath item.path)
    (run : publishMappingItem now jobID manifest policy p item = .ok p') :
    ∃ more, PublishedFrom s p' more := by
  simp only [publishMappingItem, bind_ok, pure_ok] at run
  obtain ⟨_, linkable, ⟨s₁, entry, replaced⟩, stored, s₂, restored, rfl⟩ := run
  rw [before.publishes.linkable] at linkable
  have first := publishMapping_publishes tree canonical stored
  have tree₁ : SoundTree s₁.dir := first.tree tree fun zero =>
    ne_zero_of_linkable positive linkable (List.mem_singleton.mp zero).symm
  have second := first.trans (updateBackupEntryMetadata_publishes tree₁ entry.entryID item.mode
    item.ctime item.mtime)
  obtain ⟨rows, rfl⟩ := restoreS3Metadata_ok restored
  rw [List.append_nil, List.append_nil] at second
  refine ⟨gained ++ [_], before.publishes.trans (second.update rows _), fun fileID member => ?_⟩
  rcases List.mem_append.mp member with early | last
  · exact before.linkable fileID early
  · rw [List.mem_singleton.mp last]
    exact linkable

lemma publishProperty_ok {entryByPath : List (Text × Nat)} {property : ManifestProperty}
    (run : publishProperty entryByPath s property = .ok s') :
    ∃ rows, s' = { s with properties := rows } := by
  unfold publishProperty at run
  split at run
  · cases run
  · exact ⟨_, (Except.ok.inj run).symm⟩

lemma publishWebDAVProperties_publishes (tree : SoundTree p.store.dir)
    (abs : ∀ item ∈ manifest.webDAVProperties, isAbs item.path = true)
    (run : publishWebDAVProperties now manifest p = .ok p') :
    Publishes p.store p'.store [] [] ∧ p'.replacedIDs = p.replacedIDs := by
  simp only [publishWebDAVProperties, bind_ok, pure_ok] at run
  obtain ⟨s₁, stored, s₂, touched, rfl⟩ := run
  have rows : ∃ rows, s₁ = { p.store with properties := rows } := by
    refine foldlM_ok (fun t : Store => ∃ rows, t = { p.store with properties := rows }) ?_
      ⟨_, rfl⟩ stored
    rintro property - t t' ⟨rows, rfl⟩ pass
    obtain ⟨rows', rfl⟩ := publishProperty_ok pass
    exact ⟨rows', rfl⟩
  obtain ⟨rows, rfl⟩ := rows
  have start : Publishes p.store { p.store with properties := rows } [] [] :=
    (Publishes.refl tree).update _ _
  refine ⟨?_, rfl⟩
  refine foldlM_ok (fun t => Publishes p.store t [] []) ?_ start touched
  intro changed member t t' published pass
  simp only [touchChanged, bind_ok, pure_ok] at pass
  obtain ⟨d', touch, rfl⟩ := pass
  have known : isAbs changed.1 = true := by
    obtain ⟨path, inPaths, rfl⟩ := List.mem_map.mp member
    obtain ⟨item, listed, rfl⟩ := List.mem_map.mp (List.mem_dedup.mp inPaths)
    exact abs item listed
  exact published.trans (touch_publishes (published.tree tree (by simp)) known touch)

lemma canonical_of_property (valid : manifest.Valid) :
    ∀ item ∈ manifest.webDAVProperties, CanonicalPath item.path := by
  intro item member
  rcases valid.properties item member with ⟨directory, listed, same⟩ | ⟨mapping, listed, same⟩
  · rw [← same]
    exact valid.directories directory listed
  · rw [← same]
    exact (valid.mappings mapping listed).1

lemma abs_of_valid (valid : manifest.Valid) :
    ∀ item ∈ manifest.webDAVProperties, isAbs item.path = true := fun item member =>
  (canonical_of_property valid item member).1

variable (tree : SoundTree s.dir) (positive : ∀ file ∈ s.files, file.fileID ≠ 0)
  (valid : manifest.Valid) (run : s.publishBackupImport now jobID manifest policy = .ok s')
include tree positive valid run

/-- The publisher before the replaced Files are handed over. -/
lemma publishBackupImport_published :
    ∃ p gained, PublishedFrom s p gained ∧ completePublish now jobID p = .ok s' := by
  simp only [publishBackupImport, bind_ok] at run
  obtain ⟨_, -, _, -, p₁, directories, p₂, mappings, p₃, properties, closed⟩ := run
  have first : PublishedFrom s p₁ [] := by
    refine foldlM_ok (fun p : Publisher => PublishedFrom s p []) ?_
      ⟨.refl tree, by simp⟩ directories
    intro item member p p' before pass
    obtain ⟨published, same⟩ := publishDirectory_publishes (before.tree tree positive)
      (valid.directories item member) pass
    exact before.trans published same
  obtain ⟨gained, second⟩ : ∃ gained, PublishedFrom s p₂ gained := by
    refine foldlM_ok (fun p : Publisher => ∃ gained, PublishedFrom s p gained) ?_
      ⟨[], first⟩ mappings
    rintro item member p p' ⟨gained, before⟩ pass
    exact before.mapping (before.tree tree positive) positive (valid.mappings item member).1 pass
  obtain ⟨published, same⟩ := publishWebDAVProperties_publishes (second.tree tree positive)
    (abs_of_valid valid) properties
  exact ⟨p₃, gained, second.trans published same, closed⟩

/-- What the publication of an import does to the references. -/
lemma publishBackupImport_effect :
    ∃ gained lost hit, Directory.Keeps s.dir s'.dir [] ∧ RefEffect now s s' gained lost hit ∧
      (∀ fileID ∈ gained, s.ensureFileTreeCanBeLinked fileID = .ok ()) ∧ s'.locks = s.locks := by
  obtain ⟨p, gained, published, closed⟩ := publishBackupImport_published tree positive valid run
  simp only [completePublish, updateJob, bind_ok, pure_ok] at closed
  obtain ⟨s₁, marked, _, -, rfl⟩ := closed
  obtain ⟨hit, rfl, handed⟩ := markMappingFilesPending_ok marked
  have step := published.publishes
  refine ⟨gained, p.replacedIDs, hit, step.keeps, ?_, published.linkable, step.locks⟩
  refine ⟨step.keeps.valid, step.shaped, step.remaps, ⟨handed.unreferenced, fun f member free =>
    ⟨(handed.reached f member free).own, (handed.reached f member free).sources⟩⟩, ?_, ?_⟩
  · rw [← step.deleteStates]
    rfl
  · exact ⟨step.same.files, step.same.parts, step.same.segments, step.same.completedParts,
      step.same.uploads, step.same.uploadParts, step.same.pins, step.same.jobFiles,
      step.same.nextFileID⟩

end TgFile.Store
