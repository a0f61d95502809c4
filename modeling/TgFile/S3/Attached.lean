import TgFile.Backup.Effects
import TgFile.WebDAV.Attached

/-! # Rows attached to entries, S3 and backup

PutObject and CompleteMultipartUpload replace the entry of a key and rebind what was attached to
it; publishing a backup keeps the entry, its locks included, and sets its properties. -/

namespace TgFile.Store

open Go Go.Path Result WebDAV Backup

variable {env : Env} {s s' : Store} {now : Int} {entry : Entry} {removed : List Entry}
  {metadata : Option S3ObjectMetadata}

/-! ## PutObject -/

/-- What is attached to an entry of one state is attached to the entry of another state. -/
structure Rebound (s s' : Store) (old current : Nat) : Prop where
  properties : ∀ row ∈ s.properties, row.entryID = old →
    { row with entryID := current } ∈ s'.properties
  locks : ∀ lock ∈ s.locks, lock.rootEntryID = old →
    ∃ row ∈ s'.locks, row.token = lock.token ∧ row.rootEntryID = current

lemma Rebinds.carries {path : ObjectPath} (rebinds : Rebinds s s' path.text entry removed)
    (keeps : Directory.Keeps s.dir s'.dir removed)
    (shown : s'.dir.view (elements path.text) = some entry.untimed)
      (file : entry.fileKind = .file) :
    Carries s s' (removed.map Entry.entryID) := by
  have held : s'.dir.Holds entry.entryID .file := ⟨_, _, shown, rfl, file⟩
  cases rebinds with
  | fresh missing locks properties metadata =>
    obtain ⟨row, own, rows⟩ := metadata
    refine .of_kept keeps (fun other member => ?_) (fun other member => .inl ?_) locks
    · rw [rows] at member
      rcases List.mem_append.mp member with old | new
      · exact .inl old
      · rw [List.mem_singleton.mp new, own]
        exact .inr held
    · exact properties ▸ member
  | @replaced old _ found oldFile only locks properties metadata =>
    obtain ⟨row, own, rows⟩ := metadata
    -- only the old entry is removed
    have stays : ∀ id, id ≠ old.entryID → id ∉ removed.map Entry.entryID := by
      intro id other member
      obtain ⟨x, listed, rfl⟩ := List.mem_map.mp member
      exact other (only x listed ▸ rfl)
    refine ⟨fun id kind before free => keeps.holds before free, fun other member => ?_,
      fun other member => ?_, fun lock member => ?_⟩
    · rw [rows] at member
      rcases List.mem_append.mp member with before | new
      · obtain ⟨before, different⟩ := List.mem_filter.mp before
        exact .inl ⟨other, before, rfl, stays _ (of_decide_eq_true different)⟩
      · rw [List.mem_singleton.mp new, own]
        exact .inr held
    · rw [Sqlite.updateRows_ok properties, List.nil_append] at member
      obtain ⟨before, listed, rfl⟩ := List.mem_map.mp member
      split_ifs with hit
      · exact .inr ⟨.file, held⟩
      · exact .inl ⟨before, listed, rfl, stays _ (by simpa using hit)⟩
    · rw [Sqlite.updateRows_ok locks, List.nil_append] at member
      obtain ⟨before, listed, rfl⟩ := List.mem_map.mp member
      split_ifs with hit
      · exact ⟨.inr ⟨.file, held⟩, .inr (isAbs_clean path.abs)⟩
      · exact ⟨.inl ⟨before, listed, rfl, stays _ (by simpa using hit)⟩, .inl ⟨before, listed, rfl⟩⟩

/-- A replaced entry hands its properties and locks to the new one. -/
lemma Rebinds.rebound {path : Text} {old : Entry} (rebinds : Rebinds s s' path entry removed)
    (found : s.dir.find (elements path) = some old) : Rebound s s' old.entryID entry.entryID := by
  cases rebinds with
  | fresh missing =>
    rw [missing] at found
    cases found
  | replaced atPath file only locks properties =>
    obtain rfl := Option.some.inj (atPath.symm.trans found)
    refine ⟨fun row member own => ?_, fun lock member own => ?_⟩
    · rw [Sqlite.updateRows_ok properties, List.nil_append]
      exact List.mem_map.mpr ⟨row, member, by simp [own]⟩
    · rw [Sqlite.updateRows_ok locks, List.nil_append]
      exact ⟨_, List.mem_map.mpr ⟨lock, member, rfl⟩, by simp [own]⟩

lemma publishS3ObjectTx_carries (tree : SoundTree s.dir) (path : ObjectPath) {fileID : Nat}
    {size : Int} {metadata : S3ObjectMetadata} {condition : Option S3Condition}
    (run : s.publishS3ObjectTx env now path.text fileID size metadata condition =
      .ok (s', entry)) : ∃ removed, Carries s s' removed := by
  obtain ⟨removed, lost, hit, keeps, -, -, shown, file, rebinds⟩ :=
    publishS3ObjectTx_effect tree path run
  exact ⟨_, rebinds.carries keeps shown file⟩

/-! ## CopyObject and DeleteObject -/

lemma copySameS3ObjectTx_carries (tree : SoundTree s.dir) {source : Text} (abs : isAbs source)
    {info : S3ObjectInfo} {e : Entry} (found : s.dir.find (elements source) = some e)
    (file : e.fileKind = .file) (same : info.link.entryID = e.entryID)
    (run : s.copySameS3ObjectTx now source info metadata = .ok s') : Carries s s' [] := by
  have keeps := (copySameS3ObjectTx_effect tree abs run).1
  cases metadata with
  | none =>
    obtain rfl := Except.ok.inj run
    exact .of_dir keeps
  | some metadata =>
    simp only [copySameS3ObjectTx, bind_ok, pure_ok] at run
    obtain ⟨s₁, inserted, d', touched, rfl⟩ := run
    obtain ⟨-, rfl⟩ := insertS3Metadata_ok inserted
    have held : d'.Holds e.entryID .file :=
      keeps.holds (file ▸ Directory.holds_of_find found) List.not_mem_nil
    refine .of_kept keeps (fun row member => ?_) (fun row member => .inl member) rfl
    rcases List.mem_append.mp member with old | new
    · exact .inl (List.mem_of_mem_filter old)
    · rw [List.mem_singleton.mp new]
      exact .inr (same ▸ held)

lemma markReplacedPending_rows {replacedID fileID : Nat}
    (run : s.markReplacedPending replacedID fileID now = .ok s') :
    s'.dir = s.dir ∧ s'.metadata = s.metadata ∧ s'.properties = s.properties ∧
      s'.locks = s.locks := by
  unfold markReplacedPending at run
  split_ifs at run
  · obtain ⟨hit, rfl, -⟩ := markFileTreePendingIfUnreferenced_ok run
    exact ⟨rfl, rfl, rfl, rfl⟩
  · obtain rfl := Except.ok.inj run
    exact ⟨rfl, rfl, rfl, rfl⟩

/-- A transaction that adds rows for the file it creates. -/
lemma Carries.of_recreated {cs : List Text} (keeps : Directory.Keeps s.dir s'.dir removed)
    (shown : s'.dir.view cs = some entry.untimed) (file : entry.fileKind = .file)
    (metadata : ∀ row ∈ s'.metadata, (row ∈ s.metadata ∧ row.entryID ∉ removed.map Entry.entryID) ∨
      row.entryID = entry.entryID) (properties : ∀ row ∈ s'.properties, (row ∈ s.properties ∧
      row.entryID ∉ removed.map Entry.entryID) ∨ row.entryID = entry.entryID)
    (locks : KeepsLocks s s' (removed.map Entry.entryID)) :
    Carries s s' (removed.map Entry.entryID) := by
  have held : s'.dir.Holds entry.entryID .file := ⟨cs, _, shown, rfl, file⟩
  refine .of_keeps keeps (fun row member => (metadata row member).imp_right fun own => ?_)
    (fun row member => (properties row member).imp_right fun own => ⟨.file, ?_⟩) locks
  · rw [own]
    exact held
  · rw [own]
    exact held

lemma copyDifferentS3ObjectTx_carries (tree : SoundTree s.dir) (destination : ObjectPath)
    {sourceInfo : S3ObjectInfo} {destinationInfo : Option S3ObjectInfo}
    (looked : s.statS3ObjectTx env destination.text = .ok destinationInfo)
    (run : s.copyDifferentS3ObjectTx now destination.text sourceInfo destinationInfo metadata =
      .ok (s', entry)) : ∃ removed, Carries s s' removed := by
  simp only [copyDifferentS3ObjectTx, bind_ok, pure_ok] at run
  obtain ⟨⟨s₁, replacedID⟩, removedRun, _, -, ⟨d', e⟩, made, s₂, inserted, s₃, copied, s₄,
    marked, result⟩ := run
  obtain ⟨rfl, rfl⟩ := Prod.mk.inj result
  obtain ⟨-, rfl⟩ := insertS3Metadata_ok inserted
  have propertyRows := copyEntryProperties_mem copied
  obtain ⟨rows, rfl⟩ := copyEntryProperties_ok copied
  obtain ⟨sameDir, metadataRows, properties, locks⟩ := markReplacedPending_rows marked
  have dir : s₄.dir = d' := sameDir
  rcases statS3ObjectTx_ok tree destination.abs looked with
    ⟨rfl, -⟩ | ⟨info, old, rfl, found, file, id, holds⟩
  · obtain ⟨rfl, rfl⟩ := Prod.mk.inj (Except.ok.inj removedRun)
    obtain ⟨recreated, -⟩ := create_recreated tree destination made
    have keeps : Directory.Keeps s.dir s₄.dir [] := dir ▸ recreated.keeps
    have held : s₄.dir.Holds e.entryID .file :=
      dir ▸ ⟨_, _, recreated.shown, rfl, recreated.file⟩
    refine ⟨_, .of_kept keeps (fun row member => ?_) (fun row member => ?_) locks⟩
    · rw [metadataRows] at member
      refine (List.mem_append.mp member).imp_right fun new => ?_
      rw [List.mem_singleton.mp new]
      exact held
    · rw [properties] at member
      refine (propertyRows row member).imp_right fun own => ?_
      rw [own]
      exact ⟨.file, held⟩
  · simp only [removeReplacedS3Object, bind_ok, pure_ok] at removedRun
    obtain ⟨⟨d₁, removed⟩, cut, result⟩ := removedRun
    obtain ⟨rfl, rfl⟩ := Prod.mk.inj result
    have gone := remove_file tree destination.abs found file cut
    have recreated := gone.recreated tree holds made
    have stays : ∀ other, other ∉ [info.link.entryID] → other ∉ removed.map Entry.entryID := by
      intro other different member
      rw [mem_ids_of_only gone.only gone.listed, ← id] at member
      exact different (List.mem_singleton.mpr member)
    refine ⟨_, .of_recreated (dir ▸ recreated.keeps) (dir ▸ recreated.shown) recreated.file
      (fun row member => ?_) (fun row member => ?_) fun lock member => ?_⟩
    · rw [metadataRows] at member
      refine (List.mem_append.mp member).imp (fun before => ?_) fun new => by
        rw [List.mem_singleton.mp new]
      obtain ⟨before, different⟩ := List.mem_filter.mp before
      exact ⟨before, stays _ (by simpa using different)⟩
    · rw [properties] at member
      refine (propertyRows row member).imp_left fun before => ?_
      obtain ⟨before, different⟩ := List.mem_filter.mp before
      exact ⟨before, stays _ (of_decide_eq_true different)⟩
    · rw [locks] at member
      obtain ⟨before, different⟩ := List.mem_filter.mp member
      exact ⟨before, stays _ (of_decide_eq_true different)⟩

lemma copyS3Object_carries (tree : SoundTree s.dir) (source destination : ObjectPath)
    {sourceCondition destinationCondition : Option S3Condition}
    (run : s.copyS3Object env now source.text destination.text metadata sourceCondition
      destinationCondition = .ok s') : ∃ removed, Carries s s' removed := by
  simp only [copyS3Object, bind_ok] at run
  obtain ⟨found, looked, rest⟩ := run
  rcases statS3ObjectTx_ok tree source.abs looked with
    ⟨rfl, -⟩ | ⟨info, e, rfl, atSource, file, id, -⟩
  · cases rest
  · simp only [bind_ok] at rest
    obtain ⟨_, -, destinationInfo, lookedDestination, _, -, rest⟩ := rest
    split_ifs at rest with same
    · exact ⟨_, copySameS3ObjectTx_carries tree source.abs atSource file id rest⟩
    · simp only [bind_ok, pure_ok] at rest
      obtain ⟨⟨s₁, e⟩, copied, rfl⟩ := rest
      exact copyDifferentS3ObjectTx_carries tree destination lookedDestination copied

lemma deleteS3Object_carries (tree : SoundTree s.dir) (path : ObjectPath)
    {condition : Option S3Condition} {deleted : Bool}
    (run : s.deleteS3Object env now path.text condition = .ok (s', deleted)) :
    ∃ removed, Carries s s' removed := by
  simp only [deleteS3Object, bind_ok] at run
  obtain ⟨current, looked, _, -, rest⟩ := run
  rcases statS3ObjectTx_ok tree path.abs looked with ⟨rfl, -⟩ | ⟨info, old, rfl, found, file, id, -⟩
  · obtain ⟨rfl, -⟩ := Prod.mk.inj (pure_ok.mp rest)
    exact ⟨_, .of_dir (.refl tree.valid)⟩
  · simp only [bind_ok, pure_ok] at rest
    obtain ⟨⟨d', removed⟩, cut, s₁, marked, result⟩ := rest
    obtain ⟨rfl, -⟩ := Prod.mk.inj result
    have gone := remove_file tree path.abs found file cut
    obtain ⟨hit, rfl, -⟩ := markFileTreePendingIfUnreferenced_ok marked
    have stays : ∀ other, other ∉ [info.link.entryID] → other ∉ removed.map Entry.entryID := by
      intro other different member
      rw [mem_ids_of_only gone.only gone.listed, ← id] at member
      exact different (List.mem_singleton.mpr member)
    refine ⟨_, .of_keeps gone.keeps (fun row member => .inl ?_) (fun row member => .inl ?_)
      fun lock member => ?_⟩
    · obtain ⟨before, different⟩ := List.mem_filter.mp member
      exact ⟨before, stays _ (by simpa using different)⟩
    · obtain ⟨before, different⟩ := List.mem_filter.mp member
      exact ⟨before, stays _ (of_decide_eq_true different)⟩
    · obtain ⟨before, different⟩ := List.mem_filter.mp member
      exact ⟨before, stays _ (of_decide_eq_true different)⟩

end TgFile.Store
