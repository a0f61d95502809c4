import TgFile.WebDAV.Effects

/-! # Rows attached to entries

S3 metadata, WebDAV properties and locks name an entry by its id.  A transaction that removes an
entry also drops or rebinds the rows of all three tables. -/

namespace TgFile.Store

open Go Go.Path Result WebDAV

variable {env : Env} {s s' : Store} {now : Int} {removed : List Entry} {lock : WebDAVLock}
  {options : MutationOptions} {created : Bool}

/-- Every attached row names an entry of the directory, metadata names a file, and the root of a
lock is an absolute path. -/
structure Attached (s : Store) : Prop where
  metadata : ∀ row ∈ s.metadata, s.dir.Holds row.entryID .file
  properties : ∀ row ∈ s.properties, ∃ kind, s.dir.Holds row.entryID kind
  locks : ∀ lock ∈ s.locks, ∃ kind, s.dir.Holds lock.rootEntryID kind
  abs : ∀ lock ∈ s.locks, isAbs lock.rootPath = true

/-- Where the rows of a later state come from: a row of an entry that stays, or one for an entry
that is there now. -/
structure Carries (s s' : Store) (removed : List Nat) : Prop where
  holds : ∀ id kind, s.dir.Holds id kind → id ∉ removed → s'.dir.Holds id kind
  metadata : ∀ row ∈ s'.metadata, (∃ old ∈ s.metadata, old.entryID = row.entryID ∧
    row.entryID ∉ removed) ∨ s'.dir.Holds row.entryID .file
  properties : ∀ row ∈ s'.properties, (∃ old ∈ s.properties, old.entryID = row.entryID ∧
    row.entryID ∉ removed) ∨ ∃ kind, s'.dir.Holds row.entryID kind
  locks : ∀ lock ∈ s'.locks, ((∃ old ∈ s.locks, old.rootEntryID = lock.rootEntryID ∧
    lock.rootEntryID ∉ removed) ∨ ∃ kind, s'.dir.Holds lock.rootEntryID kind) ∧
      ((∃ old ∈ s.locks, old.rootPath = lock.rootPath) ∨ isAbs lock.rootPath = true)

lemma Attached.carried {removed : List Nat} (attached : Attached s)
    (carries : Carries s s' removed) : Attached s' where
  metadata row member := by
    rcases carries.metadata row member with ⟨old, before, same, stays⟩ | here
    · exact carries.holds _ _ (same ▸ attached.metadata old before) stays
    · exact here
  properties row member := by
    rcases carries.properties row member with ⟨old, before, same, stays⟩ | here
    · obtain ⟨kind, held⟩ := attached.properties old before
      exact ⟨kind, carries.holds _ _ (same ▸ held) stays⟩
    · exact here
  locks lock member := by
    rcases (carries.locks lock member).1 with ⟨old, before, same, stays⟩ | here
    · obtain ⟨kind, held⟩ := attached.locks old before
      exact ⟨kind, carries.holds _ _ (same ▸ held) stays⟩
    · exact here
  abs lock member := by
    rcases (carries.locks lock member).2 with ⟨old, before, same⟩ | here
    · rw [← same]
      exact attached.abs old before
    · exact here

/-! ## Parts of a transaction -/

/-- Lock rows that stay or go. -/
def KeepsLocks (s s' : Store) (removed : List Nat) : Prop :=
  ∀ lock ∈ s'.locks, lock ∈ s.locks ∧ lock.rootEntryID ∉ removed

/-- A transaction that adds no lock and moves none. -/
lemma Carries.of_keeps (keeps : Directory.Keeps s.dir s'.dir removed)
    (metadata : ∀ row ∈ s'.metadata, (row ∈ s.metadata ∧ row.entryID ∉ removed.map Entry.entryID) ∨
      s'.dir.Holds row.entryID .file) (properties : ∀ row ∈ s'.properties, (row ∈ s.properties ∧
      row.entryID ∉ removed.map Entry.entryID) ∨ ∃ kind, s'.dir.Holds row.entryID kind)
    (locks : KeepsLocks s s' (removed.map Entry.entryID)) :
    Carries s s' (removed.map Entry.entryID) where
  holds _ _ held stays := keeps.holds held stays
  metadata row member := (metadata row member).imp_left fun ⟨before, stays⟩ =>
    ⟨row, before, rfl, stays⟩
  properties row member := (properties row member).imp_left fun ⟨before, stays⟩ =>
    ⟨row, before, rfl, stays⟩
  locks lock member := by
    obtain ⟨before, stays⟩ := locks lock member
    exact ⟨.inl ⟨lock, before, rfl, stays⟩, .inl ⟨lock, before, rfl⟩⟩

lemma mem_metadataWithout {row : S3ObjectMetadata} :
    row ∈ s.metadataWithout removed ↔
      row ∈ s.metadata ∧ row.entryID ∉ removed.map Entry.entryID := by
  rw [metadataWithout, List.mem_filter, decide_eq_true_eq]

lemma mem_propertiesWithout {row : WebDAVProperty} :
    row ∈ s.propertiesWithout removed ↔
      row ∈ s.properties ∧ row.entryID ∉ removed.map Entry.entryID := by
  rw [propertiesWithout, List.mem_filter, decide_eq_true_eq]

lemma mem_locksWithout :
    lock ∈ s.locksWithout removed ↔
      lock ∈ s.locks ∧ lock.rootEntryID ∉ removed.map Entry.entryID := by
  rw [locksWithout, List.mem_filter, decide_eq_true_eq]

lemma KeepsLocks.of_eq (same : s'.locks = s.locks) : KeepsLocks s s' [] := fun lock member =>
  ⟨same ▸ member, by simp⟩

lemma KeepsLocks.of_without (same : s'.locks = s.locksWithout removed) :
    KeepsLocks s s' (removed.map Entry.entryID) := fun lock member => by
  rw [same] at member
  exact mem_locksWithout.mp member

/-- A transaction that removes no entry and leaves the locks alone. -/
lemma Carries.of_kept (keeps : Directory.Keeps s.dir s'.dir [])
    (metadata : ∀ row ∈ s'.metadata, row ∈ s.metadata ∨ s'.dir.Holds row.entryID .file)
    (properties : ∀ row ∈ s'.properties, row ∈ s.properties ∨
      ∃ kind, s'.dir.Holds row.entryID kind) (locks : s'.locks = s.locks) : Carries s s' [] :=
  .of_keeps keeps
    (fun row member => (metadata row member).imp_left fun old => ⟨old, List.not_mem_nil⟩)
    (fun row member => (properties row member).imp_left fun old => ⟨old, List.not_mem_nil⟩)
    (.of_eq locks)

lemma Carries.of_dir {d' : Directory} (keeps : Directory.Keeps s.dir d' []) :
    Carries s { s with dir := d' } [] :=
  .of_kept keeps (fun _ member => .inl member) (fun _ member => .inl member) rfl

/-- A change of the directory whose removed entries are finalized. -/
lemma Carries.of_without (keeps : Directory.Keeps s.dir s'.dir removed)
    (metadata : s'.metadata = s.metadataWithout removed)
    (properties : s'.properties = s.propertiesWithout removed)
    (locks : s'.locks = s.locksWithout removed) : Carries s s' (removed.map Entry.entryID) :=
  .of_keeps keeps (fun _ member => .inl (mem_metadataWithout.mp (metadata ▸ member)))
    (fun _ member => .inl (mem_propertiesWithout.mp (properties ▸ member))) (.of_without locks)

/-! ## WebDAV requests -/

lemma createWebDAVCollection_carries (tree : SoundTree s.dir) (path : Resource)
    (run : s.createWebDAVCollection now path.text options = .ok s') : Carries s s' [] := by
  obtain ⟨keeps, -, -⟩ := createWebDAVCollection_effect tree path run
  simp only [createWebDAVCollection, bind_ok, pure_ok] at run
  obtain ⟨_, -, _, -, _, -, _, -, rfl⟩ := run
  exact .of_dir keeps

lemma publishWebDAVFile_carries (tree : SoundTree s.dir) (path : Resource) {fileID : Nat}
    {size : Int}
    (run : s.publishWebDAVFile env now path.text fileID size options = .ok (s', created)) :
    Carries s s' [] := by
  obtain ⟨lost, hit, e, keeps, -, -, shown, file, locks, metadata, properties⟩ :=
    publishWebDAVFile_effect tree path run
  have held : s'.dir.Holds e.entryID .file := ⟨_, e, shown, rfl, file⟩
  refine ⟨fun id kind before stays => keeps.holds before stays, fun row member => ?_,
    fun row member => ?_, fun lock member => ?_⟩
  · rcases metadata row member with old | new
    · exact .inl ⟨row, old, rfl, List.not_mem_nil⟩
    · exact .inr (new ▸ held)
  · exact .inl ⟨row, properties ▸ member, rfl, List.not_mem_nil⟩
  · rw [locks] at member
    obtain ⟨old, before, rfl⟩ := List.mem_map.mp member
    split_ifs
    · exact ⟨.inr ⟨.file, held⟩, .inl ⟨old, before, rfl⟩⟩
    · exact ⟨.inl ⟨old, before, rfl, List.not_mem_nil⟩, .inl ⟨old, before, rfl⟩⟩

lemma deleteWebDAVResource_carries (tree : SoundTree s.dir) (path : Resource)
    (run : s.deleteWebDAVResource now path.text options = .ok s') :
    ∃ removed, Carries s s' removed := by
  simp only [deleteWebDAVResource, bind_ok] at run
  obtain ⟨_, -, _, -, _, -, _, -, _, -, ⟨d', removed⟩, cut, finalized⟩ := run
  have keeps := tree.valid.remove_keeps path.abs cut
  obtain ⟨_, _, -, -, rfl⟩ := finalizeRemovedWebDAVEntries_ok finalized
  exact ⟨_, .of_without keeps rfl rfl rfl⟩

/-- Copied metadata is for the copies of files. -/
lemma copyWebDAVMetadata_mem {copies : List (Entry × Entry)}
    (run : s.copyWebDAVMetadata copies = .ok s') :
    ∀ row ∈ s'.metadata, row ∈ s.metadata ∨
      ∃ pair ∈ copies, pair.1.fileKind = .file ∧ row.entryID = pair.2.entryID := by
  refine foldlM_ok (fun t : Store => ∀ row ∈ t.metadata, row ∈ s.metadata ∨
    ∃ pair ∈ copies, pair.1.fileKind = .file ∧ row.entryID = pair.2.entryID) ?_
    (fun _ member => .inl member) run
  intro pair listed t t' holds pass
  split_ifs at pass with dir
  · obtain rfl := Except.ok.inj pass
    exact holds
  · simp only [copyMappingMetadata, bind_ok, pure_ok] at pass
    obtain ⟨rows, inserted, rfl⟩ := pass
    refine foldlM_ok (fun rows : List S3ObjectMetadata => ∀ row ∈ rows, row ∈ s.metadata ∨
      ∃ pair ∈ copies, pair.1.fileKind = .file ∧ row.entryID = pair.2.entryID) ?_ holds inserted
    intro source _ rows rows' before insert row member
    obtain ⟨-, rfl⟩ := Sqlite.insertRow_ok.mp insert
    rcases List.mem_append.mp member with old | new
    · exact before row old
    · rw [List.mem_singleton.mp new]
      exact .inr ⟨pair, listed, by cases h : pair.1.fileKind <;> simp_all, rfl⟩

lemma copyEntryProperties_mem {source destination : Nat}
    (run : copyEntryProperties now s source destination = .ok s') :
    ∀ row ∈ s'.properties, row ∈ s.properties ∨ row.entryID = destination := by
  simp only [copyEntryProperties, bind_ok, pure_ok] at run
  obtain ⟨rows, inserted, rfl⟩ := run
  refine foldlM_ok (fun rows : List WebDAVProperty => ∀ row ∈ rows, row ∈ s.properties ∨
    row.entryID = destination) ?_ (fun _ member => .inl member) inserted
  intro source _ rows rows' before insert row member
  obtain ⟨-, rfl⟩ := Sqlite.insertRow_ok.mp insert
  rcases List.mem_append.mp member with old | new
  · exact before row old
  · rw [List.mem_singleton.mp new]
    exact .inr rfl

lemma copyWebDAVProperties_mem {copies : List (Entry × Entry)}
    (run : s.copyWebDAVProperties copies now = .ok s') :
    ∀ row ∈ s'.properties, row ∈ s.properties ∨ ∃ pair ∈ copies, row.entryID = pair.2.entryID := by
  refine foldlM_ok (fun t : Store => ∀ row ∈ t.properties, row ∈ s.properties ∨
    ∃ pair ∈ copies, row.entryID = pair.2.entryID) ?_ (fun _ member => .inl member) run
  intro pair listed t t' holds pass row member
  rcases copyEntryProperties_mem pass row member with old | new
  · exact holds row old
  · exact .inr ⟨pair, listed, new⟩

lemma copyWebDAVResource_carries (tree : SoundTree s.dir) (source destination : Resource)
    {overwrite recursive : Bool}
    (run : s.copyWebDAVResource now source.text destination.text overwrite recursive options =
      .ok (s', created)) : ∃ removed, Carries s s' removed := by
  simp only [copyWebDAVResource, bind_ok, pure_ok] at run
  obtain ⟨_, -, _, -, _, -, _, -, _, -, ⟨d', copies, overwritten⟩, copied, _, -, s₁, finalized, s₂,
    metadata, s₃, properties, result⟩ := run
  obtain ⟨rfl, -⟩ := Prod.mk.inj result
  have keeps := tree.valid.copyDepth_keeps source.abs destination.abs copied
  have kinds := tree.valid.copyDepth_kinds source.abs destination.abs copied
  obtain ⟨_, _, -, -, rfl⟩ := finalizeRemovedWebDAVEntries_ok finalized
  have metadataRows := copyWebDAVMetadata_mem metadata
  obtain ⟨rows, rfl⟩ := copyWebDAVMetadata_ok metadata
  have propertyRows := copyWebDAVProperties_mem properties
  obtain ⟨rows', rfl⟩ := copyWebDAVProperties_ok properties
  refine ⟨overwritten.map Entry.entryID, .of_keeps keeps (fun row member => ?_)
    (fun row member => ?_) (.of_without rfl)⟩
  · rcases metadataRows row member with old | ⟨pair, listed, file, same⟩
    · exact .inl (mem_metadataWithout.mp old)
    · exact .inr (same ▸ file ▸ kinds pair listed)
  · rcases propertyRows row member with old | ⟨pair, listed, same⟩
    · exact .inl (mem_propertiesWithout.mp old)
    · exact .inr ⟨_, same ▸ kinds pair listed⟩

lemma moveWebDAVResource_carries (tree : SoundTree s.dir) (source destination : Resource)
    {overwrite : Bool}
    (run : s.moveWebDAVResource now source.text destination.text overwrite options =
      .ok (s', created)) : ∃ removed, Carries s s' removed := by
  simp only [moveWebDAVResource, moveLocks, bind_ok, pure_ok] at run
  obtain ⟨_, -, _, -, _, -, _, -, _, -, _, -, _, -, ⟨d', overwritten⟩, moved, s₁, finalized, s₂,
    ⟨rows, relocated, rfl⟩, result⟩ := run
  obtain ⟨rfl, -⟩ := Prod.mk.inj result
  obtain ⟨_, _, -, -, rfl⟩ := finalizeRemovedWebDAVEntries_ok finalized
  refine ⟨overwritten.map Entry.entryID, fun id kind held stays =>
    tree.valid.move_holds source.abs destination.abs moved held stays, fun row member => ?_,
    fun row member => ?_, fun lock member => ?_⟩
  · obtain ⟨before, stays⟩ := mem_metadataWithout.mp member
    exact .inl ⟨row, before, rfl, stays⟩
  · obtain ⟨before, stays⟩ := mem_propertiesWithout.mp member
    exact .inl ⟨row, before, rfl, stays⟩
  · rw [Sqlite.updateRows_ok relocated, List.nil_append] at member
    obtain ⟨old, kept, rfl⟩ := List.mem_map.mp member
    obtain ⟨before, stays⟩ := mem_locksWithout.mp kept
    split_ifs
    · refine ⟨.inl ⟨old, before, rfl, stays⟩, .inr ?_⟩
      rw [destination.canonical]
      exact isAbs_append destination.abs _
    · exact ⟨.inl ⟨old, before, rfl, stays⟩, .inl ⟨old, before, rfl⟩⟩

lemma patchProperty_mem {entryID : Nat} {rows : List WebDAVProperty} {patch : PropertyPatch} :
    ∀ row ∈ patchProperty entryID now rows patch,
      (∃ old ∈ rows, old.entryID = row.entryID) ∨ row.entryID = entryID := by
  intro row member
  unfold patchProperty at member
  split_ifs at member with set found
  · obtain ⟨old, before, rfl⟩ := List.mem_map.mp member
    refine .inl ⟨old, before, ?_⟩
    split_ifs <;> rfl
  · rcases List.mem_append.mp member with old | new
    · exact .inl ⟨row, old, rfl⟩
    · rw [List.mem_singleton.mp new]
      exact .inr rfl
  · exact .inl ⟨row, List.mem_of_mem_filter member, rfl⟩

lemma foldl_patchProperty_mem {entryID : Nat} (patches : List PropertyPatch)
    (rows : List WebDAVProperty) :
    ∀ row ∈ patches.foldl (patchProperty entryID now) rows,
      (∃ old ∈ rows, old.entryID = row.entryID) ∨ row.entryID = entryID := by
  induction patches generalizing rows with
  | nil => exact fun row member => .inl ⟨row, member, rfl⟩
  | cons patch patches ih =>
    intro row member
    rcases ih _ row member with ⟨middle, inMiddle, same⟩ | own
    · rcases patchProperty_mem middle inMiddle with ⟨old, before, first⟩ | own
      · exact .inl ⟨old, before, first.trans same⟩
      · exact .inr (same ▸ own)
    · exact .inr own

lemma patchWebDAVProperties_carries (tree : SoundTree s.dir) (path : Resource)
    {patches : List PropertyPatch}
    (run : s.patchWebDAVProperties now path.text patches options = .ok s') : Carries s s' [] := by
  simp only [patchWebDAVProperties, bind_ok, pure_ok] at run
  obtain ⟨entry, looked, _, -, _, -, d', touched, rfl⟩ := run
  have keeps := tree.valid.touch_keeps path.abs touched
  have found := statExisting_ok tree.valid path.abs looked
  refine ⟨fun id kind held stays => keeps.holds held stays, fun row member => ?_,
    fun row member => ?_, fun lock member => ?_⟩
  · exact .inl ⟨row, member, rfl, List.not_mem_nil⟩
  · rcases foldl_patchProperty_mem patches s.properties row member with ⟨old, before, same⟩ | own
    · exact .inl ⟨old, before, same, List.not_mem_nil⟩
    · rw [own]
      exact .inr ⟨_, keeps.holds (Directory.holds_of_find found) List.not_mem_nil⟩
  · exact ⟨.inl ⟨lock, member, rfl, List.not_mem_nil⟩, .inl ⟨lock, member, rfl⟩⟩

lemma lockWebDAVResource_carries {request : LockRequest} {fileID : Nat} {uuid : Text}
    (tree : SoundTree s.dir) (path : Resource) (same : request.path = path.text)
    (run : s.lockWebDAVResource now request fileID uuid = .ok (s', lock, created)) :
    Carries s s' [] := by
  have keeps := (lockWebDAVResource_effect tree path same run).1
  obtain ⟨s₁, entry, target, made, -, -, rfl⟩ := lockWebDAVResource_ok tree path same run
  have abs : isAbs request.path = true := same ▸ path.abs
  have rows : s₁.metadata = s.metadata ∧ s₁.properties = s.properties ∧ s₁.locks = s.locks ∧
      ∃ kind, s₁.dir.Holds entry.entryID kind := by
    cases target with
    | present found free => exact ⟨rfl, rfl, rfl, _, Directory.holds_of_find found⟩
    | created missing notRoot prepared create =>
      obtain ⟨grown, absent, -⟩ := tree.valid.create_grown abs notRoot create
      obtain ⟨y, shown, -, -, whole⟩ := grown.made _ absent List.prefix_rfl
      exact ⟨rfl, rfl, rfl, _, _, y, shown, by rw [whole rfl]; rfl, rfl⟩
  obtain ⟨metadata, properties, locks, held⟩ := rows
  refine ⟨fun id kind before stays => keeps.holds before stays, fun row member => ?_,
    fun row member => ?_, fun row member => ?_⟩
  · exact .inl ⟨row, metadata ▸ member, rfl, List.not_mem_nil⟩
  · exact .inl ⟨row, properties ▸ member, rfl, List.not_mem_nil⟩
  · rcases List.mem_append.mp member with old | new
    · rw [locks] at old
      exact ⟨.inl ⟨row, old, rfl, List.not_mem_nil⟩, .inl ⟨row, old, rfl⟩⟩
    · rw [List.mem_singleton.mp new, made]
      exact ⟨.inr held, .inr (isAbs_clean abs)⟩

lemma refreshWebDAVLock_carries {path token principal : Text} {timeout : Int}
    {ifHeader : Option IfHeader}
    (run : s.refreshWebDAVLock now path token principal timeout ifHeader = .ok s') :
    Carries s s' [] := by
  obtain ⟨lock, -, -, rfl⟩ := refreshWebDAVLock_ok run
  refine ⟨fun id kind held _ => held, fun row member => ?_, fun row member => ?_,
    fun row member => ?_⟩
  · exact .inl ⟨row, member, rfl, List.not_mem_nil⟩
  · exact .inl ⟨row, member, rfl, List.not_mem_nil⟩
  · obtain ⟨old, before, rfl⟩ := List.mem_map.mp member
    split_ifs <;> exact ⟨.inl ⟨old, before, rfl, List.not_mem_nil⟩, .inl ⟨old, before, rfl⟩⟩

lemma Unlocked.carries (unlocked : Unlocked now s s' lock removed) :
    Carries s s' (removed.map Entry.entryID) := by
  refine .of_keeps unlocked.keeps (fun row member => .inl ?_) (fun row member => .inl ?_)
    fun row member => ?_
  · exact mem_metadataWithout.mp (unlocked.metadata ▸ member)
  · exact mem_propertiesWithout.mp (unlocked.properties ▸ member)
  · rw [unlocked.locks] at member
    obtain ⟨before, stays⟩ := mem_locksWithout.mp member
    exact ⟨List.mem_of_mem_filter before, stays⟩

end TgFile.Store
