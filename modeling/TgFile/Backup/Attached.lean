import TgFile.S3.Attached

/-! # Rows attached to entries when a backup is published

A publication keeps every entry, so it keeps the locks.  A replaced mapping loses its metadata and
properties and gets those of the manifest. -/

namespace TgFile.Store

open Go Go.Path Result WebDAV Backup

variable {s s' : Store} {now : Int} {path jobID : Text} {p p' : Publisher} {policy : ConflictPolicy}
  {manifest : Manifest} {entryID : Nat}

/-- A part of a publication that drops rows, and adds metadata and properties only for one entry
that is there. -/
lemma Attached.published {gained lost : List Nat} (attached : Attached s)
    (published : Publishes s s' gained lost)
    (metadata : ∀ row ∈ s'.metadata, row ∈ s.metadata ∨ s'.dir.Holds row.entryID .file)
    (properties : ∀ row ∈ s'.properties, row ∈ s.properties ∨
      ∃ kind, s'.dir.Holds row.entryID kind) : Attached s' :=
  attached.carried (.of_kept published.keeps metadata properties published.locks)

/-- The entry id that a path denotes. -/
def Names (d : Directory) (path : Text) (entryID : Nat) : Prop :=
  ∃ e, d.view (elements path) = some e ∧ e.entryID = entryID

lemma Names.holds {d : Directory} (names : Names d path entryID) :
    ∃ kind, d.Holds entryID kind := by
  obtain ⟨e, shown, id⟩ := names
  exact ⟨_, _, e, shown, id, rfl⟩

lemma Names.kept {d d' : Directory} (names : Names d path entryID)
    (keeps : Directory.Keeps d d' []) : Names d' path entryID := by
  obtain ⟨e, shown, rfl⟩ := names
  obtain ⟨e', shown', id, -⟩ := keeps.kept _ e shown List.not_mem_nil
  exact ⟨e', shown', id⟩

/-- What the publisher has attached so far, and the entries it remembers. -/
structure PublisherAttached (p : Publisher) : Prop where
  attached : Attached p.store
  known : ∀ known ∈ p.entryByPath, Names p.store.dir known.1 known.2

/-- The publisher knows an entry by one path only. -/
lemma PublisherAttached.path_unique (attached : PublisherAttached p) (tree : SoundTree p.store.dir)
    {known : Text × Nat} (remembered : known ∈ p.entryByPath) (canonical : CanonicalPath known.1)
    (other : CanonicalPath path) (named : Names p.store.dir path entryID)
    (same : known.2 = entryID) : known.1 = path := by
  obtain ⟨x, here, id⟩ := attached.known known remembered
  obtain ⟨y, there, id'⟩ := named
  exact eq_of_elements canonical.1 other.1 canonical.2.1 other.2.1
    (tree.valid.path_unique_of_view here there (id.trans (same.trans id'.symm)))

/-! ## Directories -/

lemma importedDirectory_named (tree : SoundTree s.dir) (canonical : CanonicalPath path)
    {entry : Entry} {reused : Bool} (run : s.importedDirectory now path = .ok (s', entry, reused)) :
    s' = { s with dir := s'.dir } ∧ Names s'.dir path entry.entryID := by
  obtain ⟨abs, cleaned, notRoot⟩ := canonical
  rcases importedDirectory_ok run with ⟨looked, rfl⟩ | ⟨d', made, rfl⟩
  · have here := txStat_ok tree.valid abs looked
    exact ⟨rfl, _, Directory.view_eq_some.mpr ⟨entry, here.symm, rfl⟩, rfl⟩
  · have proper := ObjectPath.elements_ne ⟨⟨path, abs, cleaned⟩, notRoot⟩
    obtain ⟨grown, absent, -⟩ := tree.valid.mkdir_grown abs proper made
    obtain ⟨y, shown, -, -, whole⟩ := grown.made _ absent List.prefix_rfl
    exact ⟨rfl, y, shown, by rw [whole rfl]; rfl⟩

lemma publishDirectory_attached (tree : SoundTree p.store.dir) {item : ManifestDirectory}
    (canonical : CanonicalPath item.path) (before : PublisherAttached p)
    (run : publishDirectory now p item = .ok p') : PublisherAttached p' := by
  obtain ⟨published, -⟩ := publishDirectory_publishes tree canonical run
  simp only [publishDirectory, bind_ok, pure_ok] at run
  obtain ⟨⟨s₁, entry, reused⟩, imported, d', touched, rfl⟩ := run
  obtain ⟨rows, named⟩ := importedDirectory_named tree canonical imported
  have first := importedDirectory_publishes tree canonical imported
  have tree₁ := first.tree tree (by simp)
  have second := updateBackupEntryMetadata_publishes tree₁ entry.entryID item.mode item.ctime
    item.mtime
  -- the directory of the item is where it was when the touch is done
  have last : Names d' item.path entry.entryID := by
    cases reused with
    | false =>
      obtain rfl := Except.ok.inj touched
      exact named.kept second.keeps
    | true =>
      have third := touch_publishes (second.tree tree₁ (by simp)) canonical.1 touched
      exact (named.kept second.keeps).kept third.keeps
  have metadata : s₁.metadata = p.store.metadata := by rw [rows]
  have properties : s₁.properties = p.store.properties := by rw [rows]
  refine ⟨before.attached.published published (fun row member => .inl ?_)
    (fun row member => .inl ?_), fun known member => ?_⟩
  · exact metadata ▸ member
  · exact properties ▸ member
  · rcases List.mem_cons.mp member with rfl | old
    · exact last
    · exact (before.known known old).kept published.keeps

/-! ## Mappings -/

/-- The mapping of an item is at its path and is a file; rows are only dropped, those of a
replaced entry's properties all of them. -/
structure MappingStored (s s' : Store) (path : Text) (entryID : Nat) : Prop where
  file : ∃ e, s'.dir.view (elements path) = some e ∧ e.entryID = entryID ∧ e.fileKind = .file
  metadata : s'.metadata ⊆ s.metadata
  properties : s'.properties ⊆ s.properties
  dropped : ∀ old, s.dir.view (elements path) = some old →
    ∀ row ∈ s'.properties, row.entryID ≠ old.entryID

lemma publishMapping_stored (tree : SoundTree s.dir) {item : Mapping}
    (canonical : CanonicalPath item.path) {targetID : Nat} {entry : Entry} {replaced : List Nat}
    (run : s.publishMapping now policy item targetID = .ok (s', entry, replaced)) :
    MappingStored s s' item.path entry.entryID := by
  obtain ⟨abs, cleaned, notRoot⟩ := canonical
  rcases publishMapping_ok run with ⟨d', looked, made, rfl, -⟩ |
    ⟨old, -, d', looked, -, made, rfl, -⟩
  · have here := txStat_ok tree.valid abs looked
    obtain ⟨recreated, -⟩ := create_recreated tree ⟨⟨item.path, abs, cleaned⟩, notRoot⟩ made
    refine ⟨⟨_, recreated.shown, rfl, recreated.file⟩, List.Subset.refl _, List.Subset.refl _,
      fun old shown => ?_⟩
    rw [Directory.view, ← here] at shown
    cases shown
  · have here := txStat_ok tree.valid abs looked
    obtain ⟨-, atPath, kind, view, -⟩ := tree.valid.replace_spec abs made
    obtain rfl : old = entry := Option.some.inj (here.trans atPath)
    have stored := view (elements item.path)
    rw [if_pos rfl] at stored
    refine ⟨⟨_, stored, rfl, kind⟩, fun _ member => List.mem_of_mem_filter member,
      fun _ member => List.mem_of_mem_filter member, fun x shown row member => ?_⟩
    obtain ⟨y, there, rfl⟩ := Directory.view_eq_some.mp shown
    obtain rfl := Option.some.inj (here.trans there)
    simpa using (List.mem_filter.mp member).2

lemma restoreS3Metadata_mem (run : restoreS3Metadata manifest path s entryID = .ok s') :
    ∀ row ∈ s'.metadata, row ∈ s.metadata ∨ row.entryID = entryID := by
  unfold restoreS3Metadata at run
  split at run
  · obtain rfl := Except.ok.inj run
    exact fun row member => .inl member
  · obtain ⟨-, rfl⟩ := insertS3Metadata_ok run
    intro row member
    exact (List.mem_append.mp member).imp_right fun new => by rw [List.mem_singleton.mp new]

/-- One mapping: the entries stay, and the properties of the entry at its path go. -/
lemma publishMappingItem_attached {gained : List Nat} {item : Mapping}
    (published : PublishedFrom s p gained) (tree : SoundTree p.store.dir)
    (positive : ∀ file ∈ s.files, file.fileID ≠ 0) (canonical : CanonicalPath item.path)
    (before : PublisherAttached p)
    (run : publishMappingItem now jobID manifest policy p item = .ok p') :
    PublisherAttached p' ∧ Directory.Keeps p.store.dir p'.store.dir [] ∧
      p'.store.properties ⊆ p.store.properties ∧
      ∀ old, p.store.dir.view (elements item.path) = some old →
        ∀ row ∈ p'.store.properties, row.entryID ≠ old.entryID := by
  simp only [publishMappingItem, bind_ok, pure_ok] at run
  obtain ⟨_, linkable, ⟨s₁, entry, replaced⟩, stored, s₂, restored, rfl⟩ := run
  rw [published.publishes.linkable] at linkable
  have rows := publishMapping_stored tree canonical stored
  have first := publishMapping_publishes tree canonical stored
  have tree₁ : SoundTree s₁.dir := first.tree tree fun zero =>
    ne_zero_of_linkable positive linkable (List.mem_singleton.mp zero).symm
  have second := first.trans (updateBackupEntryMetadata_publishes tree₁ entry.entryID item.mode
    item.ctime item.mtime)
  have metadata := restoreS3Metadata_mem restored
  obtain ⟨rows', rfl⟩ := restoreS3Metadata_ok restored
  obtain ⟨e, shown, id, file⟩ := rows.file
  have later := (updateBackupEntryMetadata_publishes tree₁ entry.entryID item.mode item.ctime
    item.mtime).keeps
  obtain ⟨e', shown', id', kind'⟩ := later.kept _ e shown List.not_mem_nil
  refine ⟨⟨before.attached.published (second.update rows' _) (fun row member => ?_)
    (fun row member => .inl (rows.properties member)), fun known member => ?_⟩, second.keeps,
    rows.properties, rows.dropped⟩
  · refine (metadata row member).imp (fun old => rows.metadata old) fun own => ?_
    exact ⟨_, e', shown', id'.trans (id.trans own.symm), kind'.trans file⟩
  · rcases List.mem_cons.mp member with rfl | old
    · exact ⟨e', shown', id'.trans id⟩
    · exact (before.known known old).kept second.keeps

/-- All mappings: no property of an entry that an item replaces is left. -/
lemma foldlM_publishMappingItem_attached {items : List Mapping} (tree : SoundTree s.dir)
    (positive : ∀ file ∈ s.files, file.fileID ≠ 0)
    (canonical : ∀ item ∈ items, CanonicalPath item.path)
    (start : ∃ gained, PublishedFrom s p gained) (before : PublisherAttached p)
    (run : items.foldlM (publishMappingItem now jobID manifest policy) p = .ok p') :
    (∃ gained, PublishedFrom s p' gained) ∧ PublisherAttached p' ∧
      Directory.Keeps p.store.dir p'.store.dir [] ∧ p'.store.properties ⊆ p.store.properties ∧
      ∀ item ∈ items, ∀ old, p.store.dir.view (elements item.path) = some old →
        ∀ row ∈ p'.store.properties, row.entryID ≠ old.entryID := by
  induction items generalizing p with
  | nil =>
    obtain rfl := pure_ok.mp run
    obtain ⟨gained, published⟩ := start
    exact ⟨⟨gained, published⟩, before, .refl (published.tree tree positive).valid,
      List.Subset.refl _, by simp⟩
  | cons item items ih =>
    rw [List.foldlM_cons, bind_ok] at run
    obtain ⟨p₁, pass, rest⟩ := run
    obtain ⟨gained, published⟩ := start
    have treeP := published.tree tree positive
    have own := canonical item List.mem_cons_self
    obtain ⟨attached, keeps, subset, dropped⟩ :=
      publishMappingItem_attached published treeP positive own before pass
    obtain ⟨more, attached', keeps', subset', dropped'⟩ :=
      ih (fun later member => canonical later (List.mem_cons_of_mem _ member))
        (published.mapping treeP positive own pass) attached rest
    refine ⟨more, attached', keeps.trans keeps', List.Subset.trans subset' subset, ?_⟩
    intro target member old shown row inRows
    rcases List.mem_cons.mp member with rfl | later
    · exact dropped old shown row (subset' inRows)
    · obtain ⟨e, shown', id, -⟩ := keeps.kept _ old shown List.not_mem_nil
      rw [← id]
      exact dropped' target later e shown' row inRows

/-! ## Properties -/

lemma upsertProperty_mem {rows : List WebDAVProperty} {property : WebDAVProperty} :
    ∀ row ∈ upsertProperty rows property, row ∈ rows ∨ row = property := by
  intro row member
  unfold upsertProperty at member
  split_ifs at member
  · obtain ⟨old, before, rfl⟩ := List.mem_map.mp member
    split_ifs
    · exact .inr rfl
    · exact .inl before
  · exact (List.mem_append.mp member).imp_right List.mem_singleton.mp

/-- The row that a manifest's property becomes on an entry. -/
def propertyRow (property : ManifestProperty) (entryID : Nat) : WebDAVProperty :=
  ⟨entryID, property.name, property.valueXML, property.ctime, property.mtime⟩

/-- A restored property is one of the manifest's, on the entry the publisher remembers. -/
lemma foldlM_publishProperty_mem {entryByPath : List (Text × Nat)}
    {properties : List ManifestProperty}
    (run : properties.foldlM (publishProperty entryByPath) s = .ok s') :
    ∀ row ∈ s'.properties, row ∈ s.properties ∨ ∃ property ∈ properties, ∃ known ∈ entryByPath,
      known.1 = property.path ∧ row = propertyRow property known.2 := by
  refine foldlM_ok (fun t : Store => ∀ row ∈ t.properties, row ∈ s.properties ∨
    ∃ property ∈ properties, ∃ known ∈ entryByPath, known.1 = property.path ∧
      row = propertyRow property known.2) ?_ (fun _ member => .inl member) run
  intro property listed t t' holds pass row member
  unfold publishProperty at pass
  split at pass
  · cases pass
  · rename_i path entryID found
    obtain rfl := Except.ok.inj pass
    rcases upsertProperty_mem row member with old | rfl
    · exact holds row old
    · exact .inr ⟨property, listed, (path, entryID), List.mem_of_find?_eq_some found,
        by simpa using List.find?_some found, rfl⟩

/-- An upsert stores its row and keeps those of other names. -/
lemma mem_upsertProperty {rows : List WebDAVProperty} {property row : WebDAVProperty}
    (stored : row = property ∨ row ∈ rows ∧
      ¬(row.entryID = property.entryID ∧ row.name = property.name)) :
    row ∈ upsertProperty rows property := by
  unfold upsertProperty
  split_ifs with present
  · refine List.mem_map.mpr ?_
    rcases stored with rfl | ⟨member, other⟩
    · obtain ⟨old, member, same⟩ := present
      exact ⟨old, member, if_pos same⟩
    · exact ⟨row, member, if_neg other⟩
  · rcases stored with rfl | ⟨member, -⟩
    · exact List.mem_concat_self
    · exact List.mem_append_left _ member

/-- A row that no property of the list is for outlives the list. -/
lemma foldlM_publishProperty_stays {entryByPath : List (Text × Nat)}
    {properties : List ManifestProperty} {row : WebDAVProperty}
    (run : properties.foldlM (publishProperty entryByPath) s = .ok s')
    (apart : ∀ property ∈ properties, ∀ known ∈ entryByPath, known.1 = property.path →
      ¬(row.entryID = known.2 ∧ row.name = property.name))
    (member : row ∈ s.properties) : row ∈ s'.properties := by
  refine foldlM_ok (fun t : Store => row ∈ t.properties) ?_ member run
  intro property listed t t' holds pass
  unfold publishProperty at pass
  split at pass
  · cases pass
  · rename_i path entryID found
    obtain rfl := Except.ok.inj pass
    exact mem_upsertProperty (.inr ⟨holds, apart property listed _
      (List.mem_of_find?_eq_some found) (by simpa using List.find?_some found)⟩)

/-- Every property of a list without repetitions is on its entry in the end. -/
lemma foldlM_publishProperty_restored {entryByPath : List (Text × Nat)}
    {properties : List ManifestProperty}
    (run : properties.foldlM (publishProperty entryByPath) s = .ok s')
    (apart : properties.Pairwise fun first later => ∀ known ∈ entryByPath,
      known.1 = first.path → ∀ other ∈ entryByPath, other.1 = later.path →
      ¬(known.2 = other.2 ∧ first.name = later.name)) :
    ∀ property ∈ properties, ∃ known ∈ entryByPath, known.1 = property.path ∧
      propertyRow property known.2 ∈ s'.properties := by
  induction properties generalizing s with
  | nil => simp
  | cons first rest ih =>
    rw [List.foldlM_cons, bind_ok] at run
    obtain ⟨t, pass, later⟩ := run
    obtain ⟨own, apart⟩ := List.pairwise_cons.mp apart
    intro property member
    rcases List.mem_cons.mp member with rfl | member
    · unfold publishProperty at pass
      split at pass
      · cases pass
      · rename_i path entryID found
        obtain rfl := Except.ok.inj pass
        have known := List.mem_of_find?_eq_some found
        have atPath : path = property.path := by simpa using List.find?_some found
        refine ⟨_, known, atPath, foldlM_publishProperty_stays later ?_
          (mem_upsertProperty (.inl rfl))⟩
        exact fun next listed => own next listed _ known atPath
    · exact ih later apart property member

lemma publishWebDAVProperties_attached (tree : SoundTree p.store.dir)
    (abs : ∀ item ∈ manifest.webDAVProperties, isAbs item.path = true)
    (before : PublisherAttached p) (run : publishWebDAVProperties now manifest p = .ok p') :
    Attached p'.store ∧ (∀ row ∈ p'.store.properties, row ∈ p.store.properties ∨
      ∃ property ∈ manifest.webDAVProperties, ∃ known ∈ p.entryByPath,
        known.1 = property.path ∧ row = propertyRow property known.2) ∧
      ∃ t, manifest.webDAVProperties.foldlM (publishProperty p.entryByPath) p.store = .ok t ∧
        t.properties = p'.store.properties := by
  obtain ⟨published, -⟩ := publishWebDAVProperties_publishes tree abs run
  simp only [publishWebDAVProperties, bind_ok, pure_ok] at run
  obtain ⟨s₁, stored, s₂, touched, rfl⟩ := run
  have origin := foldlM_publishProperty_mem stored
  have first : s₁.metadata = p.store.metadata := by
    refine foldlM_ok (fun t : Store => t.metadata = p.store.metadata) ?_ rfl stored
    intro property _ t t' same pass
    obtain ⟨rows, rfl⟩ := publishProperty_ok pass
    exact same
  have later : s₂.metadata = s₁.metadata ∧ s₂.properties = s₁.properties := by
    refine foldlM_ok (fun t : Store => t.metadata = s₁.metadata ∧ t.properties = s₁.properties) ?_
      ⟨rfl, rfl⟩ touched
    intro changed _ t t' same pass
    simp only [touchChanged, bind_ok, pure_ok] at pass
    obtain ⟨d', -, rfl⟩ := pass
    exact same
  rw [← later.2] at origin
  refine ⟨before.attached.published published (fun row member => .inl ?_) fun row member => ?_,
    origin, s₁, stored, later.2.symm⟩
  · rw [← first, ← later.1]
    exact member
  · refine (origin row member).imp_right fun ⟨property, _, known, remembered, _, same⟩ => ?_
    rw [same]
    exact ((before.known known remembered).kept published.keeps).holds

/-! ## The whole publication -/

/-- What a publication leaves attached to the entry of a mapping it replaced. -/
structure Republished (s s' : Store) (manifest : Manifest) (path : Text) (old : Entry) : Prop where
  kept : Names s'.dir path old.entryID
  locks : s'.locks = s.locks
  properties : ∀ row, row ∈ s'.properties ∧ row.entryID = old.entryID ↔
    ∃ property ∈ manifest.webDAVProperties, property.path = path ∧
      row = propertyRow property old.entryID

lemma publishBackupImport_attached (tree : SoundTree s.dir)
    (positive : ∀ file ∈ s.files, file.fileID ≠ 0) (attached : Attached s) (valid : manifest.Valid)
    (run : s.publishBackupImport now jobID manifest policy = .ok s') :
    Attached s' ∧ ∀ item ∈ manifest.mappings, ∀ old,
      s.dir.find (elements item.path) = some old → Republished s s' manifest item.path old := by
  obtain ⟨_, _, _, whole, -, -, sameLocks⟩ := publishBackupImport_effect tree positive valid run
  simp only [publishBackupImport, bind_ok] at run
  obtain ⟨_, -, _, -, p₁, directories, p₂, mappings, p₃, properties, closed⟩ := run
  obtain ⟨published₁, attached₁⟩ : PublishedFrom s p₁ [] ∧ PublisherAttached p₁ := by
    refine foldlM_ok (fun p : Publisher => PublishedFrom s p [] ∧ PublisherAttached p) ?_
      ⟨⟨.refl tree, by simp⟩, attached, by simp⟩ directories
    rintro item member p p' ⟨before, rows⟩ pass
    have treeP := before.tree tree positive
    have canonical := valid.directories item member
    obtain ⟨published, replaced⟩ := publishDirectory_publishes treeP canonical pass
    exact ⟨before.trans published replaced, publishDirectory_attached treeP canonical rows pass⟩
  obtain ⟨⟨gained, published₂⟩, attached₂, -, -, dropped⟩ :=
    foldlM_publishMappingItem_attached tree positive
      (fun item member => (valid.mappings item member).1) ⟨[], published₁⟩ attached₁ mappings
  have tree₂ := published₂.tree tree positive
  obtain ⟨attached₃, origin, t, upserts, rows⟩ :=
    publishWebDAVProperties_attached tree₂ (abs_of_valid valid)
    attached₂ properties
  simp only [completePublish, updateJob, bind_ok, pure_ok] at closed
  obtain ⟨_, marked, _, -, rfl⟩ := closed
  obtain ⟨hit, rfl, -⟩ := markMappingFilesPending_ok marked
  refine ⟨⟨attached₃.metadata, attached₃.properties, attached₃.locks, attached₃.abs⟩, ?_⟩
  intro item member old found
  have shown := Directory.view_eq_some.mpr ⟨old, found, rfl⟩
  have named : Names s.dir item.path old.entryID := ⟨_, shown, rfl⟩
  have namedNow := named.kept published₂.publishes.keeps
  have canonical := canonical_of_property valid
  have atItem := (valid.mappings item member).1
  refine ⟨named.kept whole, sameLocks, fun row => ⟨?_, ?_⟩⟩
  · rintro ⟨inRows, own⟩
    rcases origin row inRows with left | ⟨property, listed, known, remembered, atPath, rfl⟩
    · -- the mapping of the item has dropped the properties of its entry
      obtain ⟨e, shown₁, id, -⟩ := published₁.publishes.keeps.kept _ _ shown List.not_mem_nil
      exact absurd (own.trans id.symm) (dropped item member e shown₁ row left)
    · refine ⟨property, listed, atPath.symm.trans ?_, by rw [← own]; rfl⟩
      exact attached₂.path_unique tree₂ remembered (atPath ▸ canonical property listed) atItem
        namedNow own
  · rintro ⟨property, listed, atPath, rfl⟩
    refine ⟨?_, rfl⟩
    have apart := List.pairwise_map.mp valid.named
    obtain ⟨known, remembered, same, stored⟩ :=
      foldlM_publishProperty_restored upserts (apart.imp_of_mem fun {first later} inFirst inLater
          different known remembered atFirst other remembered' atLater => by
        rintro ⟨sameID, sameName⟩
        refine different (Prod.ext ?_ sameName)
        rw [← atFirst, ← atLater]
        exact attached₂.path_unique tree₂ remembered (atFirst ▸ canonical first inFirst)
          (atLater ▸ canonical later inLater) (attached₂.known other remembered') sameID)
        property listed
    have here := attached₂.known known remembered
    rw [same, atPath] at here
    obtain ⟨x, there, id⟩ := here
    obtain ⟨y, there', id'⟩ := namedNow
    obtain rfl := Option.some.inj (there.symm.trans there')
    rw [rows] at stored
    rw [← id', id]
    exact stored

end TgFile.Store
