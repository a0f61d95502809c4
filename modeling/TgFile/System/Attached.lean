import TgFile.Backup.Attached
import TgFile.System.Effects
import TgFile.WebDAV.Protection

/-! # No orphan protocol state

In every run each row of the metadata, property and lock tables belongs to an entry of the
directory; and what was attached to an overwritten entry is attached to its successor. -/

namespace TgFile

open Go Go.Path Result WebDAV Store

variable {env : Env} {archive : Backup.Archive} {s s' : Store} {now : Int}

lemma attached_empty : Attached Store.empty where
  metadata _ member := nomatch member
  properties _ member := nomatch member
  locks _ member := nomatch member
  abs _ member := nomatch member

lemma SamePlaces.attached (same : SamePlaces s s') (attached : Attached s) : Attached s' where
  metadata := by
    rw [same.metadata, same.dir]
    exact attached.metadata
  properties := by
    rw [same.properties, same.dir]
    exact attached.properties
  locks := by
    rw [same.locks, same.dir]
    exact attached.locks
  abs := by
    rw [same.locks]
    exact attached.abs

/-! ## Requests -/

lemma DavRequest.attached {request : DavRequest} {options : MutationOptions} (sound : Sound s)
    (attached : Attached s) (run : request.run env now options s = .ok s') : Attached s' := by
  cases request with
  | cleanup =>
    refine (cleanup_rule Attached sound attached.abs ?_ attached run).2
    intro t t' lock member _ sound before pass
    obtain ⟨removed, unlocked, -⟩ := expireLock_ok sound.tree (attached.abs lock member) pass
    exact before.carried unlocked.carries
  | mkcol path => exact attached.carried (createWebDAVCollection_carries sound.tree path run)
  | put path fileID size =>
    simp only [DavRequest.run, map_ok] at run
    obtain ⟨⟨_, created⟩, run, rfl⟩ := run
    exact attached.carried (publishWebDAVFile_carries sound.tree path run)
  | delete path =>
    obtain ⟨removed, carries⟩ := deleteWebDAVResource_carries sound.tree path run
    exact attached.carried carries
  | copy source destination overwrite recursive =>
    simp only [DavRequest.run, map_ok] at run
    obtain ⟨⟨_, created⟩, run, rfl⟩ := run
    obtain ⟨removed, carries⟩ := copyWebDAVResource_carries sound.tree source destination run
    exact attached.carried carries
  | move source destination overwrite =>
    simp only [DavRequest.run, map_ok] at run
    obtain ⟨⟨_, created⟩, run, rfl⟩ := run
    obtain ⟨removed, carries⟩ := moveWebDAVResource_carries sound.tree source destination run
    exact attached.carried carries
  | proppatch path patches =>
    exact attached.carried (patchWebDAVProperties_carries sound.tree path run)
  | lock path depth ownerXML principal timeout unpublishedFileID uuid =>
    simp only [DavRequest.run, map_ok] at run
    obtain ⟨⟨_, lock, created⟩, run, rfl⟩ := run
    exact attached.carried (lockWebDAVResource_carries sound.tree path rfl run)
  | refresh path token principal timeout =>
    exact attached.carried (refreshWebDAVLock_carries run)
  | unlock path token principal =>
    obtain ⟨lock, -, -, removed, unlocked⟩ := unlockWebDAVResource_ok sound.tree path run
    exact attached.carried unlocked.carries

lemma S3Request.attached {request : S3Request} (sound : Sound s) (attached : Attached s)
    (run : request.run env now s = .ok s') : Attached s' := by
  by_cases still : request.publishes = false
  · exact (S3Request.samePlaces still run).attached attached
  · cases request with
    | publish path fileID size metadata condition =>
      simp only [S3Request.run, map_ok] at run
      obtain ⟨⟨_, entry⟩, run, rfl⟩ := run
      obtain ⟨removed, carries⟩ := publishS3ObjectTx_carries sound.tree path run
      exact attached.carried carries
    | copy source destination metadata sourceCondition destinationCondition =>
      obtain ⟨removed, carries⟩ := copyS3Object_carries sound.tree source destination run
      exact attached.carried carries
    | delete path condition =>
      simp only [S3Request.run, map_ok] at run
      obtain ⟨⟨_, deleted⟩, run, rfl⟩ := run
      obtain ⟨removed, carries⟩ := deleteS3Object_carries sound.tree path run
      exact attached.carried carries
    | complete request path located =>
      simp only [S3Request.run, map_ok] at run
      obtain ⟨⟨_, result⟩, run, rfl⟩ := run
      rcases complete_publishes run with same | ⟨t, published, _, _, _, _, same, linked, later⟩
      · exact same.attached attached
      · rw [← located] at linked
        obtain ⟨removed, carries⟩ := publishS3ObjectTx_carries (same.sound sound).tree path linked
        exact later.attached ((same.attached attached).carried carries)
    | _ => exact absurd rfl still

lemma JobRequest.attached {request : JobRequest} (sound : Sound s) (attached : Attached s)
    (run : request.run env archive now s = .ok s') : Attached s' := by
  by_cases root : request = .importRoot
  · subst root
    simp only [JobRequest.run, prepareImportRoot, bind_ok, pure_ok] at run
    obtain ⟨d', made, rfl⟩ := run
    exact attached.carried (.of_dir (dbMkdir_effect sound.tree (by decide) made).1)
  · by_cases publish : ∃ jobID policy, request = .publish jobID policy
    · obtain ⟨jobID, policy, rfl⟩ := publish
      exact (publishBackupImport_attached sound.tree sound.positive attached
        (archive.valid jobID) run).1
    · refine (JobRequest.samePlaces run root fun jobID policy same => ?_).attached attached
      exact publish ⟨jobID, policy, same⟩

lemma createFileLink_attached (sound : Sound s) (attached : Attached s) {path : ObjectPath}
    {fileID : Nat} {size : Int} {isDir : Bool}
    (run : s.createFileLink now path.text fileID size isDir = .ok s') : Attached s' := by
  obtain ⟨gained, keeps, -⟩ := createFileLink_effect sound.tree path run
  cases isDir with
  | true =>
    simp only [createFileLink, if_true, bind_ok, pure_ok] at run
    obtain ⟨d', -, rfl⟩ := run
    exact attached.carried (.of_dir keeps)
  | false =>
    simp only [createFileLink, Bool.false_eq_true, if_false, bind_ok, pure_ok] at run
    obtain ⟨_, -, ⟨d', entry⟩, -, rfl⟩ := run
    exact attached.carried (.of_dir keeps)

/-! ## Runs -/

/-- The invariant of the runs. -/
structure ProtocolSound (s : Store) : Prop where
  sound : Sound s
  attached : Attached s

/-- An action keeps the invariant. -/
lemma ProtocolSound.step {σ : System} (before : ProtocolSound σ.store) (action : Action) :
    ProtocolSound (σ.step env archive action).store := by
  cases beside : action.beside with
  | true =>
    have same : SamePlaces σ.store (σ.step env archive action).store := step_samePlaces beside
    exact ⟨same.sound before.sound, same.attached before.attached⟩
  | false =>
    cases action with
    | dav request options =>
      rcases System.step_dav request options with same | ⟨-, run⟩
      · rw [same]
        exact before
      · exact ⟨DavRequest.sound before.sound before.attached.abs run,
          DavRequest.attached before.sound before.attached run⟩
    | s3 request =>
      rcases System.step_s3 request with same | run
      · rw [same]
        exact before
      · exact ⟨S3Request.sound before.sound run,
          S3Request.attached before.sound before.attached run⟩
    | job request =>
      rcases System.step_job request with same | run
      · rw [same]
        exact before
      · exact ⟨JobRequest.sound before.sound run,
          JobRequest.attached before.sound before.attached run⟩
    | link path fileID size isDir =>
      rcases System.step_link path fileID size isDir with same | run
      · rw [same]
        exact before
      · exact ⟨createFileLink_sound before.sound run,
          createFileLink_attached before.sound before.attached run⟩
    | _ => cases beside

/-- Every reachable state has it. -/
lemma System.protocolSound {allowed : System → Action → Prop} {σ : System}
    (reachable : System.Reachable env archive allowed σ) : ProtocolSound σ.store := by
  induction reachable with
  | init clock => exact ⟨sound_empty, attached_empty⟩
  | step _ action _ ih => exact ih.step action

/-! ## Overwrites -/

/-- The path of the object that a request publishes. -/
def S3Request.target : S3Request → Option ObjectPath
  | .publish path _ _ _ _ => some path
  | .complete _ path _ => some path
  | _ => none

lemma publishS3ObjectTx_rebound (tree : SoundTree s.dir) (path : ObjectPath) {fileID : Nat}
    {size : Int} {metadata : S3ObjectMetadata} {condition : Option S3Condition} {entry old : Entry}
    (found : s.dir.find (elements path.text) = some old)
    (run : s.publishS3ObjectTx env now path.text fileID size metadata condition =
      .ok (s', entry)) :
    ∃ current, s'.dir.find (elements path.text) = some current ∧
      Rebound s s' old.entryID current.entryID := by
  obtain ⟨removed, lost, hit, -, -, -, shown, -, rebinds⟩ := publishS3ObjectTx_effect tree path run
  obtain ⟨current, atPath, same⟩ := Directory.view_eq_some.mp shown
  refine ⟨current, atPath, ?_⟩
  rw [← Directory.untimed_entryID current, same, Directory.untimed_entryID]
  exact rebinds.rebound found

lemma SamePlaces.rebound_left {t : Store} {old current : Nat} (same : SamePlaces s t)
    (rebound : Rebound t s' old current) : Rebound s s' old current where
  properties := by
    rw [← same.properties]
    exact rebound.properties
  locks := by
    rw [← same.locks]
    exact rebound.locks

lemma SamePlaces.rebound_right {t : Store} {old current : Nat} (same : SamePlaces t s')
    (rebound : Rebound s t old current) : Rebound s s' old current where
  properties := by
    rw [same.properties]
    exact rebound.properties
  locks := by
    rw [same.locks]
    exact rebound.locks

/-- What was attached to the entry of a key is attached to its entry after the request. -/
lemma S3Request.rebound {request : S3Request} {path : ObjectPath} {old : Entry} (sound : Sound s)
    (target : request.target = some path) (found : s.dir.find (elements path.text) = some old)
    (run : request.run env now s = .ok s') :
    ∃ current, s'.dir.find (elements path.text) = some current ∧
      Rebound s s' old.entryID current.entryID := by
  cases request with
  | publish path fileID size metadata condition =>
    obtain rfl := Option.some.inj target
    simp only [S3Request.run, map_ok] at run
    obtain ⟨⟨_, entry⟩, run, rfl⟩ := run
    exact publishS3ObjectTx_rebound sound.tree path found run
  | complete request path located =>
    obtain rfl := Option.some.inj target
    simp only [S3Request.run, map_ok] at run
    obtain ⟨⟨_, result⟩, run, rfl⟩ := run
    rcases complete_publishes run with same | ⟨t, published, _, _, _, _, same, linked, later⟩
    · refine ⟨old, by rw [same.dir]; exact found, same.rebound_right ?_⟩
      exact ⟨fun row member own => own ▸ member, fun lock member own => ⟨lock, member, rfl, own⟩⟩
    · rw [← located] at linked
      obtain ⟨current, atPath, rebound⟩ := publishS3ObjectTx_rebound (same.sound sound).tree path
        (by rw [same.dir]; exact found) linked
      exact ⟨current, by rw [later.dir]; exact atPath,
        later.rebound_right (same.rebound_left rebound)⟩
  | _ => cases target

/-- **No orphan protocol state.**  In every reachable state every attached row belongs to an entry,
metadata to a file.  PutObject and CompleteMultipartUpload hand the properties and locks of the
entry they overwrite to the new one; a backup that replaces a mapping keeps its entry and the
locks, and its properties are those of the manifest. -/
theorem reachable_attached {σ : System}
    (reachable : System.Reachable env archive (fun _ _ => True) σ) :
    (∀ row ∈ σ.store.metadata, ∃ e ∈ σ.store.dir.entries,
      e.entryID = row.entryID ∧ e.fileKind ≠ .dir) ∧
    (∀ row ∈ σ.store.properties, ∃ e ∈ σ.store.dir.entries, e.entryID = row.entryID) ∧
    (∀ lock ∈ σ.store.locks, ∃ e ∈ σ.store.dir.entries, e.entryID = lock.rootEntryID) ∧
    (∀ request path s', S3Request.target request = some path →
      request.run env σ.clock σ.store = .ok s' →
      ∀ old, σ.store.dir.find (elements path.text) = some old →
        ∃ current, s'.dir.find (elements path.text) = some current ∧
          Rebound σ.store s' old.entryID current.entryID) ∧
    ∀ jobID policy s', (JobRequest.publish jobID policy).run env archive σ.clock σ.store = .ok s' →
      ∀ item ∈ (archive.manifest jobID).mappings, ∀ old,
        σ.store.dir.find (elements item.path) = some old →
          Republished σ.store s' (archive.manifest jobID) item.path old := by
  obtain ⟨sound, attached⟩ := System.protocolSound reachable
  refine ⟨fun row member => ?_, fun row member => ?_, fun lock member => ?_, ?_, ?_⟩
  · obtain ⟨e, present, id, file⟩ := (attached.metadata row member).mem_entries
    exact ⟨e, present, id, by simp [file]⟩
  · obtain ⟨kind, held⟩ := attached.properties row member
    obtain ⟨e, present, id, -⟩ := held.mem_entries
    exact ⟨e, present, id⟩
  · obtain ⟨kind, held⟩ := attached.locks lock member
    obtain ⟨e, present, id, -⟩ := held.mem_entries
    exact ⟨e, present, id⟩
  · exact fun request path s' target run old found => S3Request.rebound sound target found run
  · intro jobID policy s' run item member old found
    exact (publishBackupImport_attached sound.tree sound.positive attached (archive.valid jobID)
      run).2 item member old found

/-! ## An overwritten object and a replaced mapping -/

/-- The path `/a`. -/
def objectA : ObjectPath := ⟨⟨"/a".toList, by decide, by decide⟩, by decide⟩

/-- Metadata without values. -/
def noMetadata : S3ObjectMetadata := ⟨0, [], [], [], [], [], [], [], [], [], [], [], [], 0, 0⟩

/-- One empty File, to be published as `/a` with the properties. -/
def manifestA (properties : List Backup.ManifestProperty) : Backup.Manifest where
  files := [⟨"f".toList, "1".toList, .physical, 0, 0, 0, [], [], []⟩]
  directories := []
  mappings := [⟨"/a".toList, "f".toList, 0, 0o644, 0, 0⟩]
  s3Objects := []
  webDAVProperties := properties

lemma manifestA_valid {properties : List Backup.ManifestProperty}
    (atA : ∀ item ∈ properties, item.path = "/a".toList)
    (named : (properties.map fun item => (item.path, item.name)).Nodup) :
    (manifestA properties).Valid where
  refs := List.nodup_singleton _
  shape file member := by
    obtain rfl := List.mem_singleton.mp member
    exact .inl ⟨rfl, rfl, rfl, rfl, by simp, rfl⟩
  sources file member := by
    obtain rfl := List.mem_singleton.mp member
    exact ⟨by simp, by decide⟩
  directories := by simp [manifestA]
  mappings item member := by
    obtain rfl := List.mem_singleton.mp member
    exact ⟨⟨by decide, by decide, by decide⟩, _, List.mem_cons_self, rfl, rfl⟩
  properties item member := .inr ⟨_, List.mem_cons_self, (atA item member).symm⟩
  named := named

/-- The property `q` of `/a`. -/
def propertyQ : Backup.ManifestProperty :=
  ⟨"/a".toList, ⟨"urn:x".toList, "q".toList⟩, "w".toList, 5, 6⟩

/-- The import `j` has no property, every other one has `q`. -/
def archiveA : Backup.Archive where
  manifest jobID := manifestA (if jobID = "j".toList then [] else [propertyQ])
  valid jobID := manifestA_valid (by split_ifs <;> simp [propertyQ]) (by split_ifs <;> simp)

/-- `/a` with the property `p`. -/
def propertyObject : List Action :=
  [.job .importRoot, .createDraft 0 false, .finishCreate 0, .link objectA 1 0 false,
    .dav (.proppatch objectA.toResource [⟨true, ⟨"urn:x".toList, "p".toList⟩, "v".toList⟩])
      noOptions]

/-- An import up to its publication. -/
def readyImport (jobID : Text) : List Action :=
  [.job (.createImport jobID false .replace), .job (.queueImport jobID "x".toList),
    .job (.transition jobID .queued .validating), .job (.transition jobID .validating .staging),
    .job (.beginImport jobID), .job (.finishFiles jobID),
    .job (.transition jobID .staging .publishing)]

/-- A lock on `/a`, a second File and an import of `/a` with `q`. -/
def lockedObject : List Action :=
  propertyObject ++
    [.dav (.lock objectA.toResource .zero [] "alice".toList 3600000 0 "u".toList) noOptions,
      .createDraft 0 false, .finishCreate 0] ++ readyImport "k".toList

/-- PutObject of the second File under the key of `/a`, and the publication of the import. -/
theorem lockedObject_rebound :
    let σ := (System.init 0).run .plain archiveA lockedObject
    σ.store.properties.length = 1 ∧ σ.store.locks.length = 1 ∧
    ∃ old, σ.store.dir.find (elements objectA.text) = some old ∧
      (∃ s' current,
        (S3Request.publish objectA 2 0 noMetadata none).run .plain σ.clock σ.store = .ok s' ∧
        s'.dir.find (elements objectA.text) = some current ∧
        Rebound σ.store s' old.entryID current.entryID) ∧
      ∃ s', (JobRequest.publish "k".toList .replace).run .plain archiveA σ.clock σ.store = .ok s' ∧
        Republished σ.store s' (manifestA [propertyQ]) objectA.text old := by
  intro σ
  have reachable : System.Reachable .plain archiveA (fun _ _ => True) σ :=
    (System.Reachable.init 0).run lockedObject
  obtain ⟨old, found⟩ : ∃ old, σ.store.dir.find (elements objectA.text) = some old :=
    Option.isSome_iff_exists.mp (by decide +kernel)
  obtain ⟨-, -, -, overwritten, replaced⟩ := reachable_attached reachable
  refine ⟨by decide +kernel, by decide +kernel, old, found, ?_, ?_⟩
  · obtain ⟨s', run⟩ : ∃ s', (S3Request.publish objectA 2 0 noMetadata none).run .plain σ.clock
        σ.store = .ok s' := exists_of_succeeds (by decide +kernel)
    obtain ⟨current, atPath, rebound⟩ := overwritten _ objectA s' rfl run old found
    exact ⟨s', current, run, atPath, rebound⟩
  · obtain ⟨s', run⟩ : ∃ s', (JobRequest.publish "k".toList .replace).run .plain archiveA σ.clock
        σ.store = .ok s' := exists_of_succeeds (by decide +kernel)
    exact ⟨s', run, replaced _ _ s' run _ List.mem_cons_self old found⟩

/-- `/a` with `p`, and an import of `/a` without properties. -/
def importOverProperty : List Action := propertyObject ++ readyImport "j".toList

/-- The publication succeeds and leaves `/a` its entry but not the property. -/
theorem replaced_mapping_loses_property :
    let σ := (System.init 0).run .plain archiveA importOverProperty
    System.Reachable .plain archiveA (fun _ _ => True) σ ∧
      ∃ s', (JobRequest.publish "j".toList .replace).run .plain archiveA σ.clock σ.store = .ok s' ∧
      ∃ old, σ.store.dir.find (elements objectA.text) = some old ∧
      ∃ current, s'.dir.find (elements objectA.text) = some current ∧
      (∃ row ∈ σ.store.properties, row.entryID = old.entryID) ∧
      ¬∃ row ∈ s'.properties, row.entryID = current.entryID := by
  intro σ
  refine ⟨(System.Reachable.init 0).run importOverProperty, _, rfl, _, rfl, _, rfl, ?_⟩
  decide +kernel

/-- **The tree survives every protocol.**  After any actions of S3, WebDAV, backups, links, the
worker and purges, the entries are a tree of names, no mapping refers to the id `0`, and the id of
every File is a positive one that was handed out. -/
theorem run_keeps_tree (clock : Int) (actions : List Action) :
    let s := ((System.init clock).run env archive actions).store
    s.dir.Valid ∧ s.dir.Shaped ∧ ¬s.dir.Maps 0 ∧
      ∀ file ∈ s.files, file.fileID ≠ 0 ∧ file.fileID < s.nextFileID := by
  intro s
  have start : System.Reachable env archive (fun _ _ => True) (.init clock) := .init clock
  obtain ⟨⟨tree, positive, bounded, -⟩, -⟩ := System.protocolSound (start.run actions)
  exact ⟨tree.valid, tree.shaped, tree.noZero, fun file member =>
    ⟨positive file member, bounded file member⟩⟩

end TgFile
