import TgFile.Backup.Effects
import TgFile.Backup.Snapshot
import TgFile.System.Rules
import Mathlib.Logic.Relation

/-! # Requests as changes of the mappings

Every transaction that changes the directory is a sequence of steps that map only Files which the
check before a link accepts, or the empty File that a LOCK request brings along. -/

namespace TgFile

open Go Go.Path Result WebDAV Store

variable {env : Env} {archive : Backup.Archive} {s s' : Store} {now : Int} {prepared : Nat → Prop}
  {fileID : Nat} {jobID : Text} {file : Backup.File} {request : JobRequest} {staged : StagedPart}

/-- A change of the directory that maps linkable Files, or prepared ones. -/
def RefStep (now : Int) (prepared : Nat → Prop) (s s' : Store) : Prop :=
  ∃ gained lost hit, RefEffect now s s' gained lost hit ∧
    ∀ fileID ∈ gained, s.ensureFileTreeCanBeLinked fileID = .ok () ∨ prepared fileID

/-- The File a request brings along. -/
def DavRequest.prepares : DavRequest → Nat → Prop
  | .lock _ _ _ _ _ unpublishedFileID _, fileID => fileID = unpublishedFileID ∧ fileID ≠ 0
  | _, _ => False

/-- The ids of Files. -/
structure Sound (s : Store) : Prop where
  tree : SoundTree s.dir
  positive : ∀ file ∈ s.files, file.fileID ≠ 0
  bounded : ∀ file ∈ s.files, file.fileID < s.nextFileID
  next : s.nextFileID ≠ 0

lemma sound_empty : Sound Store.empty where
  tree := ⟨Directory.valid_empty, Directory.shaped_empty, fun ⟨q, e, shown, _⟩ => by
    rw [show Store.empty.dir.view q = none from Directory.view_empty q] at shown
    cases shown⟩
  positive file member := nomatch member
  bounded file member := nomatch member
  next := by decide

/-- A step on the references keeps the store sound. -/
lemma RefStep.sound (step : RefStep now prepared s s') (notZero : ¬prepared 0) (sound : Sound s) :
    Sound s' := by
  obtain ⟨gained, lost, hit, effect, linkable⟩ := step
  refine ⟨sound.tree.of_remaps effect.valid effect.shaped effect.remaps fun zero => ?_, ?_, ?_, ?_⟩
  · rcases linkable 0 zero with linked | ready
    · exact ne_zero_of_linkable sound.positive linked rfl
    · exact notZero ready
  · rw [effect.same.files]
    exact sound.positive
  · rw [effect.same.files, effect.same.nextFileID]
    exact sound.bounded
  · rw [effect.same.nextFileID]
    exact sound.next

lemma DavRequest.not_prepares_zero (request : DavRequest) : ¬request.prepares 0 := by
  cases request <;> simp [DavRequest.prepares]

lemma RefStep.of_effect {lost hit : List Nat} (effect : RefEffect now s s' [] lost hit) :
    RefStep now prepared s s' :=
  ⟨[], lost, hit, effect, by simp⟩

lemma RefStep.of_linked {gained lost hit : List Nat} (effect : RefEffect now s s' gained lost hit)
    (linkable : ∀ fileID ∈ gained, s.ensureFileTreeCanBeLinked fileID = .ok ()) :
    RefStep now prepared s s' :=
  ⟨gained, lost, hit, effect, fun fileID member => .inl (linkable fileID member)⟩

/-! ## WebDAV -/

/-- The clean-up of expired locks, one lock after the other. -/
lemma cleanup_rule (inv : Store → Prop) (sound : Sound s)
    (abs : ∀ lock ∈ s.locks, isAbs lock.rootPath = true)
    (pass : ∀ t t' lock, lock ∈ s.locks → lock.expiresAt ≤ now → Sound t → inv t →
      expireLock now t lock = .ok t' → inv t')
    (start : inv s) (run : s.cleanupExpiredWebDAVLocks now = .ok s') : Sound s' ∧ inv s' := by
  refine foldlM_ok (fun t => Sound t ∧ inv t) ?_ ⟨sound, start⟩ run
  rintro lock member t t' ⟨sound, holds⟩ expired
  have listed := Sqlite.mem_orderBy.mp member
  simp only [List.mem_filter, decide_eq_true_eq] at listed
  obtain ⟨removed, unlocked, -⟩ := expireLock_ok sound.tree (abs lock listed.1) expired
  obtain ⟨lost, hit, effect⟩ := unlocked.effect
  have step : RefStep now (fun _ => False) t t' := .of_effect effect
  exact ⟨step.sound id sound, pass t t' lock listed.1 listed.2 sound holds expired⟩

lemma DavRequest.refSteps {request : DavRequest} {options : MutationOptions} (sound : Sound s)
    (abs : ∀ lock ∈ s.locks, isAbs lock.rootPath = true)
    (run : request.run env now options s = .ok s') :
    Relation.ReflTransGen (RefStep now request.prepares) s s' := by
  cases request with
  | cleanup =>
    refine (cleanup_rule (fun t => Relation.ReflTransGen (RefStep now _) s t) sound abs ?_ .refl
      run).2
    intro t t' lock member _ sound before pass
    obtain ⟨removed, unlocked, -⟩ := expireLock_ok sound.tree (abs lock member) pass
    obtain ⟨lost, hit, effect⟩ := unlocked.effect
    exact before.tail (.of_effect effect)
  | mkcol path =>
    exact .single (.of_effect (createWebDAVCollection_effect sound.tree path run).2.1)
  | put path fileID size =>
    simp only [DavRequest.run, map_ok] at run
    obtain ⟨⟨_, created⟩, run, rfl⟩ := run
    obtain ⟨lost, hit, e, -, effect, linkable, -⟩ := publishWebDAVFile_effect sound.tree path run
    exact .single (.of_linked effect (by simpa using linkable))
  | delete path =>
    obtain ⟨removed, lost, hit, -, effect, -⟩ := deleteWebDAVResource_effect sound.tree path run
    exact .single (.of_effect effect)
  | copy source destination overwrite recursive =>
    simp only [DavRequest.run, map_ok] at run
    obtain ⟨⟨_, created⟩, run, rfl⟩ := run
    obtain ⟨removed, lost, hit, -, effect, -⟩ :=
      copyWebDAVResource_effect sound.tree source destination run
    exact .single (.of_effect effect)
  | move source destination overwrite =>
    simp only [DavRequest.run, map_ok] at run
    obtain ⟨⟨_, created⟩, run, rfl⟩ := run
    obtain ⟨removed, lost, hit, -, effect, -⟩ :=
      moveWebDAVResource_effect sound.tree source destination run
    exact .single (.of_effect effect)
  | proppatch path patches =>
    exact .single (.of_effect (patchWebDAVProperties_effect sound.tree path run).2.1)
  | lock path depth ownerXML principal timeout unpublishedFileID uuid =>
    simp only [DavRequest.run, map_ok] at run
    obtain ⟨⟨_, lock, created⟩, run, rfl⟩ := run
    obtain ⟨-, gained, effect, own⟩ := lockWebDAVResource_effect sound.tree path rfl run
    exact .single ⟨gained, [], [], effect, fun fileID member => .inr (own fileID member)⟩
  | refresh path token principal timeout =>
    obtain ⟨lock, -, -, rfl⟩ := refreshWebDAVLock_ok run
    exact .single (.of_effect ((RefEffect.of_dir sound.tree.valid sound.tree.shaped
      (.refl s.dir)).update _ _ _ _))
  | unlock path token principal =>
    obtain ⟨lock, -, -, removed, unlocked⟩ := unlockWebDAVResource_ok sound.tree path run
    obtain ⟨lost, hit, effect⟩ := unlocked.effect
    exact .single (.of_effect effect)

/-- A WebDAV request keeps the store sound. -/
lemma DavRequest.sound {request : DavRequest} {options : MutationOptions} (sound : Sound s)
    (abs : ∀ lock ∈ s.locks, isAbs lock.rootPath = true)
    (run : request.run env now options s = .ok s') : Sound s' := by
  have steps := request.refSteps sound abs run
  clear run
  induction steps with
  | refl => exact sound
  | tail _ step ih => exact step.sound request.not_prepares_zero ih

/-! ## Transactions beside the directory -/

/-- A transaction that leaves the directory and the rows attached to its entries alone; new Files
have new ids. -/
structure SamePlaces (s s' : Store) : Prop where
  dir : s'.dir = s.dir
  locks : s'.locks = s.locks
  metadata : s'.metadata = s.metadata
  properties : s'.properties = s.properties
  fresh : ∀ file ∈ s'.files, (∃ old ∈ s.files, old.fileID = file.fileID) ∨
    (s.nextFileID ≤ file.fileID ∧ file.fileID < s'.nextFileID)
  grows : s.nextFileID ≤ s'.nextFileID

lemma SamePlaces.of_files (dir : s'.dir = s.dir := by rfl) (locks : s'.locks = s.locks := by rfl)
    (metadata : s'.metadata = s.metadata := by rfl)
    (properties : s'.properties = s.properties := by rfl) (files : s'.files = s.files := by rfl)
    (next : s'.nextFileID = s.nextFileID := by rfl) : SamePlaces s s' where
  dir := dir
  locks := locks
  metadata := metadata
  properties := properties
  fresh file member := .inl ⟨file, files ▸ member, rfl⟩
  grows := next.symm.le

lemma SamePlaces.refl (s : Store) : SamePlaces s s := .of_files

lemma SamePlaces.trans {s₁ : Store} (left : SamePlaces s s₁) (right : SamePlaces s₁ s') :
    SamePlaces s s' where
  dir := right.dir.trans left.dir
  locks := right.locks.trans left.locks
  metadata := right.metadata.trans left.metadata
  properties := right.properties.trans left.properties
  grows := left.grows.trans right.grows
  fresh file member := by
    rcases right.fresh file member with ⟨middle, inMiddle, same⟩ | ⟨above, below⟩
    · rcases left.fresh middle inMiddle with ⟨old, inOld, first⟩ | ⟨above, below⟩
      · exact .inl ⟨old, inOld, first.trans same⟩
      · rw [same] at above below
        exact .inr ⟨above, below.trans_le right.grows⟩
    · exact .inr ⟨left.grows.trans above, below⟩

/-- So does a step beside them. -/
lemma SamePlaces.sound (same : SamePlaces s s') (sound : Sound s) : Sound s' where
  tree := same.dir ▸ sound.tree
  positive file member := by
    rcases same.fresh file member with ⟨old, inOld, id⟩ | ⟨above, -⟩
    · rw [← id]
      exact sound.positive old inOld
    · exact fun zero => sound.next (Nat.le_zero.mp (zero ▸ above))
  bounded file member := by
    rcases same.fresh file member with ⟨old, inOld, id⟩ | ⟨-, below⟩
    · rw [← id]
      exact (sound.bounded old inOld).trans_le same.grows
    · exact below
  next zero := sound.next (Nat.le_zero.mp (zero ▸ same.grows))

lemma SamePlaces.of_map {f : StoredFile → StoredFile} (dir : s'.dir = s.dir)
    (locks : s'.locks = s.locks) (metadata : s'.metadata = s.metadata)
    (properties : s'.properties = s.properties) (files : s'.files = s.files.map f)
    (ids : ∀ file, (f file).fileID = file.fileID) (next : s'.nextFileID = s.nextFileID) :
    SamePlaces s s' where
  dir := dir
  locks := locks
  metadata := metadata
  properties := properties
  grows := next.symm.le
  fresh file member := by
    rw [files] at member
    obtain ⟨old, inOld, rfl⟩ := List.mem_map.mp member
    exact .inl ⟨old, inOld, (ids old).symm⟩

lemma updateFile_samePlaces {f : StoredFile → StoredFile}
    (ids : ∀ file, (f file).fileID = file.fileID) : SamePlaces s (s.updateFile fileID f) :=
  .of_map rfl rfl rfl rfl rfl (fun file => by split_ifs <;> simp [ids]) rfl

lemma SamePlaces.of_insert {file : StoredFile} (dir : s'.dir = s.dir) (locks : s'.locks = s.locks)
    (metadata : s'.metadata = s.metadata) (properties : s'.properties = s.properties)
    (files : s'.files = s.files ++ [file]) (id : file.fileID = s.nextFileID)
    (next : s'.nextFileID = s.nextFileID + 1) : SamePlaces s s' where
  dir := dir
  locks := locks
  metadata := metadata
  properties := properties
  grows := next ▸ Nat.le_succ _
  fresh other member := by
    rw [files] at member
    rcases List.mem_append.mp member with old | new
    · exact .inl ⟨other, old, rfl⟩
    · rw [List.mem_singleton.mp new, id, next]
      exact .inr ⟨le_rfl, Nat.lt_succ_self _⟩

/-! ## S3 -/

lemma samePlaces_of_sameTree (same : SameTree s s') : SamePlaces s s' :=
  .of_files same.dir same.locks same.metadata same.properties same.files same.nextFileID

lemma withComposite_samePlaces {selected : List MultipartPart} {totalSize totalPartCount : Int}
    {parts : List (Int × Option (Text × Text))} :
    SamePlaces s (s.withComposite now selected totalSize totalPartCount parts) :=
  .of_insert rfl rfl rfl rfl rfl rfl rfl

lemma publishS3ObjectTx_refStep (tree : SoundTree s.dir) (path : ObjectPath) {size : Int}
    {metadata : S3ObjectMetadata} {condition : Option S3Condition} {entry : Entry}
    (run : s.publishS3ObjectTx env now path.text fileID size metadata condition =
      .ok (s', entry)) : RefStep now (fun _ => False) s s' := by
  obtain ⟨removed, lost, hit, -, effect, linkable, -⟩ := publishS3ObjectTx_effect tree path run
  exact .of_linked effect (by simpa using linkable)

/-- The request may change the directory. -/
def S3Request.publishes : S3Request → Bool
  | .publish _ _ _ _ _ | .copy _ _ _ _ _ | .delete _ _ | .complete _ _ _ => true
  | _ => false

lemma S3Request.samePlaces {request : S3Request} (still : request.publishes = false)
    (run : request.run env now s = .ok s') : SamePlaces s s' := by
  cases request with
  | publish => cases still
  | copy => cases still
  | delete => cases still
  | complete => cases still
  | createUpload request uploadID =>
    obtain ⟨upload, -, -, -, -, rfl⟩ := createMultipartUpload_ok run
    exact .of_files
  | inspectUpload uploadID bucket key =>
    simp only [S3Request.run, map_ok] at run
    obtain ⟨⟨_, upload, expired⟩, run, rfl⟩ := run
    exact samePlaces_of_sameTree (ensureActiveMultipartUpload_sameTree run)
  | putPart request =>
    simp only [S3Request.run, map_ok] at run
    obtain ⟨⟨_, expired⟩, run, rfl⟩ := run
    exact samePlaces_of_sameTree (putMultipartPart_sameTree run)
  | abort uploadID bucket key =>
    exact samePlaces_of_sameTree (abortMultipartUpload_sameTree run)
  | expire limit => exact samePlaces_of_sameTree (processExpiredMultipartUploads_sameTree run)
  | purgeControl limit =>
    obtain rfl := Except.ok.inj run
    exact .of_files

/-- What a completion does to the directory: nothing, or it publishes its object. -/
lemma complete_publishes {request : CompleteMultipartRequest}
    {result : Option CompleteMultipartResult}
    (run : s.completeMultipartUpload env now request = .ok (s', result)) :
    SamePlaces s s' ∨ ∃ t published fileID size metadata entry, SamePlaces s t ∧
      t.publishS3ObjectTx env now (objectPath request.bucket request.key) fileID size metadata
        request.condition = .ok (published, entry) ∧ SamePlaces published s' := by
  obtain ⟨_, -, -, ⟨_, -, rfl, -, -⟩ | ⟨-, expires⟩ |
    ⟨_, _, _, _, published, _, -, -, -, completion⟩⟩ := completeMultipartUpload_cases run
  · exact .inl (.refl s')
  · exact .inl (samePlaces_of_sameTree expires.abortsActive.aborts.sameTree)
  · obtain ⟨entry, linked⟩ := completion.linked
    have claimed : SamePlaces s (s.claimed request.uploadID now) :=
      samePlaces_of_sameTree (updateUpload_sameTree _ _ _)
    exact .inr ⟨_, published, _, _, _, entry, claimed.trans withComposite_samePlaces, linked,
      samePlaces_of_sameTree completion.sameTree⟩

/-- An S3 request keeps the store sound. -/
lemma S3Request.sound {request : S3Request} (sound : Sound s)
    (run : request.run env now s = .ok s') : Sound s' := by
  by_cases still : request.publishes = false
  · exact (S3Request.samePlaces still run).sound sound
  · cases request with
    | publish path fileID size metadata condition =>
      simp only [S3Request.run, map_ok] at run
      obtain ⟨⟨_, entry⟩, run, rfl⟩ := run
      exact (publishS3ObjectTx_refStep sound.tree path run).sound id sound
    | copy source destination metadata sourceCondition destinationCondition =>
      obtain ⟨removed, gained, lost, hit, -, effect, linkable, -⟩ :=
        copyS3Object_effect sound.tree source destination run
      have step : RefStep now (fun _ => False) s s' := .of_linked effect linkable
      exact step.sound id sound
    | delete path condition =>
      simp only [S3Request.run, map_ok] at run
      obtain ⟨⟨_, deleted⟩, run, rfl⟩ := run
      obtain ⟨removed, lost, hit, -, effect, -⟩ := deleteS3Object_effect sound.tree path run
      have step : RefStep now (fun _ => False) s _ := .of_effect effect
      exact step.sound id sound
    | complete request path located =>
      simp only [S3Request.run, map_ok] at run
      obtain ⟨⟨_, result⟩, run, rfl⟩ := run
      rcases complete_publishes run with same | ⟨t, published, _, _, _, _, same, linked, after⟩
      · exact same.sound sound
      · have extended := same.sound sound
        rw [← located] at linked
        exact after.sound ((publishS3ObjectTx_refStep extended.tree path linked).sound id extended)
    | _ => exact absurd rfl still

/-! ## Backup jobs -/

/-- A transaction on other tables: it leaves the delete states alone as well. -/
structure Elsewhere (s s' : Store) : Prop extends SamePlaces s s' where
  deleteStates : s'.deleteStates = s.deleteStates

lemma Elsewhere.refl (s : Store) : Elsewhere s s := ⟨.refl s, rfl⟩

lemma Elsewhere.trans {s₁ : Store} (left : Elsewhere s s₁) (right : Elsewhere s₁ s') :
    Elsewhere s s' :=
  ⟨left.toSamePlaces.trans right.toSamePlaces, right.deleteStates.trans left.deleteStates⟩

lemma foldlM_elsewhere {α : Type} {f : Store → α → Except Err Store} {items : List α}
    (pass : ∀ t item t', f t item = .ok t' → Elsewhere t t')
    (run : items.foldlM f s = .ok s') : Elsewhere s s' :=
  foldlM_ok (Elsewhere s) (fun item _ t t' before step => before.trans (pass t item t' step))
    (.refl s) run

lemma beginFile_elsewhere (run : beginFile jobID now s file = .ok s') : Elsewhere s s' := by
  unfold beginFile at run
  split_ifs at run
  · obtain rfl := Except.ok.inj run
    exact .refl s
  · simp only [insertFile, bind_ok, Sqlite.insertRow_ok, pure_ok] at run
    obtain ⟨_, ⟨_, ⟨-, rfl⟩, rfl⟩, _, -, rfl⟩ := run
    exact ⟨.of_insert rfl rfl rfl rfl rfl rfl rfl, rfl⟩

lemma readyRow_fileID (file : Backup.File) (row : StoredFile) :
    (readyRow file row).fileID = row.fileID := by
  unfold readyRow
  split_ifs <;> rfl

lemma markBackupFileReady_elsewhere {targetID : Nat} :
    Elsewhere s (s.markBackupFileReady now jobID file targetID) :=
  ⟨.of_map rfl rfl rfl rfl rfl (fun row => by split_ifs <;> simp [readyRow_fileID]) rfl, rfl⟩

lemma finishPhysicalFile_elsewhere (run : finishPhysicalFile jobID now s file = .ok s') :
    Elsewhere s s' := by
  unfold finishPhysicalFile at run
  split_ifs at run
  · simp only [bind_ok, pure_ok] at run
    obtain ⟨_, -, rfl⟩ := run
    exact markBackupFileReady_elsewhere
  · obtain rfl := Except.ok.inj run
    exact .refl s

lemma finishCompositeFile_elsewhere (run : finishCompositeFile jobID now s file = .ok s') :
    Elsewhere s s' := by
  unfold finishCompositeFile at run
  split_ifs at run
  · simp only at run
    split at run
    · cases run
    · split_ifs at run
      · obtain rfl := Except.ok.inj run
        exact .refl s
      · simp only [insertBackupSegments, insertBackupCompletedParts, bind_ok, pure_ok] at run
        obtain ⟨_, ⟨segments, -, rfl⟩, _, ⟨rows, -, rfl⟩, rfl⟩ := run
        exact ⟨.of_map rfl rfl rfl rfl rfl (fun row => by split_ifs <;> simp [readyRow_fileID]) rfl,
          rfl⟩
  · obtain rfl := Except.ok.inj run
    exact .refl s

lemma updateJob_elsewhere {condition : BackupJob → Bool} {f : BackupJob → BackupJob}
    {missed : Err} (run : s.updateJob jobID condition f missed = .ok s') : Elsewhere s s' := by
  simp only [updateJob, bind_ok, pure_ok] at run
  obtain ⟨_, -, rfl⟩ := run
  exact ⟨.of_files, rfl⟩

section
variable (run : request.run env archive now s = .ok s') (notRoot : request ≠ .importRoot)
  (notPublish : ∀ jobID policy, request ≠ .publish jobID policy)
include run notRoot notPublish

/-- A request that publishes nothing and gives nothing up. -/
lemma JobRequest.elsewhere
    (notDiscard : ∀ jobID, request ≠ .discardImport jobID) : Elsewhere s s' := by
  cases request with
  | importRoot => exact absurd rfl notRoot
  | publish jobID policy => exact absurd rfl (notPublish jobID policy)
  | discardImport jobID => exact absurd rfl (notDiscard jobID)
  | createExport jobID scope =>
    simp only [JobRequest.run, insertJob, bind_ok, pure_ok] at run
    obtain ⟨_, -, rfl⟩ := run
    exact ⟨.of_files, rfl⟩
  | createImport jobID dryRun policy =>
    simp only [JobRequest.run, insertJob, bind_ok, pure_ok] at run
    obtain ⟨_, -, rfl⟩ := run
    exact ⟨.of_files, rfl⟩
  | queueImport jobID artifactPath => exact updateJob_elsewhere run
  | cancel jobID => exact updateJob_elsewhere run
  | transition jobID source target => exact updateJob_elsewhere run
  | snapshot jobID scope =>
    obtain ⟨t, loaded, loads, rfl⟩ := createBackupSnapshot_ok run
    obtain ⟨f, -, rfl⟩ := loads.resizes
    exact ⟨.of_files, rfl⟩
  | completeExport jobID artifactPath =>
    simp only [JobRequest.run, Store.completeExport, bind_ok, pure_ok] at run
    obtain ⟨t, updated, rfl⟩ := run
    exact (updateJob_elsewhere updated).trans ⟨.of_files, rfl⟩
  | beginImport jobID =>
    simp only [JobRequest.run, beginBackupImport, bind_ok] at run
    obtain ⟨_, -, loop⟩ := run
    exact foldlM_elsewhere (fun _ _ _ => beginFile_elsewhere) loop
  | finishFiles jobID =>
    simp only [JobRequest.run, finishBackupImportFiles, bind_ok] at run
    obtain ⟨s₁, physical, composite⟩ := run
    have first : Elsewhere s s₁ :=
      foldlM_elsewhere (fun _ _ _ => finishPhysicalFile_elsewhere) physical
    exact first.trans (foldlM_elsewhere (fun _ _ _ => finishCompositeFile_elsewhere) composite)
  | finishSuccessfulJob jobID => exact updateJob_elsewhere run
  | _ =>
    obtain rfl := Except.ok.inj run
    exact ⟨.of_files, rfl⟩

lemma JobRequest.samePlaces : SamePlaces s s' := by
  by_cases discard : ∃ jobID, request = .discardImport jobID
  · obtain ⟨jobID, rfl⟩ := discard
    obtain ⟨hit, rfl, -⟩ := markMappingFilesPending_ok run
    exact .of_files
  · exact (JobRequest.elsewhere run notRoot notPublish fun jobID same =>
      discard ⟨jobID, same⟩).toSamePlaces

end

/-- A backup transaction keeps the store sound. -/
lemma JobRequest.sound (sound : Sound s) (run : request.run env archive now s = .ok s') :
    Sound s' := by
  by_cases root : request = .importRoot
  · subst root
    simp only [JobRequest.run, prepareImportRoot, bind_ok, pure_ok] at run
    obtain ⟨d', made, rfl⟩ := run
    have step : RefStep now (fun _ => False) s _ :=
      .of_effect (dbMkdir_effect sound.tree (by decide) made).2
    exact step.sound id sound
  · by_cases publish : ∃ jobID policy, request = .publish jobID policy
    · obtain ⟨jobID, policy, rfl⟩ := publish
      obtain ⟨gained, lost, hit, -, effect, linkable, -⟩ :=
        publishBackupImport_effect sound.tree sound.positive (archive.valid jobID) run
      have step : RefStep now (fun _ => False) s s' := .of_linked effect linkable
      exact step.sound id sound
    · refine (JobRequest.samePlaces run root fun jobID policy same => ?_).sound sound
      exact publish ⟨jobID, policy, same⟩

lemma createFileLink_sound (sound : Sound s) {path : ObjectPath} {size : Int} {isDir : Bool}
    (run : s.createFileLink now path.text fileID size isDir = .ok s') : Sound s' := by
  obtain ⟨gained, -, effect, linkable, -⟩ := createFileLink_effect sound.tree path run
  have step : RefStep now (fun _ => False) s s' := .of_linked effect linkable
  exact step.sound id sound

/-! ## Actions -/

/-- The action is no transaction on the directory. -/
def Action.beside : Action → Bool
  | .dav _ _ | .s3 _ | .job _ | .link _ _ _ _ => false
  | _ => true

lemma claimCandidates_ok (now : Int) (s : Store) (works : List BlockDeleteWork) :
    ∃ rows, (claimCandidates now s works).1 = { s with deleteStates := rows } := by
  induction works generalizing s with
  | nil => exact ⟨_, rfl⟩
  | cons work works ih =>
    have first : ∃ rows, (s.claimDeleteCandidate work now).1 = { s with deleteStates := rows } := by
      unfold claimDeleteCandidate
      split_ifs <;> exact ⟨_, rfl⟩
    obtain ⟨rows, same⟩ := first
    obtain ⟨rows', later⟩ := ih (s.claimDeleteCandidate work now).1
    exact ⟨rows', by rw [claimCandidates, later, same]⟩

lemma purgeStep_samePlaces (s : Store) (phase : Purge) : SamePlaces s (s.purgeStep phase).1 := by
  cases phase with
  | dropFile fileID todo =>
    refine ⟨rfl, rfl, rfl, rfl, fun file member => .inl ⟨file, ?_, rfl⟩, le_rfl⟩
    exact List.mem_of_mem_filter member
  | check todo =>
    cases todo with
    | nil => exact .refl s
    | cons => exact .refl s
  | dropParts => exact .of_files
  | files => exact .refl s
  | links => exact .refl s
  | segments => exact .refl s
  | sources => exact .refl s
  | parts => exact .refl s

lemma createFilePart_ok {partID : Nat} {upload : BlockUpload}
    (run : s.createFilePart env now fileID partID upload = .ok s') :
    ∃ part, part.fileID = fileID ∧ part.filePartID = partID ∧
      (∀ other ∈ s.parts, part.clash other = false) ∧
      s' = { s with
        parts := s.parts ++ [part]
        deleteStates := s.deleteStates ++ [liveDeleteState env fileID partID upload now] } := by
  simp only [createFilePart, bind_ok, Sqlite.insertRow_ok, pure_ok] at run
  obtain ⟨_, -, _, -, _, ⟨free, rfl⟩, _, ⟨-, rfl⟩, rfl⟩ := run
  exact ⟨_, rfl, rfl, free, rfl⟩

lemma insertStagedBlock_ok {state : BlockState} {nextAttemptAt : Int}
    (run : s.insertStagedBlock env now staged state nextAttemptAt = .ok s') :
    (∀ other ∈ s.parts, (staged.partRow now).clash other = false) ∧
      s' = { s with
        parts := s.parts ++ [staged.partRow now]
        deleteStates := s.deleteStates ++ [staged.deleteRow env state nextAttemptAt now] } := by
  simp only [insertStagedBlock, bind_ok, Sqlite.insertRow_ok, pure_ok] at run
  obtain ⟨_, ⟨free, rfl⟩, _, ⟨-, rfl⟩, rfl⟩ := run
  exact ⟨free, rfl⟩

lemma updateWaiting_ok {f : BackupJobFile → BackupJobFile}
    (run : s.updateWaiting staged f = .ok s') :
    s' = { s with
      jobFiles := s.jobFiles.map fun row => if staged.waits row then f row else row } := by
  simp only [updateWaiting, bind_ok, pure_ok] at run
  obtain ⟨_, -, rfl⟩ := run
  rfl

lemma persistBackupPart_ok (run : s.persistBackupPart env now staged = .ok s') :
    ∃ jobFiles, (∀ other ∈ s.parts, (staged.partRow now).clash other = false) ∧
      s' = { s with
        parts := s.parts ++ [staged.partRow now]
        deleteStates := s.deleteStates ++ [staged.deleteRow env .live 0 now], jobFiles } := by
  simp only [persistBackupPart, bind_ok] at run
  obtain ⟨s₁, inserted, updated⟩ := run
  obtain ⟨free, rfl⟩ := insertStagedBlock_ok inserted
  exact ⟨_, free, updateWaiting_ok updated⟩

lemma step_samePlaces {σ : System} {action : Action} (beside : action.beside = true) :
    SamePlaces σ.store (σ.step env archive action).store := by
  let P (τ : System) : Prop := SamePlaces σ.store τ.store
  cases action with
  | dav => cases beside
  | s3 => cases beside
  | job => cases beside
  | link => cases beside
  | tick => exact .refl _
  | discard fileID =>
    refine System.commit_rule (P := P) (.refl _) ?_
    intro s marked
    obtain ⟨hit, rfl, -⟩ := markFileTreePendingIfUnreferenced_ok marked
    exact .of_files
  | createDraft size lockNull =>
    exact System.createDraft_rule (P := P) (.refl _)
      fun _ _ => .of_insert rfl rfl rfl rfl rfl rfl rfl
  | createPart index upload =>
    refine System.createPart_rule (P := P) (.refl _) (.refl _) ?_
    intro creation s _ _ made
    obtain ⟨part, -, -, -, rfl⟩ := createFilePart_ok made
    exact ⟨.of_files, .of_files⟩
  | finishCreate index =>
    exact System.finishCreate_rule (P := P) (.refl _)
      fun _ _ _ => updateFile_samePlaces fun _ => rfl
  | abandonCreate => exact .refl _
  | stageUpload jobID file part upload =>
    exact System.stageUpload_rule (P := P) (.refl _) fun _ _ _ _ _ => .refl _
  | stagePersist index =>
    refine System.stagePersist_rule (P := P) (.refl _) (fun _ _ _ => .refl _) ?_
    intro part sound s _ persisted
    obtain ⟨jobFiles, -, rfl⟩ := persistBackupPart_ok persisted
    exact .of_files
  | stageCompensate index =>
    refine System.stageCompensate_rule (P := P) (.refl _) (.refl _) ?_
    intro part sound s _ recorded
    rw [(insertStagedBlock_ok recorded).2]
    exact .of_files
  | stageAdvance index =>
    refine System.stageAdvance_rule (P := P) (.refl _) (.refl _) ?_
    intro part s _ advanced
    rw [updateWaiting_ok advanced]
    exact .of_files
  | abandonStage => exact .refl _
  | claimDeletes =>
    refine System.claimDeletes_rule (P := P) (.refl _) ?_
    intro _ _
    obtain ⟨rows, same⟩ := claimCandidates_ok σ.clock
      (σ.store.restoreExpiredDeleteLeases env σ.clock)
      ((σ.store.restoreExpiredDeleteLeases env σ.clock).queryPendingDeleteCandidates env σ.clock)
    simp only [claimBlockDeleteWork, same]
    exact .of_files
  | deleteBlocks outcome =>
    exact System.deleteBlocks_rule (P := P) (.refl _) fun _ _ _ _ => .refl _
  | finishDelete =>
    exact System.finishDelete_rule (P := P) (.refl _) fun _ _ _ => .of_files
  | crashWorker => exact .refl _
  | startPurge => exact .refl _
  | purge index =>
    simp only [System.step, System.purge]
    split
    · exact .refl _
    · exact purgeStep_samePlaces _ _

end TgFile
