import TgFile.Backup.Attached
import TgFile.Backup.Executor
import TgFile.Backup.Snapshot

/-! # What statements do to the job table

The transactions of the file manager leave the job rows alone, except for the last one of an import;
the statements of the job manager change the row of one job. -/

namespace TgFile.Store

open Go Result Backup

variable {env : Env} {s s' s₁ : Store} {now : Int} {jobID : Text} {file : Backup.File}
  {manifest : Manifest} {policy : ConflictPolicy} {p p' : Publisher}

/-- Neither the job rows nor the pins changed. -/
structure SameJobs (s s' : Store) : Prop where
  jobs : s'.jobs = s.jobs
  pins : s'.pins = s.pins

lemma SameJobs.refl (s : Store) : SameJobs s s := ⟨rfl, rfl⟩

lemma SameJobs.trans (left : SameJobs s s₁) (right : SameJobs s₁ s') : SameJobs s s' :=
  ⟨right.jobs.trans left.jobs, right.pins.trans left.pins⟩

lemma SameJobs.foldlM {α : Type} {f : Store → α → Except Err Store} {items : List α}
    (pass : ∀ t item t', f t item = .ok t' → SameJobs t t')
    (run : items.foldlM f s = .ok s') : SameJobs s s' :=
  foldlM_ok (SameJobs s) (fun item _ t t' before step => before.trans (pass t item t' step))
    (.refl s) run

lemma beginFile_sameJobs (run : beginFile jobID now s file = .ok s') : SameJobs s s' := by
  unfold beginFile at run
  split_ifs at run
  · obtain rfl := Except.ok.inj run
    exact .refl s
  · simp only [insertFile, bind_ok, pure_ok] at run
    obtain ⟨_, ⟨_, -, rfl⟩, _, -, rfl⟩ := run
    exact ⟨rfl, rfl⟩

lemma beginBackupImport_sameJobs (run : s.beginBackupImport now jobID manifest = .ok s') :
    SameJobs s s' := by
  simp only [beginBackupImport, bind_ok] at run
  obtain ⟨_, -, loop⟩ := run
  exact .foldlM (fun t item t' pass => beginFile_sameJobs pass) loop

lemma finishPhysicalFile_sameJobs (run : finishPhysicalFile jobID now s file = .ok s') :
    SameJobs s s' := by
  unfold finishPhysicalFile at run
  split_ifs at run
  · simp only [bind_ok, pure_ok] at run
    obtain ⟨_, -, rfl⟩ := run
    exact ⟨rfl, rfl⟩
  · obtain rfl := Except.ok.inj run
    exact .refl s

lemma finishCompositeFile_sameJobs (run : finishCompositeFile jobID now s file = .ok s') :
    SameJobs s s' := by
  unfold finishCompositeFile at run
  split_ifs at run with composite
  · cases stored : s.readStoredFile (s.backupTarget jobID file.ref) with
    | none =>
      simp only [stored] at run
      cases run
    | some row =>
      simp only [stored] at run
      split_ifs at run
      · obtain rfl := Except.ok.inj run
        exact .refl s
      · simp only [insertBackupSegments, insertBackupCompletedParts, bind_ok, pure_ok] at run
        obtain ⟨_, ⟨_, -, rfl⟩, _, ⟨_, -, rfl⟩, rfl⟩ := run
        exact ⟨rfl, rfl⟩
  · obtain rfl := Except.ok.inj run
    exact .refl s

lemma finishBackupImportFiles_sameJobs
    (run : s.finishBackupImportFiles now jobID manifest = .ok s') : SameJobs s s' := by
  simp only [finishBackupImportFiles, bind_ok] at run
  obtain ⟨s₁, physical, composite⟩ := run
  exact (SameJobs.foldlM (fun t item t' pass => finishPhysicalFile_sameJobs pass) physical).trans
    (.foldlM (fun t item t' pass => finishCompositeFile_sameJobs pass) composite)

lemma markMappingFilesPending_sameJobs {fileIDs : List Nat}
    (run : s.markMappingFilesPending fileIDs now = .ok s') : SameJobs s s' := by
  obtain ⟨hit, rfl, -⟩ := markMappingFilesPending_ok run
  exact ⟨rfl, rfl⟩

lemma prepareImportRoot_sameJobs (run : s.prepareImportRoot now = .ok s') : SameJobs s s' := by
  simp only [prepareImportRoot, bind_ok, pure_ok] at run
  obtain ⟨_, -, rfl⟩ := run
  exact ⟨rfl, rfl⟩

/-! ## The last transaction of an import -/

lemma publishDirectory_sameJobs {item : ManifestDirectory}
    (run : publishDirectory now p item = .ok p') : SameJobs p.store p'.store := by
  simp only [publishDirectory, bind_ok, pure_ok] at run
  obtain ⟨⟨t, entry, reused⟩, imported, _, -, rfl⟩ := run
  rcases importedDirectory_ok imported with ⟨-, rfl⟩ | ⟨d', -, rfl⟩
  · exact ⟨rfl, rfl⟩
  · exact ⟨rfl, rfl⟩

lemma publishMapping_sameJobs {item : Mapping} {targetID : Nat} {result : Entry × List Nat}
    (run : s.publishMapping now policy item targetID = .ok (s', result)) : SameJobs s s' := by
  rcases publishMapping_ok run with ⟨d', -, -, rfl, -⟩ | ⟨old, oldID, d', -, -, -, rfl, -⟩
  · exact ⟨rfl, rfl⟩
  · exact ⟨rfl, rfl⟩

lemma publishMappingItem_sameJobs {item : Mapping}
    (run : publishMappingItem now jobID manifest policy p item = .ok p') :
    SameJobs p.store p'.store := by
  simp only [publishMappingItem, bind_ok, pure_ok] at run
  obtain ⟨_, -, ⟨t, result⟩, published, t', restored, rfl⟩ := run
  obtain ⟨_, rfl⟩ := restoreS3Metadata_ok restored
  exact ⟨(publishMapping_sameJobs published).jobs, (publishMapping_sameJobs published).pins⟩

lemma publishWebDAVProperties_sameJobs (run : publishWebDAVProperties now manifest p = .ok p') :
    SameJobs p.store p'.store := by
  simp only [publishWebDAVProperties, bind_ok, pure_ok] at run
  obtain ⟨t, properties, t', touched, rfl⟩ := run
  have first : SameJobs p.store t := by
    refine .foldlM (fun u item u' pass => ?_) properties
    obtain ⟨_, rfl⟩ := publishProperty_ok pass
    exact ⟨rfl, rfl⟩
  have second : SameJobs t t' := by
    refine .foldlM (fun u item u' pass => ?_) touched
    simp only [touchChanged, bind_ok, pure_ok] at pass
    obtain ⟨_, -, rfl⟩ := pass
    exact ⟨rfl, rfl⟩
  exact first.trans second

/-! ## The row of one job -/

/-- The rows of a job become what `f` makes of them. -/
def onJob (jobID : Text) (f : BackupJob → BackupJob) (jobs : List BackupJob) : List BackupJob :=
  jobs.map fun job => if job.jobID = jobID then f job else job

/-- Only the rows that meet a condition change. -/
def onlyIf (condition : BackupJob → Bool) (f : BackupJob → BackupJob) (job : BackupJob) :
    BackupJob :=
  if condition job then f job else job

lemma updateJob_ok {condition : BackupJob → Bool} {f : BackupJob → BackupJob} {missed : Err}
    (run : s.updateJob jobID condition f missed = .ok s') :
    (∃ job ∈ s.jobs, job.jobID = jobID ∧ condition job = true) ∧
      s' = { s with jobs := onJob jobID (onlyIf condition f) s.jobs } := by
  simp only [updateJob, bind_ok, require_ok, pure_ok] at run
  obtain ⟨_, found, rfl⟩ := run
  refine ⟨found, ?_⟩
  have rows : ∀ job : BackupJob, (if job.jobID = jobID ∧ condition job = true then f job else job) =
      if job.jobID = jobID then onlyIf condition f job else job := by
    intro job
    by_cases same : job.jobID = jobID <;> simp [same, onlyIf]
  simp only [rows]
  rfl

lemma resetState_jobs (jobID : Text) (state : JobState) :
    (s.resetState jobID state).jobs =
      onJob jobID (onlyIf (fun job => job.completedAt = 0) fun job => { job with state := state })
        s.jobs := by
  refine List.map_congr_left fun job _ => ?_
  by_cases same : job.jobID = jobID <;> simp [same, onlyIf]

lemma publishBackupImport_jobs (run : s.publishBackupImport now jobID manifest policy = .ok s') :
    (∃ job ∈ s.jobs, job.jobID = jobID ∧ publishingImport job = true) ∧ s'.pins = s.pins ∧
      s'.jobs = onJob jobID (onlyIf publishingImport fun job =>
        { job with state := .succeeded, completedAt := now }) s.jobs := by
  simp only [publishBackupImport, completePublish, bind_ok, require_ok] at run
  obtain ⟨_, found, _, -, p₁, directories, p₂, mappings, p₃, properties, t, marked, closed⟩ := run
  have first : SameJobs s p₁.store :=
    foldlM_ok (fun p : Publisher => SameJobs s p.store)
      (fun item _ p p' before pass => before.trans (publishDirectory_sameJobs pass))
      (.refl s) directories
  have second : SameJobs s p₂.store :=
    foldlM_ok (fun p : Publisher => SameJobs s p.store)
      (fun item _ p p' before pass => before.trans (publishMappingItem_sameJobs pass))
      first mappings
  have same : SameJobs s t := (second.trans (publishWebDAVProperties_sameJobs properties)).trans
    (markMappingFilesPending_sameJobs marked)
  obtain ⟨-, rfl⟩ := updateJob_ok closed
  refine ⟨found, same.pins, ?_⟩
  rw [← same.jobs]

lemma createBackupSnapshot_jobs {scope : Text}
    (run : s.createBackupSnapshot env now jobID scope = .ok s') :
    s'.jobs = s.jobs ∧ ∀ pin ∈ s'.pins, pin ∈ s.pins ∨ pin.jobID = jobID := by
  obtain ⟨t, loaded, loads, rfl⟩ := createBackupSnapshot_ok run
  obtain ⟨f, -, rfl⟩ := loads.resizes
  refine ⟨rfl, fun pin member => ?_⟩
  rcases List.mem_append.mp member with old | new
  · exact .inl old
  · obtain ⟨fileID, -, rfl⟩ := List.mem_map.mp new
    exact .inr rfl

end TgFile.Store
