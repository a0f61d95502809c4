import TgFile.Backup.Export
import TgFile.Backup.Publish

/-! # Backup jobs

The statements of `backupmgr/manager.go` on the job table.  The manager's executor calls the file
manager between them; crashes and retention clean-up are transactions of their own. -/

namespace TgFile.Store

open Go Result

variable (s : Store)

/-- `insertJob`. -/
def insertJob (job : BackupJob) : Except Err Store := do
  let jobs ← Sqlite.insertRow BackupJob.clash s.jobs job
  pure { s with jobs := jobs }

/-- A terminal state. -/
def isTerminal (state : JobState) : Bool :=
  state = .succeeded ∨ state = .failed ∨ state = .canceled

/-- `receiveAndQueueImport`. -/
def queueImport (jobID artifactPath : Text) : Except Err Store :=
  s.updateJob jobID (fun job => job.state = .receiving)
    (fun job => { job with state := .queued, artifactPath := artifactPath }) .backupState

/-- Ask for the end of a job that is not publishing. -/
def cancel (jobID : Text) : Except Err Store :=
  s.updateJob jobID (fun job => job.completedAt = 0 ∧ job.state ≠ .publishing)
    (fun job => { job with cancelRequested := true, state := .canceling }) .backupState

/-- Change the state of a job that is not being canceled. -/
def transitionState (jobID : Text) (source target : JobState) : Except Err Store :=
  s.updateJob jobID
    (fun job => job.state = source ∧ job.completedAt = 0 ∧ job.cancelRequested = false)
    (fun job => { job with state := target }) .backupState

/-- The update at the end of `prepareExportSnapshot`. -/
def startBuilding (jobID : Text) : Store :=
  { s with
    jobs := s.jobs.map fun job =>
      if job.jobID = jobID then { job with state := .building } else job }

/-- `completeExport` closes the job and drops its pins. -/
def completeExport (now : Int) (jobID artifactPath : Text) : Except Err Store := do
  let s ← s.updateJob jobID (fun job => job.state = .building ∧ job.cancelRequested = false)
    (fun job => { job with
      state := .succeeded, artifactPath := artifactPath, completedAt := now }) .backupState
  pure (s.releaseBackupSnapshot jobID)

/-- Close a job in a final state. -/
def finishJob (now : Int) (jobID : Text) (state : JobState) : Store :=
  { s with
    jobs := s.jobs.map fun job =>
      if job.jobID = jobID then
        { job with
          state := state, completedAt := now
          cancelRequested := state = .canceled ∨ job.cancelRequested = true }
      else job }

/-- Close a job that was not canceled. -/
def finishSuccessfulJob (now : Int) (jobID : Text) : Except Err Store :=
  s.updateJob jobID (fun job => job.completedAt = 0 ∧ job.cancelRequested = false)
    (fun job => { job with state := .succeeded, completedAt := now }) .backupState

/-- Put an unfinished job back. -/
def resetState (jobID : Text) (state : JobState) : Store :=
  { s with
    jobs := s.jobs.map fun job =>
      if job.jobID = jobID ∧ job.completedAt = 0 then { job with state := state } else job }

/-- The staging rows of an interrupted import. -/
def deleteJobFiles (jobID : Text) : Store :=
  { s with jobFiles := s.jobFiles.filter fun row => row.jobID ≠ jobID }

/-- `UPDATE tg_backup_job_tab SET job_state = 'queued'` of an interrupted import. -/
def requeueJob (jobID : Text) : Store :=
  { s with
    jobs := s.jobs.map fun job => if job.jobID = jobID then { job with state := .queued } else job }

/-- The statement at the end of `recover`: pins that no unfinished export holds. -/
def cleanOrphanPins : Store :=
  { s with
    pins := s.pins.filter fun pin =>
      ∃ job ∈ s.jobs, job.jobID = pin.jobID ∧ job.kind = .exportJob ∧ job.completedAt = 0 }

/-- `releaseImportArtifact` and the expiry of artifacts: the job keeps no artifact. -/
def releaseArtifact (jobID : Text) : Store :=
  { s with
    jobs := s.jobs.map fun job =>
      if job.jobID = jobID then { job with artifactPath := [] } else job }

/-- A finished job that retention may remove. -/
def retired (cutoff : Int) (job : BackupJob) : Bool :=
  0 < job.completedAt ∧ job.completedAt < cutoff ∧ job.artifactPath = []

/-- Drop the jobs closed before the cutoff, with their Files. -/
def cleanupRetainedJobs (cutoff : Int) : Store :=
  { s with
    jobFiles := s.jobFiles.filter fun row =>
      ∀ job ∈ s.jobs, job.jobID = row.jobID → retired cutoff job = false
    jobs := s.jobs.filter fun job => retired cutoff job = false }

end TgFile.Store
