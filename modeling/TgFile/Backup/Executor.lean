import TgFile.System.Requests

/-! # Executors of backup jobs

`processJob` of `backupmgr/manager.go`, one database statement at a time.  An executor works on the
row it read; it is a worker of the service or the `backup` command, and there may be several.
Requests, the clean-up of a restarted service and retention run beside them. -/

namespace TgFile.Backup

open Go Store

/-- Where an executor is.  The job is the row as the executor read it. -/
inductive Task
  | idle
  | read (job : BackupJob)
  | snapshot (job : BackupJob)
  | saved (job : BackupJob)
  | building (job : BackupJob)
  | validating (job : BackupJob)
  | beginning (job : BackupJob)
  | parts (job : BackupJob)
  | staged (job : BackupJob)
  | root (job : BackupJob)
  | publishing (job : BackupJob)
  | failed (job : BackupJob)
  | discard (job : BackupJob) (outcome : JobState)
  | clear (job : BackupJob) (outcome : JobState)
  | finish (job : BackupJob) (outcome : JobState)
  | done (job : BackupJob)
  deriving DecidableEq, Repr

/-- The job that the executor may still change. -/
def Task.job? : Task → Option BackupJob
  | .idle | .done _ => none
  | .read job | .snapshot job | .saved job | .building job | .validating job | .beginning job
  | .parts job | .staged job | .root job | .publishing job | .failed job | .discard job _
  | .clear job _ | .finish job _ => some job

/-- How the work outside the database ends: it succeeds, it fails, or it asks for a
cancellation. -/
inductive Choice
  | proceed
  | fail
  | checkCanceled
  deriving DecidableEq, Repr

section
variable (s : Store)

/-- `isCanceled`. -/
def isCanceled (jobID : Text) : Bool :=
  s.jobs.any fun job => job.jobID = jobID ∧ job.cancelRequested = true

/-- `transitionState` as the executor uses it: a job that was taken by another is left alone. -/
def claim (job : BackupJob) (source target : JobState) (next : Task) : Store × Task :=
  match s.transitionState job.jobID source target with
  | .ok s' => (s', next)
  | .error _ => if isCanceled s job.jobID then (s, .discard job .canceled) else (s, .idle)

/-- A statement of the file manager; an error fails the job. -/
def attempt (job : BackupJob) (result : Except Err Store) (next : Task) : Store × Task :=
  match result with
  | .ok s' => (s', next)
  | .error _ => (s, .failed job)

/-- The work between two statements, as `choice` says. -/
def guarded (job : BackupJob) (choice : Choice) (stay : Task)
    (proceed : Store × Task) : Store × Task :=
  match choice with
  | .proceed => proceed
  | .fail => (s, .failed job)
  | .checkCanceled => if isCanceled s job.jobID then (s, .discard job .canceled) else (s, stay)

/-- The job is recorded in a terminal state. -/
def isClosed (jobID : Text) : Bool :=
  s.jobs.any fun job => job.jobID = jobID ∧ isTerminal job.state = true

/-- `executeJob`, up to the statement that takes the job. -/
def executeJob (job : BackupJob) : Store × Task :=
  match job.kind with
  | .exportJob => claim s job .queued .snapshotting (.snapshot job)
  | .importJob =>
    if job.artifactPath = [] then (s, .failed job)
    else if job.state = .publishing then (s, .root job)
    else claim s job .queued .validating (.validating job)

/-- One statement of `processJob`. -/
def advance (env : Env) (archive : Archive) (now : Int) (s : Store) (choice : Choice) :
    Task → Store × Task
  | .idle => (s, .idle)
  | .read job =>
    if job.state = .canceling ∨ job.cancelRequested = true then (s, .discard job .canceled)
    else guarded s job choice (.read job) (executeJob s job)
  -- `processExport`
  | .snapshot job => guarded s job choice (.snapshot job)
      (attempt s job (s.createBackupSnapshot env now job.jobID job.scope) (.saved job))
  | .saved job => guarded s job choice (.saved job) (s.startBuilding job.jobID, .building job)
  | .building job => guarded s job choice (.building job)
      (match s.completeExport now job.jobID (job.jobID ++ ".tgfb".toList) with
        | .ok s' => (s', .idle)
        | .error _ => (s, .discard job .canceled))
  -- `processImport`
  | .validating job => guarded s job choice (.validating job)
      (if job.dryRun then
        match s.finishSuccessfulJob now job.jobID with
        | .ok s' => (s', .done job)
        | .error _ => (s, .discard job .canceled)
      else claim s job .validating .staging (.beginning job))
  | .beginning job => guarded s job choice (.beginning job)
      (attempt s job (s.beginBackupImport now job.jobID (archive.manifest job.jobID)) (.parts job))
  | .parts job => guarded s job choice (.parts job)
      (attempt s job (s.finishBackupImportFiles now job.jobID (archive.manifest job.jobID))
        (.staged job))
  | .staged job => guarded s job choice (.staged job)
      (claim s job .staging .publishing (.root job))
  | .root job => guarded s job choice (.root job)
      (attempt s job (s.prepareImportRoot now) (.publishing job))
  | .publishing job => guarded s job choice (.publishing job)
      (attempt s job (s.publishBackupImport now job.jobID (archive.manifest job.jobID)
        job.conflictPolicy) (.done job))
  -- `handleJobFailure` and `cancelJob`
  | .failed job => if isClosed s job.jobID then (s, .idle) else (s, .discard job .failed)
  | .discard job outcome =>
    match job.kind with
    | .exportJob => (s.releaseBackupSnapshot job.jobID, .finish job outcome)
    | .importJob =>
      match s.discardBackupImport now job.jobID with
      | .ok s' => (s', .clear job outcome)
      | .error _ => (s, .discard job outcome)
  | .clear job outcome => (s.releaseArtifact job.jobID, .finish job outcome)
  | .finish job outcome => (s.finishJob now job.jobID outcome, .idle)
  | .done job => (s.releaseArtifact job.jobID, .idle)

/-- The task is an import's last transaction, and it commits. -/
def publishes (archive : Archive) (now : Int) (s : Store) : Task → Choice → Option Text
  | .publishing job, .proceed =>
    match s.publishBackupImport now job.jobID (archive.manifest job.jobID) job.conflictPolicy with
    | .ok _ => some job.jobID
    | .error _ => none
  | _, _ => none

/-! ## The service -/

/-- The database, the clients that send an artifact, the executors and the statements that a
restarted service has yet to run.  The last three fields record the job ids that were drawn, the
cancellations that were accepted and the imports that were published. -/
structure JobSystem where
  store : Store
  clock : Int
  receives : List Text
  workers : List Task
  recovery : List JobRequest
  used : List Text
  canceled : List Text
  published : List Text

/-- `recoverJob`. -/
def recoverJob (job : BackupJob) : List JobRequest :=
  if job.state = .receiving then [.finishJob job.jobID .canceled]
  else
    match job.kind with
    | .exportJob => [.release job.jobID, .reset job.jobID .queued]
    | .importJob =>
      match job.state with
      | .publishing => []
      | .staging => [.discardImport job.jobID, .deleteJobFiles job.jobID, .requeue job.jobID]
      | _ => [.reset job.jobID .queued]

/-- The statements of `recover` for the rows it reads. -/
def recoverPlan : List JobRequest :=
  ((s.jobs.filter fun job => job.completedAt = 0).flatMap recoverJob) ++ [.cleanOrphanPins]

end

/-- What may happen next. -/
inductive JobAction
  | tick (elapsed : Nat)
  /-- A transaction that touches neither jobs nor pins. -/
  | elsewhere (s' : Store)
  | createExport (jobID scope : Text)
  | createImport (jobID : Text) (dryRun : Bool) (policy : ConflictPolicy)
  | received (jobID artifactPath : Text)
  | receiveFailed (jobID : Text)
  | cancel (jobID : Text)
  | spawn
  | pick (index : Nat) (jobID : Text)
  | work (index : Nat) (choice : Choice)
  | abandon (index : Nat)
  | abandonReceive (jobID : Text)
  | startRecovery
  | recover
  | abandonRecovery
  | releaseArtifact (jobID : Text)
  | cleanupRetained (cutoff : Int)

namespace JobSystem

/-- A new row, under an id that was never drawn. -/
def create (σ : JobSystem) (job : BackupJob) (receives : List Text) : JobSystem :=
  if job.jobID ∈ σ.used then σ
  else
    match σ.store.insertJob job with
    | .ok s => { σ with store := s, receives := receives, used := job.jobID :: σ.used }
    | .error _ => σ

/-- The state after an action. -/
def step (env : Env) (archive : Archive) (σ : JobSystem) : JobAction → JobSystem
  | .tick elapsed => { σ with clock := σ.clock + elapsed }
  | .elsewhere s' =>
    if s'.jobs = σ.store.jobs ∧ s'.pins = σ.store.pins then { σ with store := s' } else σ
  | .createExport jobID scope =>
    σ.create (newJob jobID .exportJob .queued scope false .fail) σ.receives
  | .createImport jobID dryRun policy =>
    σ.create (newJob jobID .importJob .receiving ['/'] dryRun policy) (jobID :: σ.receives)
  | .received jobID artifactPath =>
    if jobID ∈ σ.receives then
      { σ with
        store := match σ.store.queueImport jobID artifactPath with
          | .ok s => s
          | .error _ => σ.store.finishJob σ.clock jobID .canceled
        receives := σ.receives.filter (· ≠ jobID) }
    else σ
  | .receiveFailed jobID =>
    if jobID ∈ σ.receives then
      { σ with
        store := σ.store.finishJob σ.clock jobID .canceled
        receives := σ.receives.filter (· ≠ jobID) }
    else σ
  | .cancel jobID =>
    match σ.store.cancel jobID with
    | .ok s => { σ with store := s, canceled := jobID :: σ.canceled }
    | .error _ => σ
  | .spawn => { σ with workers := σ.workers ++ [.idle] }
  | .pick index jobID =>
    match σ.workers[index]?, σ.store.jobs.find? fun job => job.jobID = jobID with
    | some .idle, some job =>
      if isTerminal job.state then σ else { σ with workers := σ.workers.set index (.read job) }
    | _, _ => σ
  | .work index choice =>
    match σ.workers[index]? with
    | none => σ
    | some task =>
      let (s, next) := advance env archive σ.clock σ.store choice task
      { σ with
        store := s, workers := σ.workers.set index next
        published := (publishes archive σ.clock σ.store task choice).toList ++ σ.published }
  | .abandon index => { σ with workers := σ.workers.set index .idle }
  | .abandonReceive jobID => { σ with receives := σ.receives.filter (· ≠ jobID) }
  | .startRecovery => { σ with recovery := recoverPlan σ.store }
  | .recover =>
    match σ.recovery with
    | [] => σ
    | request :: rest =>
      match request.run env archive σ.clock σ.store with
      | .ok s => { σ with store := s, recovery := rest }
      | .error _ => σ
  | .abandonRecovery => { σ with recovery := [] }
  | .releaseArtifact jobID => { σ with store := σ.store.releaseArtifact jobID }
  | .cleanupRetained cutoff => { σ with store := σ.store.cleanupRetainedJobs cutoff }

/-- A service over a database without jobs, with nothing under way. -/
def init (s : Store) (clock : Int) : JobSystem := ⟨s, clock, [], [], [], [], [], []⟩

/-- A database without jobs, and nothing under way. -/
inductive Start : JobSystem → Prop
  | mk {s : Store} {clock : Int} (jobs : s.jobs = []) (pins : s.pins = []) (positive : 0 < clock) :
      Start (init s clock)

/-- Runs whose actions meet a condition on the state they are taken in. -/
inductive Run (env : Env) (archive : Archive) (allowed : JobSystem → JobAction → Prop) :
    JobSystem → JobSystem → Prop
  | refl (σ : JobSystem) : Run env archive allowed σ σ
  | step {σ σ' : JobSystem} (before : Run env archive allowed σ σ') (action : JobAction)
      (meets : allowed σ' action) : Run env archive allowed σ (σ'.step env archive action)

/-- One executor works on a job, it takes no job whose artifact is still being received, and
recovery runs while no executor works. -/
def Alone (σ : JobSystem) : JobAction → Prop
  | .pick index jobID =>
    σ.recovery = [] ∧
    (∀ other < σ.workers.length, other ≠ index → ∀ job ∈ σ.workers[other]?.bind Task.job?,
      job.jobID ≠ jobID) ∧
    ∀ job ∈ σ.store.jobs, job.jobID = jobID → job.state ≠ .receiving
  | .startRecovery => ∀ task ∈ σ.workers, task = .idle
  | _ => True

/-- The state after a list of actions. -/
def play (env : Env) (archive : Archive) (σ : JobSystem) (actions : List JobAction) : JobSystem :=
  actions.foldl (JobSystem.step env archive) σ

end JobSystem

end TgFile.Backup
