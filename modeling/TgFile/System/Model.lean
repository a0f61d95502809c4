import TgFile.System.Requests

/-! # The running service

The store together with the calls that are under way: `CreateFile` between its statements, the
blocks an import stages, the block-delete worker between its transactions, and purges.  An action
is one transaction or one statement of such a call; any order of actions is a run.  A failed
transaction is rolled back. -/

namespace TgFile

open Go Result Store

/-- A `CreateFile` call that has its draft. -/
structure Creation where
  fileID : Nat
  size : Int
  blockCount : Int
  next : Nat
  uploaded : Int
  /-- The File is for the resource that a LOCK request creates. -/
  lockNull : Bool
  deriving DecidableEq, Repr

/-- How far a `StageBackupPart` call is after its upload. -/
inductive StagePhase
  | uploaded
  | unpersisted
  | persisted
  deriving DecidableEq, Repr

/-- A `StageBackupPart` call; `sound` when size and digests agree. -/
structure Staging where
  part : StagedPart
  sound : Bool
  phase : StagePhase
  deriving DecidableEq, Repr

/-- The worker between its transactions: what it has to record, and the calls of the backend it
has yet to make. -/
structure Worker where
  startedAt : Int
  finishes : List Finish
  calls : List (List BlockDeleteWork)
  deriving DecidableEq, Repr

/-- The store and all that is under way. -/
structure System where
  store : Store
  clock : Int
  creations : List Creation
  /-- The Files that LOCK requests hold for the resource they may have to create. -/
  prepared : List Nat
  stagings : List Staging
  worker : Worker
  purges : List Purge
  deriving DecidableEq, Repr

/-- What may happen next. -/
inductive Action
  | tick (elapsed : Nat)
  | dav (request : DavRequest) (options : MutationOptions)
  | s3 (request : S3Request)
  | job (request : JobRequest)
  | link (path : ObjectPath) (fileID : Nat) (size : Int) (isDir : Bool)
  | discard (fileID : Nat)
  | createDraft (size : Int) (lockNull : Bool)
  | createPart (index : Nat) (upload : BlockUpload)
  | finishCreate (index : Nat)
  | abandonCreate (index : Nat)
  | stageUpload (jobID : Text) (file : Backup.File) (part : Backup.Part) (upload : BlockUpload)
  | stagePersist (index : Nat)
  | stageCompensate (index : Nat)
  | stageAdvance (index : Nat)
  | abandonStage (index : Nat)
  | claimDeletes
  | deleteBlocks (outcome : DeleteOutcome)
  | finishDelete
  | crashWorker
  | startPurge (limitMtime : Int)
  | purge (index : Nat)

namespace System

/-- The service after the migrations. -/
def init (clock : Int) : System where
  store := .empty
  clock := clock
  creations := []
  prepared := []
  stagings := []
  worker := ⟨0, [], []⟩
  purges := []

/-- Commit a transaction that succeeded. -/
def commit (σ : System) (result : Except Err Store) : System :=
  match result with
  | .ok s => { σ with store := s }
  | .error _ => σ

/-! ## `CreateFile` -/

section
variable (env : Env)

section
variable (σ : System)

/-- The first transaction of `CreateFile`. -/
def createDraft (size : Int) (lockNull : Bool) : System :=
  match σ.store.createFileDraft env σ.clock (if lockNull then 0 else size),
      calculateFileBlockCount (if lockNull then 0 else size) env.maxFileSize with
  | .ok (s, fileID), .ok blockCount =>
    { σ with
      store := s
      creations := σ.creations ++
        [⟨fileID, if lockNull then 0 else size, blockCount, 0, 0, lockNull⟩] }
  | _, _ => σ

/-- A block of a creation; a failure or a short read ends the call. -/
def createPart (index : Nat) (upload : BlockUpload) : System :=
  match σ.creations[index]? with
  | none => σ
  | some creation =>
    if (creation.next : Int) < creation.blockCount then
      match σ.store.createFilePart env σ.clock creation.fileID creation.next upload with
      | .error _ => { σ with creations := σ.creations.eraseIdx index }
      | .ok s =>
        if upload.size = min env.maxFileSize (creation.size - creation.uploaded) then
          { σ with
            store := s
            creations := σ.creations.set index
              { creation with
                next := creation.next + 1, uploaded := creation.uploaded + upload.size } }
        else { σ with store := s, creations := σ.creations.eraseIdx index }
    else σ

/-- The last statement of a creation whose blocks are all there. -/
def finishCreate (index : Nat) : System :=
  match σ.creations[index]? with
  | none => σ
  | some creation =>
    if creation.blockCount ≤ creation.next then
      { σ with
        store := σ.store.finishFileCreate σ.clock creation.fileID
        creations := σ.creations.eraseIdx index
        prepared := if creation.lockNull then creation.fileID :: σ.prepared else σ.prepared }
    else σ

/-! ## LOCK -/

/-- A request is run with a File that its own call prepared. -/
def davAllowed : DavRequest → Bool
  | .lock _ _ _ _ _ unpublishedFileID _ =>
    unpublishedFileID = 0 ∨ unpublishedFileID ∈ σ.prepared
  | _ => true

/-- The prepared Files after a request. -/
def preparedAfter : DavRequest → List Nat
  | .lock _ _ _ _ _ unpublishedFileID _ => σ.prepared.filter (· ≠ unpublishedFileID)
  | _ => σ.prepared

/-! ## `StageBackupPart` -/

/-- The upload of a block that its target waits for. -/
def stageUpload (archive : Backup.Archive) (σ : System) (jobID : Text)
    (file : Backup.File) (part : Backup.Part) (upload : BlockUpload) : System :=
  match σ.store.readBackupStageTarget jobID file.ref with
  | .error _ => σ
  | .ok (targetID, nextPart) =>
    if file ∈ (archive.manifest jobID).files ∧ part ∈ file.parts ∧ nextPart = part.index ∧
        upload.WellFormed then
      let staged : StagedPart :=
        ⟨jobID, targetID, file.ref, part.index, part.size, part.md5, upload.fileKey,
          upload.deleteRef, upload.uploadedAt⟩
      { σ with
        stagings := σ.stagings ++
          [⟨staged, upload.size = part.size ∧ upload.md5 = part.md5, .uploaded⟩] }
    else σ

/-- The block of an import is recorded. -/
def stagePersist (index : Nat) : System :=
  match σ.stagings[index]? with
  | some ⟨part, sound, .uploaded⟩ =>
    match σ.store.persistBackupPart env σ.clock part with
    | .ok s => { σ with store := s, stagings := σ.stagings.set index ⟨part, sound, .persisted⟩ }
    | .error _ => { σ with stagings := σ.stagings.set index ⟨part, sound, .unpersisted⟩ }
  | _ => σ

/-- A block that was not recorded is put down for deletion. -/
def stageCompensate (index : Nat) : System :=
  match σ.stagings[index]? with
  | some ⟨part, _, .unpersisted⟩ =>
    { σ.commit (σ.store.persistBackupCompensationRecord env σ.clock part) with
      stagings := σ.stagings.eraseIdx index }
  | _ => σ

/-- The cursor of the import moves on. -/
def stageAdvance (index : Nat) : System :=
  match σ.stagings[index]? with
  | some ⟨part, true, .persisted⟩ =>
    { σ.commit (σ.store.advanceBackupPartCursor σ.clock part) with
      stagings := σ.stagings.eraseIdx index }
  | _ => σ

/-! ## The worker -/

/-- The worker claims a batch. -/
def claimDeletes : System :=
  if σ.worker.finishes = [] ∧ σ.worker.calls = [] then
    let (s, works) := σ.store.claimBlockDeleteWork env σ.clock
    { σ with store := s, worker := ⟨σ.clock, [], if works = [] then [] else [works]⟩ }
  else σ

/-- The backend answers the call. -/
def deleteBlocks (outcome : DeleteOutcome) : System :=
  match σ.worker with
  | ⟨startedAt, [], works :: calls⟩ =>
    let (finishes, more) := afterDelete startedAt works outcome
    { σ with worker := ⟨startedAt, finishes, more ++ calls⟩ }
  | _ => σ

/-- The worker records an outcome. -/
def finishDelete : System :=
  match σ.worker with
  | ⟨startedAt, finish :: finishes, calls⟩ =>
    { σ with
      store := σ.store.finishBlockDeleteWork startedAt finish
      worker := ⟨startedAt, finishes, calls⟩ }
  | _ => σ

/-! ## Purges -/

/-- The next statement of a purge. -/
def purge (index : Nat) : System :=
  match σ.purges[index]? with
  | none => σ
  | some phase =>
    let (s, next) := σ.store.purgeStep phase
    { σ with
      store := s
      purges := match next with
        | none => σ.purges.eraseIdx index
        | some phase => σ.purges.set index phase }

end

/-- One action of the service. -/
def step (archive : Backup.Archive) (σ : System) : Action → System
  | .tick elapsed => { σ with clock := σ.clock + elapsed }
  | .dav request options =>
    if σ.davAllowed request then
      { σ.commit (request.run env σ.clock options σ.store) with
        prepared := σ.preparedAfter request }
    else σ
  | .s3 request => σ.commit (request.run env σ.clock σ.store)
  | .job request => σ.commit (request.run env archive σ.clock σ.store)
  | .link path fileID size isDir =>
    σ.commit (σ.store.createFileLink σ.clock path.text fileID size isDir)
  | .discard fileID => σ.commit (σ.store.discardUnpublishedFile fileID σ.clock)
  | .createDraft size lockNull => σ.createDraft env size lockNull
  | .createPart index upload => σ.createPart env index upload
  | .finishCreate index => σ.finishCreate index
  | .abandonCreate index => { σ with creations := σ.creations.eraseIdx index }
  | .stageUpload jobID file part upload => σ.stageUpload archive jobID file part upload
  | .stagePersist index => σ.stagePersist env index
  | .stageCompensate index => σ.stageCompensate env index
  | .stageAdvance index => σ.stageAdvance index
  | .abandonStage index => { σ with stagings := σ.stagings.eraseIdx index }
  | .claimDeletes => σ.claimDeletes env
  | .deleteBlocks outcome => σ.deleteBlocks outcome
  | .finishDelete => σ.finishDelete
  | .crashWorker => { σ with worker := ⟨0, [], []⟩ }
  | .startPurge limitMtime => { σ with purges := σ.purges ++ [.files limitMtime 0 []] }
  | .purge index => σ.purge index

end

/-- The states of runs whose actions meet a condition on the state they are taken in. -/
inductive Reachable (env : Env) (archive : Backup.Archive)
    (allowed : System → Action → Prop) : System → Prop
  | init (clock : Int) : Reachable env archive allowed (init clock)
  | step {σ : System} (before : Reachable env archive allowed σ) (action : Action)
      (meets : allowed σ action) : Reachable env archive allowed (σ.step env archive action)

/-- A sequence of actions. -/
def run (env : Env) (archive : Backup.Archive) (σ : System) (actions : List Action) : System :=
  actions.foldl (step env archive) σ

/-- What actions lead to is reachable. -/
lemma Reachable.run {env : Env} {archive : Backup.Archive} {σ : System}
    (reachable : Reachable env archive (fun _ _ => True) σ) (actions : List Action) :
    Reachable env archive (fun _ _ => True) (σ.run env archive actions) := by
  induction actions generalizing σ with
  | nil => exact reachable
  | cons action actions ih => exact ih (reachable.step action trivial)

end System

/-- Every import job has an empty manifest. -/
def noArchive : Backup.Archive where
  manifest _ := ⟨[], [], [], [], []⟩
  valid _ := ⟨by simp, by simp, by simp, by simp, by simp, by simp, by simp⟩

end TgFile
