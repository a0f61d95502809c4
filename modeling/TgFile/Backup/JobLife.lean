import TgFile.Backup.JobInvariant

/-! # The life cycle of backup jobs

Every step of the job system keeps the invariant when one executor works on a job. -/

namespace TgFile.Backup

open Go Store Result

variable {env : Env} {archive : Archive} {σ σ' : JobSystem} {task next : Task}
  {canceled published receives used canceled' published' receives' : List Text}
  {row row' job : BackupJob} {jobID : Text} {s s' : Store} {closes : Text → Prop}
  {request : JobRequest} {recovery' : List JobRequest} {index : Nat}

/-! ## What executors, clients and recovery rely on -/

/-- The executor is about to cancel its job. -/
def Task.doomed : Task → Bool
  | .read job => job.state = .canceling ∨ job.cancelRequested = true
  | .discard _ outcome | .clear _ outcome | .finish _ outcome => outcome = .canceled
  | _ => false

/-- How `handleJobFailure` and `cancelJob` end. -/
def Ends (outcome : JobState) : Prop := outcome = .failed ∨ outcome = .canceled

/-- What a task at its point knows of its job. -/
def Task.Phase (pins : List ExportPin) : Task → Prop
  | .idle | .done _ | .read _ | .failed _ => True
  | .snapshot job | .saved job | .building job => job.kind = .exportJob
  | .validating job | .root job | .publishing job => job.kind = .importJob
  | .beginning job | .parts job | .staged job => job.kind = .importJob ∧ job.dryRun = false
  | .discard _ outcome => Ends outcome
  | .clear job outcome => job.kind = .importJob ∧ Ends outcome
  | .finish job outcome =>
    Ends outcome ∧ (job.kind = .exportJob → ∀ pin ∈ pins, pin.jobID ≠ job.jobID)

/-- The job of an executor is live, unless a client's failure canceled it first. -/
structure TaskOk (s : Store) (receives used : List Text) (task : Task) (job : BackupJob) :
    Prop where
  held : task.job? = some job
  known : job.jobID ∈ used
  same : ∀ row ∈ s.jobs, row.jobID = job.jobID → row.kind = job.kind ∧ row.dryRun = job.dryRun
  live : ∀ row ∈ s.jobs, row.jobID = job.jobID →
    row.completedAt = 0 ∨ task.doomed = true ∧ row.state = .canceled
  received : job.jobID ∈ receives → task.doomed = true
  phase : task.Phase s.pins

/-- While a client sends the artifact, the job waits for it or is being canceled. -/
def ReceiveOk (jobs : List BackupJob) (jobID : Text) : Prop :=
  ∀ row ∈ jobs, row.jobID = jobID → row.kind = .importJob ∧
    (row.state = .receiving ∨
      row.cancelRequested = true ∧ (row.state = .canceling ∨ row.state = .queued) ∨
      row.state = .canceled)

/-- The statements that recovery has left. -/
def RecoverOk (jobs : List BackupJob) (receives used : List Text) : JobRequest → Prop
  | .finishJob jobID outcome => outcome = .canceled ∧ jobID ∈ used ∧
      ∀ row ∈ jobs, row.jobID = jobID →
        row.kind = .importJob ∧ (row.completedAt = 0 ∨ row.state = .canceled)
  | .requeue jobID => jobID ∈ used ∧ jobID ∉ receives ∧
      ∀ row ∈ jobs, row.jobID = jobID → row.completedAt = 0
  | .reset jobID state => state = .queued ∧ jobID ∈ used ∧
      ∀ row ∈ jobs, row.jobID = jobID → row.state ≠ .receiving
  | .release _ | .discardImport _ | .deleteJobFiles _ | .cleanOrphanPins => True
  | _ => False

/-- The invariant of the runs. -/
structure JobInv (σ : JobSystem) : Prop where
  clock : 0 < σ.clock
  table : TableInv σ.store σ.used σ.canceled σ.published
  tasks : ∀ (index : Nat) task job, σ.workers[index]? = some task → task.job? = some job →
    TaskOk σ.store σ.receives σ.used task job
  apart : ∀ (i j : Nat) a b x y, σ.workers[i]? = some a → σ.workers[j]? = some b → a.job? = some x →
    b.job? = some y → x.jobID = y.jobID → i = j
  drawn : ∀ id ∈ σ.receives, id ∈ σ.used
  receives : ∀ id ∈ σ.receives, ReceiveOk σ.store.jobs id
  recovery : ∀ request ∈ σ.recovery, RecoverOk σ.store.jobs σ.receives σ.used request
  separate : ∀ id outcome, .finishJob id outcome ∈ σ.recovery → .requeue id ∉ σ.recovery
  quiet : σ.recovery ≠ [] → ∀ task ∈ σ.workers, task = .idle

/-- Rows only progress, and a row that is gone does not come back. -/
structure Kept (σ σ' : JobSystem) : Prop where
  used : ∀ id ∈ σ.used, id ∈ σ'.used
  canceled : ∀ id ∈ σ.canceled, id ∈ σ'.canceled
  rows : ∀ row' ∈ σ'.store.jobs, row'.jobID ∈ σ.used → ∃ row ∈ σ.store.jobs, Progress row row'

lemma Kept.refl (σ : JobSystem) : Kept σ σ :=
  ⟨fun _ member => member, fun _ member => member, fun row member _ => ⟨row, member, .refl row⟩⟩

lemma Kept.trans {σ₁ : JobSystem} (left : Kept σ σ₁) (right : Kept σ₁ σ') : Kept σ σ' where
  used := fun id member => right.used id (left.used id member)
  canceled := fun id member => right.canceled id (left.canceled id member)
  rows := by
    intro row' member known
    obtain ⟨middle, inMiddle, second⟩ := right.rows row' member (left.used _ known)
    rw [second.jobID] at known
    obtain ⟨row, inJobs, first⟩ := left.rows middle inMiddle known
    exact ⟨row, inJobs, first.trans second⟩

lemma Kept.of_change (jobID : Text)
    (change : Change σ.store σ'.store jobID σ.used canceled' published') (used : σ'.used = σ.used)
    (canceled : ∀ id ∈ σ.canceled, id ∈ σ'.canceled) : Kept σ σ' := by
  refine ⟨fun id member => used ▸ member, canceled, fun row' member _ => ?_⟩
  by_cases named : row'.jobID = jobID
  · exact (change.rows row' member named).2
  · exact ⟨row', change.frame row' member named, .refl row'⟩

/-- A step of the system. -/
structure JobStep (σ σ' : JobSystem) : Prop where
  inv : JobInv σ'
  kept : Kept σ σ'

lemma JobStep.trans {σ₁ : JobSystem} (left : JobStep σ σ₁) (right : JobStep σ₁ σ') :
    JobStep σ σ' :=
  ⟨right.inv, left.kept.trans right.kept⟩

/-! ## What a change elsewhere leaves -/

/-- Rows progress; those that close are canceled, and `closes` names them. -/
def Moves (closes : Text → Prop) (jobs jobs' : List BackupJob) : Prop :=
  ∀ row' ∈ jobs', ∃ row ∈ jobs, Progress row row' ∧
    (row'.completedAt = 0 ∨ row'.state = .canceled ∧ closes row'.jobID ∨
      row'.completedAt = row.completedAt ∧ row'.state = row.state)

lemma TaskOk.moves (ok : TaskOk s receives used task job) (moves : Moves closes s.jobs s'.jobs)
    (pins : ∀ pin ∈ s'.pins, pin.jobID = job.jobID → pin ∈ s.pins)
    (fewer : ∀ id ∈ receives', id ∈ receives) (doomed : closes job.jobID → task.doomed = true) :
    TaskOk s' receives' used task job := by
  refine ⟨ok.held, ok.known, fun row' member named => ?_, fun row' member named => ?_,
    fun member => ok.received (fewer _ member), ?_⟩
  · obtain ⟨row, inJobs, progress, -⟩ := moves row' member
    rw [progress.jobID] at named
    rw [progress.kind, progress.dryRun]
    exact ok.same row inJobs named
  · obtain ⟨row, inJobs, progress, live | ⟨canceled, closed⟩ | ⟨time, state⟩⟩ := moves row' member
    · exact .inl live
    · rw [named] at closed
      exact .inr ⟨doomed closed, canceled⟩
    · rw [progress.jobID] at named
      rw [time, state]
      exact ok.live row inJobs named
  · have phase := ok.phase
    cases task with
    | finish other outcome =>
      obtain rfl : other = job := Option.some.inj ok.held
      exact ⟨phase.1, fun kind pin member named =>
        phase.2 kind pin (pins pin member named) named⟩
    | _ => exact phase

lemma RecoverOk.moves (ok : RecoverOk s.jobs receives used request)
    (moves : Moves closes s.jobs s'.jobs) (fewer : ∀ id ∈ receives', id ∈ receives)
    (spared : ∀ id, closes id → request ≠ .requeue id) :
    RecoverOk s'.jobs receives' used request := by
  cases request with
  | finishJob id outcome =>
    refine ⟨ok.1, ok.2.1, fun row' member named => ?_⟩
    obtain ⟨row, inJobs, progress, rest⟩ := moves row' member
    obtain ⟨kind, before⟩ := ok.2.2 row inJobs (progress.jobID ▸ named)
    refine ⟨progress.kind.trans kind, ?_⟩
    rcases rest with live | ⟨canceled, -⟩ | ⟨time, state⟩
    · exact .inl live
    · exact .inr canceled
    · rw [time, state]
      exact before
  | requeue id =>
    refine ⟨ok.1, fun member => ok.2.1 (fewer id member), fun row' member named => ?_⟩
    obtain ⟨row, inJobs, progress, live | ⟨-, closed⟩ | ⟨time, -⟩⟩ := moves row' member
    · exact live
    · rw [named] at closed
      exact absurd rfl (spared id closed)
    · rw [time]
      exact ok.2.2 row inJobs (progress.jobID ▸ named)
  | reset id state =>
    refine ⟨ok.1, ok.2.1, fun row' member named waits => ?_⟩
    obtain ⟨row, inJobs, progress, -⟩ := moves row' member
    exact ok.2.2 row inJobs (progress.jobID ▸ named) (progress.receiving waits)
  | _ => exact ok

/-- A change of one job's row, as the others see it. -/
lemma Change.moves (change : Change s s' jobID used canceled' published')
    (own : ∀ row' ∈ s'.jobs, row'.jobID = jobID → ∃ row ∈ s.jobs, Progress row row' ∧
      (row'.completedAt = 0 ∨ row'.state = .canceled ∧ closes row'.jobID ∨
        row'.completedAt = row.completedAt ∧ row'.state = row.state)) :
    Moves closes s.jobs s'.jobs := by
  intro row' member
  by_cases named : row'.jobID = jobID
  · exact own row' member named
  · exact ⟨row', change.frame row' member named, .refl row', .inr (.inr ⟨rfl, rfl⟩)⟩

lemma ReceiveOk.other {id : Text} (ok : ReceiveOk s.jobs id)
    (change : Change s s' jobID used canceled' published') (other : id ≠ jobID) :
    ReceiveOk s'.jobs id := by
  intro row member named
  exact ok row (change.frame row member fun same => other (named.symm.trans same)) named

/-! ## Steps outside the executors -/

lemma JobInv.idle_of_recovery (inv : JobInv σ) (recovers : σ.recovery ≠ [])
    (placed : σ.workers[index]? = some task) : task.job? = none := by
  rw [inv.quiet recovers task (List.mem_of_getElem? placed)]
  rfl

/-- A client, the service or recovery changes the row of one job. -/
lemma JobInv.outside (inv : JobInv σ)
    (change : Change σ.store s' jobID σ.used canceled' σ.published)
    (asked : ∀ id ∈ σ.canceled, id ∈ canceled')
    (accepted : ∀ id ∈ canceled', id ∈ σ.canceled ∨ id = jobID ∧ id ∈ σ.used)
    (moves : Moves closes σ.store.jobs s'.jobs) (pins : ∀ pin ∈ s'.pins, pin ∈ σ.store.pins)
    (fewer : ∀ id ∈ receives', id ∈ σ.receives)
    (receive : jobID ∈ receives' → ReceiveOk s'.jobs jobID)
    (closing : ∀ id, closes id → id ∈ σ.receives ∨ σ.recovery ≠ [])
    (rest : ∀ request ∈ recovery', request ∈ σ.recovery)
    (spared : ∀ id, closes id → .requeue id ∉ recovery') :
    JobStep σ { σ with
      store := s', canceled := canceled', receives := receives', recovery := recovery' } := by
  refine ⟨?_, .of_change jobID change rfl asked⟩
  exact {
    clock := inv.clock
    table := change.table inv.table accepted (fun _ _ => Iff.rfl) inv.table.recorded inv.table.once
    tasks := by
      intro index task job placed held
      have ok := inv.tasks index task job placed held
      refine ok.moves moves (fun pin member _ => pins pin member) fewer fun closed => ?_
      rcases closing _ closed with received | recovers
      · exact ok.received received
      · rw [inv.idle_of_recovery recovers placed] at held
        cases held
    apart := inv.apart
    drawn := fun id member => inv.drawn id (fewer id member)
    receives := by
      intro id member
      by_cases this : id = jobID
      · subst this
        exact receive member
      · exact (inv.receives id (fewer id member)).other change this
    recovery := fun request member =>
      (inv.recovery request (rest request member)).moves moves fewer fun id closed same =>
        spared id closed (same ▸ member)
    separate := fun id outcome member requeued =>
      inv.separate id outcome (rest _ member) (rest _ requeued)
    quiet := by
      intro recovers
      obtain ⟨request, member⟩ := List.exists_mem_of_ne_nil _ recovers
      exact inv.quiet (List.ne_nil_of_mem (rest request member)) }

lemma Moves.of_subset {jobs jobs' : List BackupJob} (subset : ∀ row ∈ jobs', row ∈ jobs) :
    Moves closes jobs jobs' := fun row member =>
  ⟨row, subset row member, .refl row, .inr (.inr ⟨rfl, rfl⟩)⟩

section
variable (inv : JobInv σ)
include inv

/-- Rows and pins may go, and nothing else happens to them. -/
lemma JobInv.fewer (jobs : ∀ row ∈ s'.jobs, row ∈ σ.store.jobs)
    (pins : ∀ pin ∈ s'.pins, pin ∈ σ.store.pins)
    (rest : ∀ request ∈ recovery', request ∈ σ.recovery) :
    JobStep σ { σ with store := s', recovery := recovery' } := by
  have change : Change σ.store s' [] σ.used σ.canceled σ.published :=
    .of_subset inv.table [] jobs pins
  have moves : Moves (fun _ => False) σ.store.jobs s'.jobs := .of_subset jobs
  exact inv.outside change (fun _ => id) (fun _ => .inl) moves pins (fun _ => id)
    (fun member row inJobs named => inv.receives _ member row (jobs row inJobs) named)
    (fun _ closed => closed.elim) rest fun _ closed => closed.elim

/-- A statement that leaves the row of a job live. -/
lemma JobInv.relive {f : BackupJob → BackupJob} (jobs : s'.jobs = onJob jobID f σ.store.jobs)
    (pins : s'.pins = σ.store.pins) (rows : ∀ row ∈ σ.store.jobs, row.jobID = jobID →
      (Progress row (f row) ∧ RowInv canceled' σ.published (f row)) ∧
        ((f row).completedAt = 0 ∨
          (f row).completedAt = row.completedAt ∧ (f row).state = row.state))
    (asked : ∀ id ∈ σ.canceled, id ∈ canceled')
    (accepted : ∀ id ∈ canceled', id ∈ σ.canceled ∨ id = jobID ∧ id ∈ σ.used)
    (fewer : ∀ id ∈ receives', id ∈ σ.receives)
    (receive : jobID ∈ receives' → ReceiveOk s'.jobs jobID)
    (rest : ∀ request ∈ recovery', request ∈ σ.recovery) :
    JobStep σ { σ with
      store := s', canceled := canceled', receives := receives', recovery := recovery' } := by
  have pins' : ∀ pin ∈ s'.pins, pin ∈ σ.store.pins := fun pin member => pins ▸ member
  have change : Change σ.store s' jobID σ.used canceled' σ.published := by
    refine .of_live inv.table jobs pins' (fun row member named => (rows row member named).1) ?_
    intro row member named live
    rcases (rows row member named).2 with still | ⟨same, -⟩
    · exact still
    · exact same.trans live
  suffices moves : Moves (fun _ => False) σ.store.jobs s'.jobs from
    inv.outside change asked accepted moves pins' fewer receive (fun _ closed => closed.elim) rest
      fun _ closed => closed.elim
  refine change.moves fun row' member named => ?_
  rw [jobs] at member
  obtain ⟨row, inJobs, same, rfl⟩ := own_of_onJob member named
  obtain ⟨⟨progress, -⟩, live | kept⟩ := rows row inJobs same
  · exact ⟨row, inJobs, progress, .inl live⟩
  · exact ⟨row, inJobs, progress, .inr (.inr kept)⟩

/-- A client or recovery cancels an import. -/
lemma JobInv.cancelReceived (rows : ∀ row ∈ σ.store.jobs, row.jobID = jobID →
      row.kind = .importJob ∧ (row.completedAt = 0 ∨ row.state = .canceled))
    (closing : jobID ∈ σ.receives ∨ σ.recovery ≠ []) (fewer : ∀ id ∈ receives', id ∈ σ.receives)
    (rest : ∀ request ∈ recovery', request ∈ σ.recovery) (spared : .requeue jobID ∉ recovery') :
    JobStep σ { σ with
      store := σ.store.finishJob σ.clock jobID .canceled, receives := receives'
      recovery := recovery' } := by
  have later : σ.clock ≠ 0 := inv.clock.ne'
  have finished := fun row (member : row ∈ σ.store.jobs) (named : row.jobID = jobID) =>
    (inv.table.rows row member).finish later (.inr rfl)
      ((rows row member named).2.imp_right fun same => ⟨rfl, same⟩)
  have change : Change σ.store (σ.store.finishJob σ.clock jobID .canceled) jobID σ.used σ.canceled
      σ.published := by
    refine .of_onJob inv.table rfl finished (fun pin member => .inl member) ?_
    intro pin member named row inJobs same
    have exported := (inv.table.pins pin member row inJobs (same.trans named.symm)).2
    rw [(rows row inJobs same).1] at exported
    cases exported
  have own : ∀ row' ∈ (σ.store.finishJob σ.clock jobID .canceled).jobs, row'.jobID = jobID →
      ∃ row ∈ σ.store.jobs, row.jobID = jobID ∧ Progress row row' ∧ row'.state = .canceled := by
    intro row' member named
    obtain ⟨row, inJobs, same, rfl⟩ := own_of_onJob member named
    exact ⟨row, inJobs, same, (finished row inJobs same).1, rfl⟩
  have moves : Moves (fun id => id = jobID) σ.store.jobs
      (σ.store.finishJob σ.clock jobID .canceled).jobs := by
    refine change.moves fun row' member named => ?_
    obtain ⟨row, inJobs, -, progress, canceled⟩ := own row' member named
    exact ⟨row, inJobs, progress, .inr (.inl ⟨canceled, named⟩)⟩
  refine inv.outside change (fun _ => id) (fun _ => .inl) moves (fun _ => id) fewer
    (fun _ row' member named => ?_) (by rintro id rfl; exact closing) rest
    (by rintro id rfl; exact spared)
  obtain ⟨row, inJobs, same, progress, canceled⟩ := own row' member named
  exact ⟨progress.kind.trans (rows row inJobs same).1, .inr (.inr canceled)⟩

/-! ## Actions outside the executors -/

lemma ReceiveOk.pending (member : jobID ∈ σ.receives) :
    ∀ row ∈ σ.store.jobs, row.jobID = jobID →
      row.kind = .importJob ∧ (row.completedAt = 0 ∨ row.state = .canceled) := by
  intro row inJobs named
  have live := (inv.table.rows row inJobs).closed.mpr
  obtain ⟨kind, waits | ⟨-, leaves | leaves⟩ | canceled⟩ :=
    inv.receives jobID member row inJobs named
  · exact ⟨kind, .inl (live (by rw [waits]; rfl))⟩
  · exact ⟨kind, .inl (live (by rw [leaves]; rfl))⟩
  · exact ⟨kind, .inl (live (by rw [leaves]; rfl))⟩
  · exact ⟨kind, .inr canceled⟩

lemma JobInv.requeue_spared (member : jobID ∈ σ.receives) :
    .requeue jobID ∉ σ.recovery := fun requeued =>
  (inv.recovery _ requeued).2.1 member

lemma JobInv.receiveFailed (member : jobID ∈ σ.receives) :
    JobStep σ { σ with
      store := σ.store.finishJob σ.clock jobID .canceled
      receives := σ.receives.filter (· ≠ jobID) } :=
  inv.cancelReceived (ReceiveOk.pending inv member) (.inl member)
    (fun _ left => (List.mem_filter.mp left).1) (fun _ => id) (inv.requeue_spared member)

lemma JobInv.received {path : Text} (run : σ.store.queueImport jobID path = .ok s') :
    JobStep σ { σ with store := s', receives := σ.receives.filter (· ≠ jobID) } := by
  obtain ⟨-, rfl⟩ := updateJob_ok run
  refine inv.relive rfl rfl (fun row member named => ?_) (fun _ => id)
    (fun _ => .inl) (fun id left => (List.mem_filter.mp left).1) (fun left => ?_) fun _ => id
  · have before := inv.table.rows row member
    unfold onlyIf
    split_ifs with waits
    · have live : row.completedAt = 0 := by
        refine before.closed.mpr ?_
        rw [of_decide_eq_true waits]
        rfl
      exact ⟨before.relive live .queued rfl nofun nofun path, .inl live⟩
    · exact ⟨⟨.refl row, before⟩, .inr ⟨rfl, rfl⟩⟩
  · simp at left

lemma JobInv.cancel (run : σ.store.cancel jobID = .ok s') :
    JobStep σ { σ with store := s', canceled := jobID :: σ.canceled } := by
  obtain ⟨⟨job, inJobs, rfl, admits⟩, rfl⟩ := updateJob_ok run
  have waiting : ∀ row ∈ σ.store.jobs, row.jobID = job.jobID → row = job := fun row member named =>
    inv.table.unique row member job inJobs named
  have live : job.completedAt = 0 := (of_decide_eq_true admits).1
  refine inv.relive rfl rfl (fun row member named => ?_) (fun _ known => .tail _ known)
    (fun id known => ?_) (fun _ => id) (fun received row' member named => ?_)
    fun _ => id
  · obtain rfl := waiting row member named
    rw [onlyIf, if_pos admits]
    exact ⟨(inv.table.rows row member).cancel live, .inl live⟩
  · rcases List.mem_cons.mp known with rfl | before
    · exact .inr ⟨rfl, inv.table.known job inJobs⟩
    · exact .inl before
  · obtain ⟨row, inRows, same, result⟩ := own_of_onJob member named
    obtain rfl := waiting row inRows same
    rw [onlyIf, if_pos admits] at result
    subst result
    exact ⟨(inv.receives _ received row inRows rfl).1, .inr (.inl ⟨rfl, .inl rfl⟩)⟩

lemma JobInv.releaseArtifact (jobID : Text) :
    JobStep σ { σ with store := σ.store.releaseArtifact jobID } := by
  refine inv.relive rfl rfl (fun row member named => ⟨(inv.table.rows row member).released,
    .inr ⟨rfl, rfl⟩⟩) (fun _ => id) (fun id known => .inl known) (fun _ => id)
    (fun received row' member named => ?_) fun _ => id
  obtain ⟨row, inJobs, same, rfl⟩ := own_of_onJob member named
  exact inv.receives _ received row inJobs same

lemma JobInv.create (fresh : job.jobID ∉ σ.used)
    (row : RowInv σ.canceled σ.published job) (grown : ∀ id ∈ receives', id ∈ σ.receives ∨
      id = job.jobID ∧ job.kind = .importJob ∧ job.state = .receiving)
    (run : σ.store.insertJob job = .ok s') :
    JobStep σ { σ with store := s', receives := receives', used := job.jobID :: σ.used } := by
  simp only [insertJob, bind_ok, pure_ok] at run
  obtain ⟨jobs, inserted, rfl⟩ := run
  obtain ⟨-, rfl⟩ := Sqlite.insertRow_ok.mp inserted
  -- Ids drawn before are not the new one, so their rows are the old ones.
  have old : ∀ id ∈ σ.used, ∀ row ∈ σ.store.jobs ++ [job], row.jobID = id → row ∈ σ.store.jobs := by
    intro id known row member named
    rcases List.mem_append.mp member with before | last
    · exact before
    · rw [List.mem_singleton.mp last] at named
      exact absurd (named ▸ known) fresh
  have kept : Kept σ { σ with
      store := { σ.store with jobs := σ.store.jobs ++ [job] }, receives := receives'
      used := job.jobID :: σ.used } :=
    ⟨fun _ known => .tail _ known, fun _ => id, fun row member known =>
      ⟨row, old _ known row member rfl, .refl row⟩⟩
  refine ⟨⟨inv.clock, ⟨?_, ?_, ?_, inv.table.once,
    fun id member => .tail _ (inv.table.accepted id member),
    fun id member => .tail _ (inv.table.recorded id member),
    fun pin member => .tail _ (inv.table.pinned pin member), ?_⟩, ?_, inv.apart, ?_, ?_, ?_,
    inv.separate, inv.quiet⟩, kept⟩
  · intro a inA b inB same
    rcases List.mem_append.mp inA with oldA | newA
    · exact inv.table.unique a oldA b (old _ (inv.table.known a oldA) b inB same.symm) same
    · rcases List.mem_append.mp inB with oldB | newB
      · exact inv.table.unique a (old _ (inv.table.known b oldB) a inA same) b oldB same
      · rw [List.mem_singleton.mp newA, List.mem_singleton.mp newB]
  · intro row member
    rcases List.mem_append.mp member with before | last
    · exact .tail _ (inv.table.known row before)
    · rw [List.mem_singleton.mp last]
      exact List.mem_cons_self
  · intro other member
    rcases List.mem_append.mp member with before | last
    · exact inv.table.rows other before
    · rw [List.mem_singleton.mp last]
      exact row
  · intro pin member row inJobs named
    exact inv.table.pins pin member row (old _ (inv.table.pinned pin member) row inJobs named) named
  · intro index task held placed holds
    have ok := inv.tasks index task held placed holds
    refine ⟨ok.held, .tail _ ok.known,
      fun row member named => ok.same row (old _ ok.known row member named) named,
      fun row member named => ok.live row (old _ ok.known row member named) named,
      fun received => ?_, ok.phase⟩
    rcases grown _ received with before | ⟨same, -⟩
    · exact ok.received before
    · exact absurd (same ▸ ok.known) fresh
  · intro id member
    rcases grown id member with before | ⟨rfl, -⟩
    · exact .tail _ (inv.drawn id before)
    · exact List.mem_cons_self
  · intro id member other inJobs named
    rcases grown id member with before | ⟨rfl, kind, state⟩
    · exact inv.receives id before other (old _ (inv.drawn id before) other inJobs named) named
    · rcases List.mem_append.mp inJobs with known | last
      · exact absurd (named ▸ inv.table.known other known) fresh
      · rw [List.mem_singleton.mp last]
        exact ⟨kind, .inl state⟩
  · intro request member
    have ok := inv.recovery request member
    cases request with
    | finishJob id outcome =>
      exact ⟨ok.1, .tail _ ok.2.1, fun row inJobs named =>
        ok.2.2 row (old _ ok.2.1 row inJobs named) named⟩
    | requeue id =>
      refine ⟨.tail _ ok.1, fun received => ?_, fun row inJobs named =>
        ok.2.2 row (old _ ok.1 row inJobs named) named⟩
      rcases grown id received with before | ⟨rfl, -⟩
      · exact ok.2.1 before
      · exact fresh ok.1
    | reset id state =>
      exact ⟨ok.1, .tail _ ok.2.1, fun row inJobs named =>
        ok.2.2 row (old _ ok.2.1 row inJobs named) named⟩
    | _ => exact ok

/-- The row of a new job, whose id was never drawn. -/
lemma RowInv.new (fresh : jobID ∉ σ.used) (kind : JobKind) (state : JobState)
    (scope : Text) (dryRun : Bool) (policy : ConflictPolicy)
    (first : state = .queued ∨ state = .receiving ∧ kind = .importJob) :
    RowInv σ.canceled σ.published (newJob jobID kind state scope dryRun policy) := by
  refine ⟨⟨fun _ => ?_, fun _ => rfl⟩, nofun, fun member =>
    absurd (inv.table.accepted _ member) fresh,
    fun same => ?_, fun same => ?_, fun member => absurd (inv.table.recorded _ member) fresh,
    fun same => ?_⟩
  all_goals rcases first with rfl | ⟨rfl, imports⟩
  all_goals first | rfl | exact imports | cases same

/-! ## Recovery -/

end

/-- A statement of the plan comes from a row that was not finished. -/
lemma recoverPlan_mem (member : request ∈ recoverPlan s) :
    (∃ job ∈ s.jobs, job.completedAt = 0 ∧ request ∈ recoverJob job) ∨
      request = .cleanOrphanPins := by
  rcases List.mem_append.mp member with planned | last
  · obtain ⟨job, inJobs, mine⟩ := List.mem_flatMap.mp planned
    obtain ⟨inTable, live⟩ := List.mem_filter.mp inJobs
    exact .inl ⟨job, inTable, of_decide_eq_true live, mine⟩
  · exact .inr (List.mem_singleton.mp last)

lemma recoverJob_mem (member : request ∈ recoverJob job) :
    job.state = .receiving ∧ request = .finishJob job.jobID .canceled ∨
      job.state = .staging ∧ request = .requeue job.jobID ∨
      job.state ≠ .receiving ∧ request = .reset job.jobID .queued ∨
      request = .release job.jobID ∨ request = .discardImport job.jobID ∨
      request = .deleteJobFiles job.jobID := by
  unfold recoverJob at member
  split_ifs at member with waits
  · exact .inl ⟨waits, List.mem_singleton.mp member⟩
  · cases kind : job.kind <;> cases state : job.state <;>
      simp only [kind, state, List.mem_cons, List.not_mem_nil, or_false] at member waits <;> grind

lemma JobInv.startRecovery (inv : JobInv σ) (idle : ∀ task ∈ σ.workers, task = .idle) :
    JobInv { σ with recovery := recoverPlan σ.store } where
  clock := inv.clock
  table := inv.table
  tasks := inv.tasks
  apart := inv.apart
  drawn := inv.drawn
  receives := inv.receives
  recovery := by
    intro request member
    obtain ⟨job, inJobs, live, mine⟩ | rfl := recoverPlan_mem member
    · have mine' : ∀ row ∈ σ.store.jobs, row.jobID = job.jobID → row = job := fun row inRows same =>
        inv.table.unique row inRows job inJobs same
      have known := inv.table.known job inJobs
      obtain ⟨state, rfl⟩ | ⟨state, rfl⟩ | ⟨state, rfl⟩ | rfl | rfl | rfl := recoverJob_mem mine
      · refine ⟨rfl, known, fun row inRows same => ?_⟩
        rw [mine' row inRows same]
        exact ⟨(inv.table.rows job inJobs).receiving state, .inl live⟩
      · refine ⟨known, fun received => ?_, fun row inRows same => ?_⟩
        · -- An import that is being staged is not being received, nor canceled.
          have receive := (inv.receives _ received job inJobs rfl).2
          simp [state] at receive
        · rw [mine' row inRows same]
          exact live
      · refine ⟨rfl, known, fun row inRows same => ?_⟩
        rw [mine' row inRows same]
        exact state
      all_goals exact trivial
    · exact trivial
  separate := by
    intro id outcome finished requeued
    obtain ⟨job, inJobs, -, mine⟩ | other := recoverPlan_mem finished
    · obtain ⟨job', inJobs', -, mine'⟩ | other' := recoverPlan_mem requeued
      · have first := recoverJob_mem mine
        have second := recoverJob_mem mine'
        simp only [JobRequest.finishJob.injEq, JobRequest.requeue.injEq, reduceCtorEq, and_false,
          or_false, false_or] at first second
        obtain ⟨waits, rfl, -⟩ := first
        obtain ⟨staging, same⟩ := second
        rw [inv.table.unique job inJobs job' inJobs' same, staging] at waits
        cases waits
      · cases other'
    · cases other
  quiet := fun _ => idle

lemma JobInv.recover (inv : JobInv σ) {rest : List JobRequest}
    (left : σ.recovery = request :: rest) (run : request.run env archive σ.clock σ.store = .ok s') :
    JobStep σ { σ with store := s', recovery := rest } := by
  have listed : request ∈ σ.recovery := left ▸ List.mem_cons_self
  have shorter : ∀ later ∈ rest, later ∈ σ.recovery := fun later member =>
    left ▸ List.mem_cons_of_mem _ member
  have ok := inv.recovery request listed
  cases request with
  | finishJob id outcome =>
    obtain ⟨rfl, -, rows⟩ := ok
    obtain rfl := Except.ok.inj run
    exact inv.cancelReceived rows (.inr (List.ne_nil_of_mem listed)) (fun _ known => known) shorter
      fun member => inv.separate id .canceled listed (shorter _ member)
  | requeue id =>
    obtain ⟨-, notReceived, live⟩ := ok
    obtain rfl := Except.ok.inj run
    refine inv.relive rfl rfl (fun row member named => ?_) (fun _ known => known)
      (fun _ known => .inl known) (fun _ known => known)
      (fun received => absurd received notReceived) shorter
    have zero := live row member named
    exact ⟨(inv.table.rows row member).relive zero .queued rfl nofun nofun row.artifactPath,
      .inl zero⟩
  | reset id state =>
    obtain ⟨rfl, -, started⟩ := ok
    obtain rfl := Except.ok.inj run
    refine inv.relive (resetState_jobs id .queued) rfl (fun row member named => ?_)
      (fun _ known => known) (fun _ known => .inl known) (fun _ known => known)
      (fun received row' member named => ?_) shorter
    · unfold onlyIf
      split_ifs with live
      · have zero : row.completedAt = 0 := of_decide_eq_true live
        exact ⟨(inv.table.rows row member).relive zero .queued rfl nofun nofun row.artifactPath,
          .inl zero⟩
      · exact ⟨⟨.refl row, inv.table.rows row member⟩, .inr ⟨rfl, rfl⟩⟩
    · rw [resetState_jobs] at member
      obtain ⟨row, inJobs, same, result⟩ := own_of_onJob member named
      have receive := inv.receives id received row inJobs same
      unfold onlyIf at result
      split_ifs at result with live
      · subst result
        obtain ⟨kind, waits | ⟨asked, -⟩ | canceled⟩ := receive
        · exact absurd waits (started row inJobs same)
        · exact ⟨kind, .inr (.inl ⟨asked, .inr rfl⟩)⟩
        · have running := (inv.table.rows row inJobs).closed.mp (of_decide_eq_true live)
          rw [canceled] at running
          cases running
      · subst result
        exact receive
  | release id =>
    obtain rfl := Except.ok.inj run
    exact inv.fewer (fun _ member => member) (fun pin member => (List.mem_filter.mp member).1)
      shorter
  | discardImport id =>
    have same := markMappingFilesPending_sameJobs run
    exact inv.fewer (fun _ member => same.jobs ▸ member) (fun _ member => same.pins ▸ member)
      shorter
  | deleteJobFiles id =>
    obtain rfl := Except.ok.inj run
    exact inv.fewer (fun _ member => member) (fun _ member => member) shorter
  | cleanOrphanPins =>
    obtain rfl := Except.ok.inj run
    exact inv.fewer (fun _ member => member) (fun pin member => (List.mem_filter.mp member).1)
      shorter
  | _ => exact ok.elim

/-! ## Executors -/

/-- The executors hold different jobs when one of them takes a job that no other holds. -/
lemma JobInv.apart_set (inv : JobInv σ)
    (alone : ∀ other : Nat, other ≠ index → ∀ task, σ.workers[other]? = some task →
      ∀ job, task.job? = some job → ∀ mine, next.job? = some mine → job.jobID ≠ mine.jobID)
    (i j : Nat) (a b : Task) (x y : BackupJob) (placedA : (σ.workers.set index next)[i]? = some a)
    (placedB : (σ.workers.set index next)[j]? = some b) (heldA : a.job? = some x)
    (heldB : b.job? = some y) (same : x.jobID = y.jobID) : i = j := by
  rw [List.getElem?_set] at placedA placedB
  split_ifs at placedA placedB with hereI boundI hereJ boundJ hereJ
  · exact hereI.symm.trans hereJ
  · obtain rfl := Option.some.inj placedA
    exact absurd same.symm (alone j (Ne.symm hereJ) b placedB y heldB x heldA)
  · obtain rfl := Option.some.inj placedB
    exact absurd same (alone i (Ne.symm hereI) a placedA x heldA y heldB)
  · exact inv.apart i j a b x y placedA placedB heldA heldB same

/-- An executor starts on a job, or stops working. -/
lemma JobInv.assign (inv : JobInv σ) (quiet : next = .idle ∨ σ.recovery = [])
    (ok : ∀ job, next.job? = some job → TaskOk σ.store σ.receives σ.used next job)
    (alone : ∀ other : Nat, other ≠ index → ∀ task, σ.workers[other]? = some task →
      ∀ job, task.job? = some job → ∀ mine, next.job? = some mine → job.jobID ≠ mine.jobID) :
    JobInv { σ with workers := σ.workers.set index next } where
  clock := inv.clock
  table := inv.table
  drawn := inv.drawn
  receives := inv.receives
  recovery := inv.recovery
  separate := inv.separate
  quiet := by
    intro recovers task member
    rcases List.mem_or_eq_of_mem_set member with before | rfl
    · exact inv.quiet recovers task before
    · exact quiet.resolve_right recovers
  tasks := by
    intro place task job placed held
    rw [List.getElem?_set] at placed
    split_ifs at placed with same bound
    · obtain rfl := Option.some.inj placed
      exact ok job held
    · exact inv.tasks place task job placed held
  apart := inv.apart_set alone

/-- What a statement of an executor does to its job. -/
structure Worked (σ : JobSystem) (published : List Text) (job : BackupJob) (result : Store × Task) :
    Prop where
  change : Change σ.store result.1 job.jobID σ.used σ.canceled published
  after : result.2.job? = none ∨ TaskOk result.1 σ.receives σ.used result.2 job
  receive : job.jobID ∈ σ.receives → ReceiveOk result.1.jobs job.jobID

lemma JobInv.worked (inv : JobInv σ) (placed : σ.workers[index]? = some task)
    (held : task.job? = some job) {result : Store × Task} (worked : Worked σ published' job result)
    (same : ∀ id, id ≠ job.jobID → (id ∈ published' ↔ id ∈ σ.published))
    (recorded : ∀ id ∈ published', id ∈ σ.used) (once : published'.Nodup) :
    JobStep σ { σ with
      store := result.1, workers := σ.workers.set index result.2, published := published' } := by
  have resting : σ.recovery = [] := by
    by_contra recovers
    rw [inv.idle_of_recovery recovers placed] at held
    cases held
  -- Another executor holds another job, whose rows did not change.
  have other : ∀ place : Nat, place ≠ index → ∀ task' job', σ.workers[place]? = some task' →
      task'.job? = some job' → job'.jobID ≠ job.jobID ∧
        TaskOk result.1 σ.receives σ.used task' job' := by
    intro place away task' job' placed' held'
    have distinct : job'.jobID ≠ job.jobID := fun equal =>
      away (inv.apart place index task' task job' job placed' placed held' held equal)
    have ok := inv.tasks place task' job' placed' held'
    refine ⟨distinct, ok.held, ok.known, fun row member named => ?_, fun row member named => ?_,
      ok.received, ?_⟩
    · exact ok.same row (worked.change.frame row member (named ▸ distinct)) named
    · exact ok.live row (worked.change.frame row member (named ▸ distinct)) named
    · have phase := ok.phase
      cases task' with
      | finish held'' outcome =>
        obtain rfl : held'' = job' := Option.some.inj held'
        refine ⟨phase.1, fun kind pin member named => ?_⟩
        rcases worked.change.pins pin member with before | ⟨mine, -⟩
        · exact phase.2 kind pin before named
        · exact distinct (named.symm.trans mine)
      | _ => exact phase
  have mine : ∀ job', result.2.job? = some job' →
      job' = job ∧ TaskOk result.1 σ.receives σ.used result.2 job := by
    intro job' held'
    rcases worked.after with none | ok
    · rw [none] at held'
      cases held'
    · exact ⟨Option.some.inj (held'.symm.trans ok.held), ok⟩
  refine ⟨⟨inv.clock, worked.change.table inv.table (fun id member => .inl member) same recorded
    once, ?_, ?_, inv.drawn, ?_, ?_, ?_, ?_⟩,
    .of_change job.jobID worked.change rfl fun _ member => member⟩
  · intro place task' job' placed' held'
    rw [List.getElem?_set] at placed'
    split_ifs at placed' with here bound
    · obtain rfl := Option.some.inj placed'
      obtain ⟨rfl, ok⟩ := mine job' held'
      exact ok
    · exact (other place (Ne.symm here) task' job' placed' held').2
  · refine inv.apart_set fun place away task' placed' job' held' own ownHeld => ?_
    rw [(mine own ownHeld).1]
    exact (other place away task' job' placed' held').1
  · intro id member
    by_cases this : id = job.jobID
    · subst this
      exact worked.receive member
    · exact (inv.receives id member).other worked.change this
  · simp [resting]
  · simp [resting]
  · exact fun recovers => absurd resting recovers

section
variable (ok : TaskOk s receives used task job)
include ok

/-- The executor goes on without changing the rows. -/
lemma TaskOk.proceed (held : next.job? = some job)
    (doomed : task.doomed = true → next.doomed = true) (phase : next.Phase s.pins) :
    TaskOk s receives used next job :=
  ⟨held, ok.known, ok.same, fun row member named => (ok.live row member named).imp_right
    fun ⟨dooms, canceled⟩ => ⟨doomed dooms, canceled⟩, fun member => doomed (ok.received member),
    phase⟩

lemma TaskOk.sameJobs (same : SameJobs s s') : TaskOk s' receives used task job :=
  ⟨ok.held, ok.known, same.jobs ▸ ok.same, same.jobs ▸ ok.live, ok.received, same.pins ▸ ok.phase⟩

lemma TaskOk.not_received (calm : task.doomed = false) :
    job.jobID ∉ receives := fun member => by
  rw [ok.received member] at calm
  cases calm

lemma TaskOk.running (calm : task.doomed = false) :
    ∀ row ∈ s.jobs, row.jobID = job.jobID → row.completedAt = 0 := by
  intro row member named
  rcases ok.live row member named with live | ⟨dooms, -⟩
  · exact live
  · rw [calm] at dooms
    cases dooms

end

section Statements

variable (inv : JobInv σ) (ok : TaskOk σ.store σ.receives σ.used task job)
include inv

lemma Worked.sameJobs (same : SameJobs σ.store s')
    (after : next.job? = none ∨ TaskOk σ.store σ.receives σ.used next job) :
    Worked σ σ.published job (s', next) where
  change := .of_subset inv.table _ (fun _ member => same.jobs ▸ member)
    fun _ member => same.pins ▸ member
  after := after.imp_right fun ok => ok.sameJobs same
  receive := fun member => same.jobs ▸ inv.receives _ member

lemma Worked.stay (after : next.job? = none ∨ TaskOk σ.store σ.receives σ.used next job) :
    Worked σ σ.published job (σ.store, next) :=
  .sameJobs inv (.refl _) after

lemma Worked.close {f : BackupJob → BackupJob} (jobs : s'.jobs = onJob job.jobID f σ.store.jobs)
    (rows : ∀ row ∈ σ.store.jobs, row.jobID = job.jobID →
      Progress row (f row) ∧ RowInv σ.canceled published' (f row))
    (pins : ∀ pin ∈ s'.pins, pin ∈ σ.store.pins)
    (none : ∀ pin ∈ s'.pins, pin.jobID = job.jobID → ∀ row ∈ σ.store.jobs,
      row.jobID = job.jobID → row.kind = .importJob) (stops : next.job? = .none)
    (receive : job.jobID ∈ σ.receives → ∀ row ∈ σ.store.jobs, row.jobID = job.jobID →
      (f row).state = .canceled) : Worked σ published' job (s', next) where
  change := by
    refine .of_onJob inv.table jobs rows (fun pin member => .inl (pins pin member)) ?_
    intro pin member named row inJobs same
    have exported := (inv.table.pins pin (pins pin member) row inJobs (same.trans named.symm)).2
    rw [none pin member named row inJobs same] at exported
    cases exported
  after := .inl stops
  receive := by
    intro member row' inJobs named
    rw [jobs] at inJobs
    obtain ⟨row, inRows, same, rfl⟩ := own_of_onJob inJobs named
    refine ⟨(rows row inRows same).1.kind.trans (inv.receives _ member row inRows same).1, ?_⟩
    exact .inr (.inr (receive member row inRows same))

include ok

lemma Worked.relive {f : BackupJob → BackupJob} (calm : task.doomed = false)
    (jobs : s'.jobs = onJob job.jobID f σ.store.jobs) (pins : s'.pins = σ.store.pins)
    (rows : ∀ row ∈ σ.store.jobs, row.jobID = job.jobID → row.completedAt = 0 →
      (Progress row (f row) ∧ RowInv σ.canceled σ.published (f row)) ∧ (f row).completedAt = 0)
    (held : next.job? = some job) (phase : next.Phase σ.store.pins) :
    Worked σ σ.published job (s', next) := by
  have live := ok.running calm
  have back : ∀ row' ∈ s'.jobs, row'.jobID = job.jobID → ∃ row ∈ σ.store.jobs,
      row.jobID = job.jobID ∧ Progress row row' ∧ row'.completedAt = 0 := by
    intro row' member named
    rw [jobs] at member
    obtain ⟨row, inJobs, same, rfl⟩ := own_of_onJob member named
    obtain ⟨⟨progress, -⟩, zero⟩ := rows row inJobs same (live row inJobs same)
    exact ⟨row, inJobs, same, progress, zero⟩
  refine ⟨.of_live inv.table jobs (fun _ member => pins ▸ member)
    (fun row member named => (rows row member named (live row member named)).1)
    (fun row member named zero => (rows row member named zero).2), .inr ⟨held, ok.known,
      fun row' member named => ?_, fun row' member named => ?_,
      fun member => absurd member (ok.not_received calm), pins ▸ phase⟩,
    fun member => absurd member (ok.not_received calm)⟩
  · obtain ⟨row, inJobs, same, progress, -⟩ := back row' member named
    rw [progress.kind, progress.dryRun]
    exact ok.same row inJobs same
  · obtain ⟨-, -, -, -, zero⟩ := back row' member named
    exact .inl zero

lemma Worked.dooms : Worked σ σ.published job (σ.store, .discard job .canceled) :=
  .stay inv (.inr (ok.proceed rfl (fun _ => rfl) (.inr rfl)))

variable (calm : task.doomed = false)
include calm

lemma Worked.failed : Worked σ σ.published job (σ.store, .failed job) :=
  .stay inv (.inr (ok.proceed rfl (fun dooms => by rw [calm] at dooms; cases dooms) trivial))

lemma Worked.guarded {choice : Choice} {proceed : Store × Task}
    (worked : Worked σ σ.published job proceed) :
    Worked σ σ.published job (guarded σ.store job choice task proceed) := by
  cases choice with
  | proceed => exact worked
  | fail => exact .failed inv ok calm
  | checkCanceled =>
    unfold Backup.guarded
    split_ifs
    · exact .dooms inv ok
    · exact .stay inv (.inr ok)

lemma Worked.attempt {result : Except Err Store}
    (worked : ∀ s', result = .ok s' → Worked σ σ.published job (s', next)) :
    Worked σ σ.published job (attempt σ.store job result next) := by
  cases result with
  | ok s' => exact worked s' rfl
  | error e => exact .failed inv ok calm

lemma Worked.claim {source target : JobState}
    (running : isTerminal target = false) (started : target ≠ .receiving)
    (publishing : target = .publishing → job.kind = .importJob ∧ job.dryRun = false)
    (held : next.job? = some job) (phase : next.Phase σ.store.pins) :
    Worked σ σ.published job (claim σ.store job source target next) := by
  unfold Backup.claim
  cases run : σ.store.transitionState job.jobID source target with
  | ok s' =>
    obtain ⟨-, rfl⟩ := updateJob_ok run
    refine .relive inv ok calm rfl rfl (fun row member named live => ?_) held phase
    have before := inv.table.rows row member
    unfold onlyIf
    split_ifs with admits
    · obtain ⟨-, -, kept⟩ := of_decide_eq_true admits
      obtain ⟨kind, dryRun⟩ := ok.same row member named
      refine ⟨before.relive live target running started (fun same => ?_) row.artifactPath, live⟩
      exact ⟨kept, kind.trans (publishing same).1, dryRun.trans (publishing same).2⟩
    · exact ⟨⟨.refl row, before⟩, live⟩
  | error e =>
    simp only
    split_ifs
    · exact .dooms inv ok
    · exact .stay inv (.inl rfl)

end Statements

lemma releaseArtifact_moves (s : Store) (jobID : Text) :
    Moves (fun _ => False) s.jobs (s.releaseArtifact jobID).jobs := by
  intro row' member
  obtain ⟨row, inJobs, result⟩ := List.mem_map.mp member
  refine ⟨row, inJobs, ?_⟩
  split_ifs at result
  · subst result
    exact ⟨⟨rfl, rfl, rfl, fun done => ⟨done, rfl⟩, id, id⟩, .inr (.inr ⟨rfl, rfl⟩)⟩
  · subst result
    exact ⟨.refl row, .inr (.inr ⟨rfl, rfl⟩)⟩

/-! ## The statements of an executor -/

section Executor

variable (inv : JobInv σ) {choice : Choice} {outcome : JobState}
include inv

lemma Worked.read (ok : TaskOk σ.store σ.receives σ.used (.read job) job) :
    Worked σ σ.published job (advance env archive σ.clock σ.store choice (.read job)) := by
  rw [advance]
  split_ifs with doomed
  · exact .dooms inv ok
  · have calm : (Task.read job).doomed = false := decide_eq_false doomed
    refine .guarded inv ok calm ?_
    unfold executeJob
    cases kind : job.kind with
    | exportJob => exact .claim inv ok calm rfl nofun nofun rfl kind
    | importJob =>
      simp only
      split_ifs
      · exact .failed inv ok calm
      · exact .stay inv (.inr (ok.proceed rfl (fun dooms => by rw [calm] at dooms; cases dooms)
          kind))
      · exact .claim inv ok calm rfl nofun nofun rfl kind

lemma Worked.snapshot (ok : TaskOk σ.store σ.receives σ.used (.snapshot job) job) :
    Worked σ σ.published job (advance env archive σ.clock σ.store choice (.snapshot job)) := by
  have kind : job.kind = .exportJob := ok.phase
  refine .guarded inv ok rfl (.attempt inv ok rfl fun s' run => ?_)
  obtain ⟨jobs, pins⟩ := createBackupSnapshot_jobs run
  have rows : ∀ row ∈ s'.jobs, row ∈ σ.store.jobs := fun row member => jobs ▸ member
  refine ⟨⟨?_, fun row member _ => rows row member, fun row member _ => ?_, fun pin member => ?_,
    fun pin _ _ row member named => ?_⟩, .inr ⟨rfl, ok.known, jobs ▸ ok.same, jobs ▸ ok.live,
      ok.received, kind⟩, fun member => jobs ▸ inv.receives _ member⟩
  · rw [jobs]
    exact inv.table.unique
  · exact ⟨inv.table.rows row (rows row member), row, rows row member, .refl row⟩
  · exact (pins pin member).imp_right fun same => ⟨same, ok.known⟩
  · exact ⟨ok.running rfl row (rows row member) named,
      (ok.same row (rows row member) named).1.trans kind⟩

lemma Worked.saved (ok : TaskOk σ.store σ.receives σ.used (.saved job) job) :
    Worked σ σ.published job (advance env archive σ.clock σ.store choice (.saved job)) := by
  refine .guarded inv ok rfl (.relive inv ok rfl rfl rfl (fun row member _ live => ?_) rfl ok.phase)
  exact ⟨(inv.table.rows row member).relive live .building rfl nofun nofun row.artifactPath, live⟩

lemma Worked.building (ok : TaskOk σ.store σ.receives σ.used (.building job) job) :
    Worked σ σ.published job (advance env archive σ.clock σ.store choice (.building job)) := by
  have kind : job.kind = .exportJob := ok.phase
  refine .guarded inv ok rfl ?_
  cases run : σ.store.completeExport σ.clock job.jobID (job.jobID ++ ".tgfb".toList) with
  | error e => exact .dooms inv ok
  | ok s' =>
    simp only [completeExport, bind_ok, pure_ok] at run
    obtain ⟨t, updated, rfl⟩ := run
    obtain ⟨-, rfl⟩ := updateJob_ok updated
    refine .close inv rfl (fun row member named => ?_)
      (fun pin member => (List.mem_filter.mp member).1) (fun pin member named => ?_) rfl
      fun member => absurd member (ok.not_received rfl)
    · have before := inv.table.rows row member
      unfold onlyIf
      split_ifs with admits
      · refine before.succeed inv.clock.ne' (ok.running rfl row member named)
          (of_decide_eq_true admits).2 (fun imported => ?_) _
        rw [(ok.same row member named).1, kind] at imported
        cases imported
      · exact ⟨.refl row, before⟩
    · exact absurd named (of_decide_eq_true (List.mem_filter.mp member).2)

lemma Worked.validating (ok : TaskOk σ.store σ.receives σ.used (.validating job) job) :
    Worked σ σ.published job (advance env archive σ.clock σ.store choice (.validating job)) := by
  have kind : job.kind = .importJob := ok.phase
  refine .guarded inv ok rfl ?_
  split_ifs with dry
  · cases run : σ.store.finishSuccessfulJob σ.clock job.jobID with
    | error e => exact .dooms inv ok
    | ok s' =>
      obtain ⟨-, rfl⟩ := updateJob_ok run
      refine .close inv rfl (fun row member named => ?_) (fun pin member => member)
        (fun pin _ _ row member named => (ok.same row member named).1.trans kind) rfl
        fun member => absurd member (ok.not_received rfl)
      have before := inv.table.rows row member
      unfold onlyIf
      split_ifs with admits
      · obtain ⟨live, kept⟩ := of_decide_eq_true admits
        exact before.succeed inv.clock.ne' live kept
          (fun _ => (ok.same row member named).2.trans dry) row.artifactPath
      · exact ⟨.refl row, before⟩
  · exact .claim inv ok rfl rfl nofun nofun rfl ⟨kind, eq_false_of_ne_true dry⟩

lemma Worked.finish (ok : TaskOk σ.store σ.receives σ.used (.finish job outcome) job) :
    Worked σ σ.published job (advance env archive σ.clock σ.store choice
      (.finish job outcome)) := by
  obtain ⟨ends, unpinned⟩ := ok.phase
  have doomed : (Task.finish job outcome).doomed = true → outcome = .canceled := of_decide_eq_true
  refine .close inv rfl (fun row member named => ?_) (fun pin member => member)
    (fun pin member same row inJobs named => ?_) rfl fun member row _ _ =>
      doomed (ok.received member)
  · refine (inv.table.rows row member).finish inv.clock.ne' ends ?_
    exact (ok.live row member named).imp_right fun ⟨dooms, canceled⟩ => ⟨doomed dooms, canceled⟩
  · rw [(ok.same row inJobs named).1]
    cases kind : job.kind with
    | importJob => rfl
    | exportJob => exact absurd same (unpinned kind pin member)

lemma Worked.discard (ok : TaskOk σ.store σ.receives σ.used (.discard job outcome) job) :
    Worked σ σ.published job (advance env archive σ.clock σ.store choice
      (.discard job outcome)) := by
  have ends : Ends outcome := ok.phase
  cases kind : job.kind with
  | exportJob =>
    simp only [advance, kind]
    refine ⟨.of_subset inv.table _ (fun _ member => member)
      fun pin member => (List.mem_filter.mp member).1, .inr ⟨rfl, ok.known, ok.same, ok.live,
        ok.received, ends, fun _ pin member => of_decide_eq_true (List.mem_filter.mp member).2⟩,
      inv.receives _⟩
  | importJob =>
    simp only [advance, kind]
    cases run : σ.store.discardBackupImport σ.clock job.jobID with
    | error e => exact .stay inv (.inr ok)
    | ok s' =>
      exact .sameJobs inv (markMappingFilesPending_sameJobs run)
        (.inr (ok.proceed rfl id ⟨kind, ends⟩))

lemma Worked.clear (ok : TaskOk σ.store σ.receives σ.used (.clear job outcome) job) :
    Worked σ σ.published job (advance env archive σ.clock σ.store choice (.clear job outcome)) := by
  obtain ⟨kind, ends⟩ := ok.phase
  have moved := ok.moves (releaseArtifact_moves σ.store job.jobID) (fun _ member _ => member)
    (fun _ member => member) False.elim
  refine ⟨.of_live inv.table rfl (fun _ member => member)
    (fun row member _ => (inv.table.rows row member).released) (fun _ _ _ live => live),
    .inr (moved.proceed rfl id ⟨ends, fun exported => ?_⟩),
    (inv.releaseArtifact job.jobID).inv.receives _⟩
  rw [kind] at exported
  cases exported

end Executor

end TgFile.Backup
