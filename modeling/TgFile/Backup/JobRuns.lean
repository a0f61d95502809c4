import TgFile.Backup.JobLife
import TgFile.System.Model

/-! # Runs of the job system -/

namespace TgFile.Backup

open Go Store Result

variable {env : Env} {archive : Archive} {σ σ' : JobSystem} {task : Task} {job : BackupJob}
  {s' : Store}

/-! ## One statement of an executor -/

lemma Worked.published (inv : JobInv σ)
    (ok : TaskOk σ.store σ.receives σ.used (.publishing job) job)
    (run : σ.store.publishBackupImport σ.clock job.jobID (archive.manifest job.jobID)
      job.conflictPolicy = .ok s') :
    Worked σ (job.jobID :: σ.published) job (s', .done job) ∧ job.jobID ∉ σ.published := by
  have kind : job.kind = .importJob := ok.phase
  obtain ⟨⟨target, inJobs, named, publishing⟩, pins, jobs⟩ := publishBackupImport_jobs run
  have state : target.state = .publishing := (of_decide_eq_true publishing).2
  constructor
  · refine .close inv jobs (fun row member same => ?_) (fun pin member => pins ▸ member)
      (fun pin _ _ row member same => (ok.same row member same).1.trans kind) rfl
      fun member => absurd member (ok.not_received rfl)
    obtain rfl : row = target := inv.table.unique row member target inJobs (same.trans named.symm)
    rw [onlyIf, if_pos publishing, ← same]
    exact (inv.table.rows row member).publish inv.clock.ne' state
  · rw [← named]
    exact (inv.table.rows target inJobs).not_published (by simp [state])

lemma Worked.advance (inv : JobInv σ) (ok : TaskOk σ.store σ.receives σ.used task job)
    {choice : Choice} (nothing : publishes archive σ.clock σ.store task choice = none) :
    Worked σ σ.published job (advance env archive σ.clock σ.store choice task) := by
  have alive : ∀ {next : Prop}, false = true → next := fun never => absurd never Bool.false_ne_true
  cases task with
  | idle => cases ok.held
  | done _ => cases ok.held
  | read held =>
    obtain rfl : held = job := Option.some.inj ok.held
    exact .read inv ok
  | snapshot held =>
    obtain rfl : held = job := Option.some.inj ok.held
    exact .snapshot inv ok
  | saved held =>
    obtain rfl : held = job := Option.some.inj ok.held
    exact .saved inv ok
  | building held =>
    obtain rfl : held = job := Option.some.inj ok.held
    exact .building inv ok
  | validating held =>
    obtain rfl : held = job := Option.some.inj ok.held
    exact .validating inv ok
  | beginning held =>
    obtain rfl : held = job := Option.some.inj ok.held
    exact .guarded inv ok rfl (.attempt inv ok rfl fun s' run =>
      .sameJobs inv (beginBackupImport_sameJobs run) (.inr (ok.proceed rfl alive ok.phase)))
  | parts held =>
    obtain rfl : held = job := Option.some.inj ok.held
    exact .guarded inv ok rfl (.attempt inv ok rfl fun s' run =>
      .sameJobs inv (finishBackupImportFiles_sameJobs run) (.inr (ok.proceed rfl alive ok.phase)))
  | staged held =>
    obtain rfl : held = job := Option.some.inj ok.held
    exact .guarded inv ok rfl (.claim inv ok rfl rfl (by simp) (fun _ => ok.phase) rfl ok.phase.1)
  | root held =>
    obtain rfl : held = job := Option.some.inj ok.held
    exact .guarded inv ok rfl (.attempt inv ok rfl fun s' run =>
      .sameJobs inv (prepareImportRoot_sameJobs run) (.inr (ok.proceed rfl alive ok.phase)))
  | publishing held =>
    obtain rfl : held = job := Option.some.inj ok.held
    cases choice with
    | proceed =>
      refine .attempt inv ok rfl fun s' run => ?_
      simp only [publishes, run] at nothing
      cases nothing
    | fail => exact .failed inv ok rfl
    | checkCanceled =>
      simp only [Backup.advance, Backup.guarded]
      split_ifs
      · exact .dooms inv ok
      · exact .stay inv (.inr ok)
  | failed held =>
    obtain rfl : held = job := Option.some.inj ok.held
    rw [Backup.advance]
    split_ifs
    · exact .stay inv (.inl rfl)
    · exact .stay inv (.inr (ok.proceed rfl alive (.inl rfl)))
  | discard held outcome =>
    obtain rfl : held = job := Option.some.inj ok.held
    exact .discard inv ok
  | clear held outcome =>
    obtain rfl : held = job := Option.some.inj ok.held
    exact .clear inv ok
  | finish held outcome =>
    obtain rfl : held = job := Option.some.inj ok.held
    exact .finish inv ok

lemma publishes_some (env : Env) {choice : Choice} {id : Text}
    (some : publishes archive σ.clock σ.store task choice = some id) :
    ∃ job s', task = .publishing job ∧ id = job.jobID ∧
      advance env archive σ.clock σ.store choice task = (s', .done job) ∧
      σ.store.publishBackupImport σ.clock job.jobID (archive.manifest job.jobID)
        job.conflictPolicy = .ok s' := by
  cases task with
  | publishing job =>
    cases choice with
    | proceed =>
      cases run : σ.store.publishBackupImport σ.clock job.jobID (archive.manifest job.jobID)
          job.conflictPolicy with
      | ok s' =>
        simp only [publishes, run, Option.some.injEq] at some
        exact ⟨job, s', rfl, some.symm, by simp [advance, guarded, attempt, run], run⟩
      | error e =>
        simp only [publishes, run] at some
        cases some
    | _ => cases some
  | _ => cases some

lemma Kept.of_store (store : σ'.store = σ.store) (used : σ'.used = σ.used)
    (canceled : σ'.canceled = σ.canceled) : Kept σ σ' :=
  ⟨fun _ member => used ▸ member, fun _ member => canceled ▸ member,
    fun row member _ => ⟨row, store ▸ member, .refl row⟩⟩

lemma JobInv.rest (inv : JobInv σ) (index : Nat) :
    JobStep σ { σ with workers := σ.workers.set index .idle } :=
  ⟨inv.assign (.inl rfl) nofun (fun _ _ _ _ _ _ _ held => nomatch held), .of_store rfl rfl rfl⟩

lemma JobInv.work (inv : JobInv σ) (index : Nat) (choice : Choice) :
    JobStep σ (σ.step env archive (.work index choice)) := by
  cases placed : σ.workers[index]? with
  | none =>
    simp only [JobSystem.step, placed]
    exact ⟨inv, .refl σ⟩
  | some task =>
    simp only [JobSystem.step, placed]
    cases held : task.job? with
    | none =>
      cases task with
      | idle => exact inv.rest index
      | done job =>
        have released := inv.releaseArtifact job.jobID
        exact released.trans (released.inv.rest index)
      | _ => cases held
    | some job =>
      have ok := inv.tasks index task job placed held
      cases landed : publishes archive σ.clock σ.store task choice with
      | none =>
        exact inv.worked placed held (.advance inv ok landed) (fun _ _ => Iff.rfl)
          inv.table.recorded inv.table.once
      | some id =>
        obtain ⟨published, s', rfl, rfl, result, run⟩ := publishes_some env landed
        obtain rfl : published = job := Option.some.inj held
        obtain ⟨worked, fresh⟩ := Worked.published inv ok run
        rw [result]
        refine inv.worked placed held worked (fun id other => ?_) (fun id member => ?_)
          (List.nodup_cons.mpr ⟨fresh, inv.table.once⟩)
        · exact List.mem_cons.trans (or_iff_right other)
        · rcases List.mem_cons.mp member with rfl | before
          · exact ok.known
          · exact inv.table.recorded id before

lemma JobInv.pick (inv : JobInv σ) {index : Nat} {jobID : Text}
    (alone : σ.Alone (.pick index jobID)) : JobStep σ (σ.step env archive (.pick index jobID)) := by
  obtain ⟨resting, only, received⟩ := alone
  have same : JobStep σ σ := ⟨inv, .refl σ⟩
  rcases found : σ.store.jobs.find? fun job => job.jobID = jobID with _ | job
  · simp only [JobSystem.step, found]
    split <;> first | exact same | contradiction
  · rcases placed : σ.workers[index]? with _ | task
    · simpa only [JobSystem.step, found, placed] using same
    · cases task with
      | idle =>
        simp only [JobSystem.step, found, placed]
        split_ifs with terminal
        · exact same
        · have inJobs := List.mem_of_find?_eq_some found
          have named : job.jobID = jobID := by simpa using List.find?_some found
          have mine : ∀ row ∈ σ.store.jobs, row.jobID = job.jobID → row = job :=
            fun row member equal => inv.table.unique row member job inJobs equal
          have live := (inv.table.rows job inJobs).closed.mpr (eq_false_of_ne_true terminal)
          refine ⟨inv.assign (.inr resting) (fun job' held => ?_) ?_, .of_store rfl rfl rfl⟩
          · obtain rfl : job = job' := Option.some.inj held
            refine ⟨rfl, inv.table.known job inJobs, fun row member equal => ?_,
              fun row member equal => ?_, fun member => ?_, trivial⟩
            · rw [mine row member equal]
              exact ⟨rfl, rfl⟩
            · rw [mine row member equal]
              exact .inl live
            · obtain ⟨-, waits | ⟨asked, -⟩ | canceled⟩ := inv.receives _ member job inJobs rfl
              · exact absurd waits (received job inJobs named)
              · exact decide_eq_true (.inr asked)
              · rw [canceled] at terminal
                exact absurd rfl terminal
          · intro other away task placed' job' held' held'' chosen
            obtain rfl : job = held'' := Option.some.inj chosen
            rw [named]
            refine only other (List.getElem?_eq_some_iff.mp placed').1 away job' ?_
            rw [placed']
            exact held'
      | _ => simpa only [JobSystem.step, found, placed] using same

lemma JobInv.spawn (inv : JobInv σ) : JobInv { σ with workers := σ.workers ++ [.idle] } := by
  have old : ∀ (index : Nat) task job, (σ.workers ++ [.idle])[index]? = some task →
      task.job? = some job → σ.workers[index]? = some task := by
    intro index task job placed held
    rw [List.getElem?_append] at placed
    split_ifs at placed with bound
    · exact placed
    · obtain rfl := List.mem_singleton.mp (List.mem_of_getElem? placed)
      cases held
  refine ⟨inv.clock, inv.table, fun index task job placed held =>
    inv.tasks index task job (old index task job placed held) held, ?_, inv.drawn, inv.receives,
    inv.recovery, inv.separate, fun recovers task member => ?_⟩
  · intro i j a b x y placedA placedB heldA heldB
    exact inv.apart i j a b x y (old i a x placedA heldA) (old j b y placedB heldB) heldA heldB
  · rcases List.mem_append.mp member with before | last
    · exact inv.quiet recovers task before
    · exact List.mem_singleton.mp last

lemma JobInv.abandonReceive (inv : JobInv σ) (jobID : Text) :
    JobStep σ { σ with receives := σ.receives.filter (· ≠ jobID) } := by
  have fewer : ∀ id ∈ σ.receives.filter (· ≠ jobID), id ∈ σ.receives := fun id left =>
    (List.mem_filter.mp left).1
  have moves : Moves (fun _ => False) σ.store.jobs σ.store.jobs := .of_subset fun _ member => member
  exact inv.outside (.of_subset inv.table jobID (fun _ member => member) fun _ member => member)
    (fun _ known => known) (fun _ known => .inl known) moves (fun _ member => member) fewer
    (fun left => inv.receives _ (fewer _ left)) (fun _ closed => closed.elim)
    (fun _ member => member) fun _ closed => closed.elim

/-- An action keeps the invariant. -/
lemma JobInv.step (inv : JobInv σ) (action : JobAction) (alone : σ.Alone action) :
    JobStep σ (σ.step env archive action) := by
  have same : JobStep σ σ := ⟨inv, .refl σ⟩
  cases action with
  | tick elapsed =>
    refine ⟨⟨?_, inv.table, inv.tasks, inv.apart, inv.drawn, inv.receives, inv.recovery,
      inv.separate, inv.quiet⟩, .of_store rfl rfl rfl⟩
    have positive := inv.clock
    change 0 < σ.clock + elapsed
    omega
  | elsewhere s' =>
    rw [JobSystem.step]
    split_ifs with equal
    · exact inv.fewer (fun _ member => equal.1 ▸ member) (fun _ member => equal.2 ▸ member)
        fun _ member => member
    · exact same
  | createExport jobID scope =>
    rw [JobSystem.step, JobSystem.create]
    split_ifs with drawn
    · exact same
    · cases run : σ.store.insertJob (newJob jobID .exportJob .queued scope false .fail) with
      | ok s' =>
        exact inv.create drawn (.new inv drawn .exportJob .queued scope false .fail (.inl rfl))
          (fun _ member => .inl member) run
      | error e => exact same
  | createImport jobID dryRun policy =>
    rw [JobSystem.step, JobSystem.create]
    split_ifs with drawn
    · exact same
    · cases run : σ.store.insertJob (newJob jobID .importJob .receiving ['/'] dryRun policy) with
      | ok s' =>
        refine inv.create drawn (.new inv drawn .importJob .receiving ['/'] dryRun policy
          (.inr ⟨rfl, rfl⟩)) (fun id member => ?_) run
        rcases List.mem_cons.mp member with rfl | before
        · exact .inr ⟨rfl, rfl, rfl⟩
        · exact .inl before
      | error e => exact same
  | received jobID path =>
    rw [JobSystem.step]
    split_ifs with member
    · cases run : σ.store.queueImport jobID path with
      | ok s' => exact inv.received run
      | error e => exact inv.receiveFailed member
    · exact same
  | receiveFailed jobID =>
    rw [JobSystem.step]
    split_ifs with member
    · exact inv.receiveFailed member
    · exact same
  | cancel jobID =>
    rw [JobSystem.step]
    cases run : σ.store.cancel jobID with
    | ok s' => exact inv.cancel run
    | error e => exact same
  | spawn => exact ⟨inv.spawn, .of_store rfl rfl rfl⟩
  | pick index jobID => exact inv.pick alone
  | work index choice => exact inv.work index choice
  | abandon index => exact inv.rest index
  | abandonReceive jobID => exact inv.abandonReceive jobID
  | startRecovery => exact ⟨inv.startRecovery alone, .of_store rfl rfl rfl⟩
  | recover =>
    rw [JobSystem.step]
    cases left : σ.recovery with
    | nil => exact same
    | cons request rest =>
      simp only
      cases run : request.run env archive σ.clock σ.store with
      | ok s' => exact inv.recover left run
      | error e => exact same
  | abandonRecovery =>
    exact inv.fewer (fun _ member => member) (fun _ member => member) nofun
  | releaseArtifact jobID => exact inv.releaseArtifact jobID
  | cleanupRetained cutoff =>
    exact inv.fewer (fun row member => (List.mem_filter.mp member).1) (fun _ member => member)
      fun _ member => member

/-! ## Runs -/

lemma JobInv.start (start : JobSystem.Start σ) : JobInv σ := by
  obtain ⟨jobs, pins, positive⟩ := start
  refine ⟨positive, ⟨?_, ?_, ?_, List.nodup_nil, ?_, ?_, ?_, ?_⟩, ?_, ?_, ?_, ?_, ?_, ?_, ?_⟩
  all_goals simp [JobSystem.init, jobs, pins]

/-- So does a run. -/
lemma JobInv.run (inv : JobInv σ) (run : JobSystem.Run env archive JobSystem.Alone σ σ') :
    JobStep σ σ' := by
  induction run with
  | refl => exact ⟨inv, .refl σ⟩
  | step before action alone ih => exact ih.trans (ih.inv.step action alone)

/-- **The life cycle of backup jobs**, when one executor works on a job.  From any state that was
reached on: a terminal job keeps its state as long as it is recorded; a job whose cancellation was
accepted does not succeed; an import is published at most once, and exactly if it succeeds and is no
dry run; and a terminal job holds no pins. -/
theorem backup_job_life_cycle {σ₀ : JobSystem} (start : σ₀.Start)
    (before : JobSystem.Run env archive JobSystem.Alone σ₀ σ)
    (after : JobSystem.Run env archive JobSystem.Alone σ σ') :
    (∀ row ∈ σ.store.jobs, isTerminal row.state = true → ∀ row' ∈ σ'.store.jobs,
      row'.jobID = row.jobID → row'.state = row.state) ∧
    (∀ jobID ∈ σ.canceled, ∀ row ∈ σ'.store.jobs, row.jobID = jobID → row.state ≠ .succeeded) ∧
    σ'.published.Nodup ∧
    (∀ row ∈ σ'.store.jobs, row.jobID ∈ σ'.published ↔
      row.kind = .importJob ∧ row.dryRun = false ∧ row.state = .succeeded) ∧
    ∀ row ∈ σ'.store.jobs, isTerminal row.state = true →
      ∀ pin ∈ σ'.store.pins, pin.jobID ≠ row.jobID := by
  have inv := ((JobInv.start start).run before).inv
  obtain ⟨inv', kept⟩ := inv.run after
  refine ⟨fun row member terminal row' member' same => ?_, fun jobID asked row member named => ?_,
    inv'.table.once, fun row member => ⟨fun listed => ?_, fun ⟨kind, wet, succeeded⟩ => ?_⟩,
    fun row member terminal pin pinned same => ?_⟩
  · obtain ⟨origin, inJobs, progress⟩ := kept.rows row' member' (same ▸ inv.table.known row member)
    obtain rfl := inv.table.unique origin inJobs row member (progress.jobID.symm.trans same)
    refine (progress.terminal fun live => ?_).2
    rw [(inv.table.rows origin member).closed.mp live] at terminal
    cases terminal
  · have rowInv := inv'.table.rows row member
    exact (rowInv.asked (rowInv.accepted (named ▸ kept.canceled jobID asked))).1
  · obtain ⟨succeeded, kind, wet⟩ := (inv'.table.rows row member).landed listed
    exact ⟨kind, wet, succeeded⟩
  · exact (inv'.table.rows row member).complete succeeded kind wet
  · have live := (inv'.table.pins pin pinned row member same.symm).1
    rw [(inv'.table.rows row member).closed.mp live] at terminal
    cases terminal

/-! ## Concrete runs -/

/-- Every action of a list meets a condition on the state it is taken in. -/
def JobSystem.Allows (env : Env) (archive : Archive) (allowed : JobSystem → JobAction → Prop) :
    JobSystem → List JobAction → Prop
  | _, [] => True
  | σ, action :: actions => allowed σ action ∧
      Allows env archive allowed (σ.step env archive action) actions

lemma JobSystem.Run.play {allowed : JobSystem → JobAction → Prop} {σ₀ : JobSystem}
    (before : Run env archive allowed σ₀ σ) {actions : List JobAction}
    (allows : σ.Allows env archive allowed actions) :
    Run env archive allowed σ₀ (σ.play env archive actions) := by
  induction actions generalizing σ with
  | nil => exact before
  | cons action actions ih => exact ih (before.step action allows.1) allows.2

lemma JobSystem.Run.any (σ : JobSystem) (actions : List JobAction) :
    Run env archive (fun _ _ => True) σ (σ.play env archive actions) := by
  refine (JobSystem.Run.refl σ).play ?_
  induction actions generalizing σ with
  | nil => trivial
  | cons action actions ih => exact ⟨trivial, ih _⟩

instance : DecidablePred (JobSystem.Alone σ)
  | .pick _ _ => inferInstanceAs (Decidable (_ ∧ _ ∧ _))
  | .startRecovery => inferInstanceAs (Decidable (∀ task ∈ σ.workers, task = .idle))
  | .tick _ | .elsewhere _ | .createExport _ _ | .createImport _ _ _ | .received _ _
  | .receiveFailed _ | .cancel _ | .spawn | .work _ _ | .abandon _ | .abandonReceive _ | .recover
  | .abandonRecovery | .releaseArtifact _ | .cleanupRetained _ => inferInstanceAs (Decidable True)

instance decidableAllows : ∀ (σ : JobSystem) (actions : List JobAction),
    Decidable (σ.Allows env archive JobSystem.Alone actions)
  | _, [] => inferInstanceAs (Decidable True)
  | σ, action :: actions =>
    have := decidableAllows (σ.step env archive action) actions
    inferInstanceAs (Decidable (_ ∧ _))

/-- A store with one mapped File, which has no blocks. -/
def oneMapping : Store :=
  ({ Store.empty with files := [⟨1, 0, 0, .ready, .physical, 0, 0⟩] }.createFileLink 1
    "/f".toList 1 0 false).toOption.getD Store.empty

lemma oneMapping_start : (JobSystem.init oneMapping 1).Start :=
  .mk (by decide +kernel) (by decide +kernel) (by decide)

/-- An export is canceled before its worker starts, and an import is published. -/
def finishedJobs : List JobAction :=
  [.createExport ['a'] ['/'], .cancel ['a'], .spawn, .pick 0 ['a']] ++
    List.replicate 3 (.work 0 .proceed) ++
    [.createImport ['i'] false .fail, .received ['i'] ['x'], .pick 0 ['i']] ++
    List.replicate 8 (.work 0 .proceed)

/-- Another export pins the mapped File. -/
def pinningExport : List JobAction :=
  [.tick 10, .createExport ['b'] ['/'], .pick 0 ['b'], .work 0 .proceed, .work 0 .proceed]

/-- While the second export has its pin, the finished jobs stay as they are and have none. -/
theorem finishedJobs_kept :
    let σ := (JobSystem.init oneMapping 1).play .plain noArchive finishedJobs
    let σ' := σ.play .plain noArchive pinningExport
    σ.store.jobs.map BackupJob.state = [.canceled, .succeeded] ∧ σ.canceled = [['a']] ∧
    σ'.published = [['i']] ∧ σ'.store.jobs.length = 3 ∧ σ'.store.pins.length = 1 ∧
    (∀ row ∈ σ.store.jobs, isTerminal row.state = true → ∀ row' ∈ σ'.store.jobs,
      row'.jobID = row.jobID → row'.state = row.state) ∧
    ∀ row ∈ σ'.store.jobs, isTerminal row.state = true →
      ∀ pin ∈ σ'.store.pins, pin.jobID ≠ row.jobID := by
  have before := (JobSystem.Run.refl (JobSystem.init oneMapping 1)).play
    (show JobSystem.Allows .plain noArchive JobSystem.Alone _ finishedJobs by decide +kernel)
  have after := (JobSystem.Run.refl
    ((JobSystem.init oneMapping 1).play .plain noArchive finishedJobs)).play
    (show JobSystem.Allows .plain noArchive JobSystem.Alone _ pinningExport by decide +kernel)
  obtain ⟨terminal, -, -, -, unpinned⟩ := backup_job_life_cycle oneMapping_start before after
  exact ⟨by decide +kernel, by decide +kernel, by decide +kernel, by decide +kernel,
    by decide +kernel, terminal, unpinned⟩

/-- A worker takes an export, and the export is canceled; another executor sees the cancellation
and finishes the job. -/
def contendedExport : List JobAction :=
  [.createExport ['a'] ['/'], .spawn, .spawn, .pick 0 ['a'], .work 0 .proceed, .cancel ['a'],
    .pick 1 ['a'], .work 1 .proceed, .work 1 .proceed, .work 1 .proceed]

/-- The worker then pins Files for the finished job and takes it up again. -/
theorem contendedExport_revived : ∃ σ₀ σ σ₁ σ' : JobSystem, σ₀.Start ∧
    JobSystem.Run .plain noArchive (fun _ _ => True) σ₀ σ ∧
    JobSystem.Run .plain noArchive (fun _ _ => True) σ σ₁ ∧
    JobSystem.Run .plain noArchive (fun _ _ => True) σ₁ σ' ∧
    (∃ row ∈ σ₁.store.jobs, isTerminal row.state = true ∧
      ∃ pin ∈ σ₁.store.pins, pin.jobID = row.jobID) ∧
    ∃ row ∈ σ.store.jobs, isTerminal row.state = true ∧ ∃ row' ∈ σ'.store.jobs,
      row'.jobID = row.jobID ∧ row'.state ≠ row.state := by
  exact ⟨_, _, _, _, oneMapping_start, .any _ contendedExport, .any _ [.work 0 .proceed],
    .any _ [.work 0 .proceed], by decide +kernel, by decide +kernel⟩

end TgFile.Backup
