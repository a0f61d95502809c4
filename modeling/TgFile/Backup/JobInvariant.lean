import TgFile.Backup.JobTable

/-! # What holds of jobs while executors work

The invariant speaks about the rows of the job table, the pins of exports, what each executor may
still do to its job, the artifacts being received and the statements that recovery has left. -/

namespace TgFile.Backup

open Go Store

variable {canceled published receives used canceled' published' : List Text}
  {jobs jobs' : List BackupJob} {row row' job : BackupJob} {jobID : Text} {s s' : Store}
  {f : BackupJob → BackupJob} {now : Int}

/-! ## Rows -/

/-- What a step may make of a row. -/
structure Progress (row row' : BackupJob) : Prop where
  jobID : row'.jobID = row.jobID
  kind : row'.kind = row.kind
  dryRun : row'.dryRun = row.dryRun
  terminal : row.completedAt ≠ 0 → row'.completedAt ≠ 0 ∧ row'.state = row.state
  receiving : row'.state = .receiving → row.state = .receiving
  asked : row.cancelRequested = true → row'.cancelRequested = true

lemma Progress.refl (row : BackupJob) : Progress row row :=
  ⟨rfl, rfl, rfl, fun done => ⟨done, rfl⟩, id, id⟩

lemma Progress.trans {middle : BackupJob} (left : Progress row middle)
    (right : Progress middle row') : Progress row row' where
  jobID := right.jobID.trans left.jobID
  kind := right.kind.trans left.kind
  dryRun := right.dryRun.trans left.dryRun
  terminal := fun done => by
    obtain ⟨still, state⟩ := left.terminal done
    exact ⟨(right.terminal still).1, (right.terminal still).2.trans state⟩
  receiving := fun same => left.receiving (right.receiving same)
  asked := fun same => right.asked (left.asked same)

/-- A row of the job table, with the cancellations that were accepted and the imports that were
published. -/
structure RowInv (canceled published : List Text) (row : BackupJob) : Prop where
  closed : row.completedAt = 0 ↔ isTerminal row.state = false
  asked : row.cancelRequested = true → row.state ≠ .succeeded ∧ row.state ≠ .publishing
  accepted : row.jobID ∈ canceled → row.cancelRequested = true
  wet : row.state = .publishing → row.kind = .importJob ∧ row.dryRun = false
  receiving : row.state = .receiving → row.kind = .importJob
  landed : row.jobID ∈ published →
    row.state = .succeeded ∧ row.kind = .importJob ∧ row.dryRun = false
  complete : row.state = .succeeded → row.kind = .importJob → row.dryRun = false →
    row.jobID ∈ published

section
variable (inv : RowInv canceled published row)
include inv

lemma RowInv.not_published (pending : row.state ≠ .succeeded) : row.jobID ∉ published :=
  fun member => pending (inv.landed member).1

lemma RowInv.not_succeeded (live : row.completedAt = 0) : row.state ≠ .succeeded := by
  intro same
  have terminal := inv.closed.mp live
  rw [same] at terminal
  cases terminal

/-- Ids other than the one that was recorded. -/
lemma RowInv.congr (accepted : row.jobID ∈ canceled' → row.jobID ∈ canceled)
    (same : row.jobID ∈ published' ↔ row.jobID ∈ published) : RowInv canceled' published' row where
  closed := inv.closed
  asked := inv.asked
  accepted := fun member => inv.accepted (accepted member)
  wet := inv.wet
  receiving := inv.receiving
  landed := fun member => inv.landed (same.mp member)
  complete := fun succeeded kind wet => same.mpr (inv.complete succeeded kind wet)

/-- A live row moves to another state in which it is live. -/
lemma RowInv.relive (live : row.completedAt = 0)
    (state : JobState) (running : isTerminal state = false) (known : state ≠ .receiving)
    (publishing : state = .publishing →
      row.cancelRequested = false ∧ row.kind = .importJob ∧ row.dryRun = false) (path : Text) :
    Progress row { row with state := state, artifactPath := path } ∧
      RowInv canceled published { row with state := state, artifactPath := path } := by
  have notSucceeded : state ≠ .succeeded := by
    rintro rfl
    cases running
  refine ⟨⟨rfl, rfl, rfl, fun done => absurd live done, fun same => absurd same known, id⟩, ?_⟩
  refine ⟨⟨fun _ => running, fun _ => live⟩, fun asked => ⟨notSucceeded, fun same => ?_⟩,
    inv.accepted, fun same => (publishing same).2, fun same => absurd same known,
    fun member => absurd member (inv.not_published (inv.not_succeeded live)),
    fun same => absurd same notSucceeded⟩
  have asked : row.cancelRequested = true := asked
  rw [(publishing same).1] at asked
  cases asked

lemma RowInv.cancel (live : row.completedAt = 0) :
    Progress row { row with cancelRequested := true, state := .canceling } ∧
      RowInv (row.jobID :: canceled) published
        { row with cancelRequested := true, state := .canceling } :=
  ⟨⟨rfl, rfl, rfl, fun done => absurd live done, nofun, fun _ => rfl⟩,
    ⟨fun _ => rfl, fun _ => live⟩, fun _ => ⟨nofun, nofun⟩, fun _ => rfl, nofun, nofun,
    fun member => absurd member (inv.not_published (inv.not_succeeded live)), nofun⟩

/-- `finishJob` on a live row, or once more on a canceled one. -/
lemma RowInv.finish (later : now ≠ 0) {outcome : JobState}
    (ends : outcome = .failed ∨ outcome = .canceled)
    (pending : row.completedAt = 0 ∨ outcome = .canceled ∧ row.state = .canceled) :
    let row' := { row with
      state := outcome, completedAt := now
      cancelRequested := decide (outcome = .canceled ∨ row.cancelRequested = true) }
    Progress row row' ∧ RowInv canceled published row' := by
  have notSucceeded : row.state ≠ .succeeded := by
    rcases pending with live | ⟨-, same⟩
    · exact inv.not_succeeded live
    · rw [same]
      nofun
  refine ⟨⟨rfl, rfl, rfl, fun done => ⟨later, ?_⟩, ?_, fun asked => by simp [asked]⟩, ?_⟩
  · rcases pending with live | ⟨same, canceled⟩
    · exact absurd live done
    · exact same.trans canceled.symm
  · rcases ends with rfl | rfl <;> nofun
  · refine ⟨?_, fun _ => ?_, fun member => by simp [inv.accepted member], ?_, ?_,
      fun member => absurd member (inv.not_published notSucceeded), ?_⟩
    · exact ⟨fun zero => absurd zero later, fun running => by rcases ends with
        rfl | rfl <;> cases running⟩
    all_goals rcases ends with rfl | rfl
    all_goals first | exact ⟨nofun, nofun⟩ | nofun

/-- A job that is not an import to publish succeeds. -/
lemma RowInv.succeed (later : now ≠ 0)
    (live : row.completedAt = 0) (kept : row.cancelRequested = false)
    (dry : row.kind = .importJob → row.dryRun = true) (path : Text) :
    Progress row { row with state := .succeeded, artifactPath := path, completedAt := now } ∧
      RowInv canceled published
        { row with state := .succeeded, artifactPath := path, completedAt := now } := by
  refine ⟨⟨rfl, rfl, rfl, fun done => absurd live done, nofun, id⟩,
    ⟨fun zero => absurd zero later, nofun⟩, fun asked => ?_, inv.accepted, nofun, nofun,
    fun member => absurd member (inv.not_published (inv.not_succeeded live)),
    fun _ kind wet => ?_⟩
  · have asked : row.cancelRequested = true := asked
    rw [kept] at asked
    cases asked
  · have wet : row.dryRun = false := wet
    rw [dry kind] at wet
    cases wet

/-- The last transaction of an import. -/
lemma RowInv.publish (later : now ≠ 0) (state : row.state = .publishing) :
    Progress row { row with state := .succeeded, completedAt := now } ∧
      RowInv canceled (row.jobID :: published)
        { row with state := .succeeded, completedAt := now } := by
  have live : row.completedAt = 0 := inv.closed.mpr (by rw [state]; rfl)
  refine ⟨⟨rfl, rfl, rfl, fun done => absurd live done, nofun, id⟩,
    ⟨fun zero => absurd zero later, nofun⟩, fun asked => absurd state (inv.asked asked).2,
    inv.accepted, nofun, nofun, fun _ => ⟨rfl, inv.wet state⟩, fun _ _ _ => List.mem_cons_self⟩

lemma RowInv.released :
    Progress row { row with artifactPath := [] } ∧
      RowInv canceled published { row with artifactPath := [] } :=
  ⟨⟨rfl, rfl, rfl, fun done => ⟨done, rfl⟩, id, id⟩, inv.closed, inv.asked, inv.accepted, inv.wet,
    inv.receiving, inv.landed, inv.complete⟩

/-! ## The table -/

end

/-- The rows and the pins of the table. -/
structure TableInv (s : Store) (used canceled published : List Text) : Prop where
  unique : ∀ a ∈ s.jobs, ∀ b ∈ s.jobs, a.jobID = b.jobID → a = b
  known : ∀ row ∈ s.jobs, row.jobID ∈ used
  rows : ∀ row ∈ s.jobs, RowInv canceled published row
  once : published.Nodup
  accepted : ∀ id ∈ canceled, id ∈ used
  recorded : ∀ id ∈ published, id ∈ used
  pinned : ∀ pin ∈ s.pins, pin.jobID ∈ used
  pins : ∀ pin ∈ s.pins, ∀ row ∈ s.jobs, row.jobID = pin.jobID →
    row.completedAt = 0 ∧ row.kind = .exportJob

/-- The rows of one job changed, and its pins may have. -/
structure Change (s s' : Store) (jobID : Text) (used canceled published : List Text) : Prop where
  unique : ∀ a ∈ s'.jobs, ∀ b ∈ s'.jobs, a.jobID = b.jobID → a = b
  frame : ∀ row ∈ s'.jobs, row.jobID ≠ jobID → row ∈ s.jobs
  rows : ∀ row' ∈ s'.jobs, row'.jobID = jobID →
    RowInv canceled published row' ∧ ∃ row ∈ s.jobs, Progress row row'
  pins : ∀ pin ∈ s'.pins, pin ∈ s.pins ∨ pin.jobID = jobID ∧ jobID ∈ used
  own : ∀ pin ∈ s'.pins, pin.jobID = jobID → ∀ row ∈ s'.jobs, row.jobID = jobID →
    row.completedAt = 0 ∧ row.kind = .exportJob

lemma mem_onJob :
    row' ∈ onJob jobID f jobs ↔
      ∃ row ∈ jobs, (if row.jobID = jobID then f row else row) = row' :=
  List.mem_map

lemma own_of_onJob (member : row' ∈ onJob jobID f jobs) (named : row'.jobID = jobID) :
    ∃ row ∈ jobs, row.jobID = jobID ∧ f row = row' := by
  obtain ⟨row, inJobs, result⟩ := mem_onJob.mp member
  split_ifs at result with same
  · exact ⟨row, inJobs, same, result⟩
  · subst result
    exact absurd named same

lemma Change.of_onJob (table : TableInv s used canceled published)
    (jobs : s'.jobs = onJob jobID f s.jobs) (rows : ∀ row ∈ s.jobs, row.jobID = jobID →
      Progress row (f row) ∧ RowInv canceled' published' (f row))
    (pins : ∀ pin ∈ s'.pins, pin ∈ s.pins ∨ pin.jobID = jobID ∧ jobID ∈ used)
    (own : ∀ pin ∈ s'.pins, pin.jobID = jobID → ∀ row ∈ s.jobs, row.jobID = jobID →
      (f row).completedAt = 0 ∧ row.kind = .exportJob) :
    Change s s' jobID used canceled' published' := by
  have back : ∀ row' ∈ s'.jobs, ∃ row ∈ s.jobs, row'.jobID = row.jobID ∧
      row' = if row.jobID = jobID then f row else row := by
    intro row' member
    rw [jobs] at member
    obtain ⟨row, inJobs, rfl⟩ := mem_onJob.mp member
    refine ⟨row, inJobs, ?_, rfl⟩
    split_ifs with same
    · exact (rows row inJobs same).1.jobID
    · rfl
  refine ⟨fun a inA b inB same => ?_, fun row' member other => ?_, fun row' member same => ?_, pins,
    fun pin pinned named row' member same => ?_⟩
  · obtain ⟨x, inX, idX, rfl⟩ := back a inA
    obtain ⟨y, inY, idY, rfl⟩ := back b inB
    rw [idX, idY] at same
    rw [table.unique x inX y inY same]
  · obtain ⟨row, inJobs, id, result⟩ := back row' member
    rw [id] at other
    rw [result, if_neg other]
    exact inJobs
  · obtain ⟨row, inJobs, id, result⟩ := back row' member
    rw [id] at same
    rw [if_pos same] at result
    rw [result]
    exact ⟨(rows row inJobs same).2, row, inJobs, (rows row inJobs same).1⟩
  · obtain ⟨row, inJobs, id, result⟩ := back row' member
    rw [id] at same
    rw [if_pos same] at result
    rw [result]
    obtain ⟨live, kind⟩ := own pin pinned named row inJobs same
    exact ⟨live, ((rows row inJobs same).1.kind).trans kind⟩

/-- A change that keeps the rows of a job live needs nothing about its pins. -/
lemma Change.of_live (table : TableInv s used canceled published)
    (jobs : s'.jobs = onJob jobID f s.jobs) (pins : ∀ pin ∈ s'.pins, pin ∈ s.pins)
    (rows : ∀ row ∈ s.jobs, row.jobID = jobID →
      Progress row (f row) ∧ RowInv canceled' published' (f row))
    (live : ∀ row ∈ s.jobs, row.jobID = jobID → row.completedAt = 0 → (f row).completedAt = 0) :
    Change s s' jobID used canceled' published' := by
  refine .of_onJob table jobs rows (fun pin member => .inl (pins pin member)) ?_
  intro pin member named row inJobs same
  obtain ⟨zero, kind⟩ := table.pins pin (pins pin member) row inJobs (same.trans named.symm)
  exact ⟨live row inJobs same zero, kind⟩

/-- No row changed; some may be gone. -/
lemma Change.of_subset (table : TableInv s used canceled published) (jobID : Text)
    (jobs : ∀ row ∈ s'.jobs, row ∈ s.jobs) (pins : ∀ pin ∈ s'.pins, pin ∈ s.pins) :
    Change s s' jobID used canceled published where
  unique := fun a inA b inB => table.unique a (jobs a inA) b (jobs b inB)
  frame := fun row member _ => jobs row member
  rows := fun row member _ => ⟨table.rows row (jobs row member), row, jobs row member, .refl row⟩
  pins := fun pin member => .inl (pins pin member)
  own := fun pin member named row inJobs same =>
    table.pins pin (pins pin member) row (jobs row inJobs) (same.trans named.symm)

lemma Change.table (table : TableInv s used canceled published)
    (change : Change s s' jobID used canceled' published')
    (accepted : ∀ id ∈ canceled', id ∈ canceled ∨ id = jobID ∧ id ∈ used)
    (same : ∀ id, id ≠ jobID → (id ∈ published' ↔ id ∈ published))
    (recorded : ∀ id ∈ published', id ∈ used) (once : published'.Nodup) :
    TableInv s' used canceled' published' := by
  have origin : ∀ row' ∈ s'.jobs, ∃ row ∈ s.jobs, row'.jobID = row.jobID := by
    intro row' member
    by_cases named : row'.jobID = jobID
    · obtain ⟨-, row, inJobs, progress⟩ := change.rows row' member named
      exact ⟨row, inJobs, progress.jobID⟩
    · exact ⟨row', change.frame row' member named, rfl⟩
  refine ⟨change.unique, fun row' member => ?_, fun row' member => ?_, once, fun id member => ?_,
    recorded, fun pin member => ?_, fun pin member row' inJobs named => ?_⟩
  · obtain ⟨row, inJobs, id⟩ := origin row' member
    rw [id]
    exact table.known row inJobs
  · by_cases named : row'.jobID = jobID
    · exact (change.rows row' member named).1
    · refine (table.rows row' (change.frame row' member named)).congr (fun asked => ?_)
        (same _ named)
      rcases accepted _ asked with before | ⟨this, -⟩
      · exact before
      · exact absurd this named
  · rcases accepted id member with before | ⟨-, known⟩
    · exact table.accepted id before
    · exact known
  · rcases change.pins pin member with before | ⟨named, known⟩
    · exact table.pinned pin before
    · rw [named]
      exact known
  · by_cases this : pin.jobID = jobID
    · exact change.own pin member this row' inJobs (named.trans this)
    · rcases change.pins pin member with before | ⟨this', -⟩
      · exact table.pins pin before row'
          (change.frame row' inJobs fun same => this (named.symm.trans same)) named
      · exact absurd this' this

end TgFile.Backup
