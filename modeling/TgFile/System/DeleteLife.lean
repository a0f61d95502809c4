import TgFile.System.DeleteClaims

/-! # The life of a delete state

A run is any sequence of actions of the service: rounds of the worker, its crashes, the answers of
the backend, the clock and the requests that change references.  A history counts the claims and
keeps, for the batch the worker is at, what it claimed, which calls succeeded and the outcomes. -/

namespace TgFile

open Go Result Store

variable {env : Env} {archive : Backup.Archive} {σ : System} {h : DeleteHistory}
  {now startedAt : Int} {claiming : Prop} {work : BlockDeleteWork} {s s' : Store}
  {row : DeleteState}

/-! ## Histories -/

/-- What the worker has done. -/
structure DeleteHistory where
  claims : List (Nat × Nat)
  batch : List BlockDeleteWork
  succeeded : List (List BlockDeleteWork)
  outcomes : List (BlockDeleteWork × BlockState)

namespace DeleteHistory

/-- Nothing was claimed yet. -/
def empty : DeleteHistory := ⟨[], [], [], []⟩

/-- The history after an action. -/
def note (env : Env) (σ : System) (h : DeleteHistory) : Action → DeleteHistory
  | .claimDeletes =>
    if σ.worker.finishes = [] ∧ σ.worker.calls = [] then
      let works := (σ.store.claimBlockDeleteWork env σ.clock).2
      ⟨works.map workKey ++ h.claims, works, [], []⟩
    else h
  | .deleteBlocks .deleted =>
    match σ.worker with
    | ⟨_, [], works :: _⟩ => { h with succeeded := works :: h.succeeded }
    | _ => h
  | .finishDelete =>
    match σ.worker with
    | ⟨_, finish :: _, _⟩ =>
      { h with outcomes := finish.works.map (fun work => (work, finish.state)) ++ h.outcomes }
    | _ => h
  | .crashWorker => { h with batch := [], succeeded := [], outcomes := [] }
  | _ => h

lemma note_other {h : DeleteHistory} {action : Action} (other : action.deletes = false) :
    h.note env σ action = h := by
  cases action <;> first | rfl | cases other

end DeleteHistory

/-- The systems and histories of runs. -/
inductive DeleteRun (env : Env) (archive : Backup.Archive) : System → DeleteHistory → Prop
  | init (clock : Int) : DeleteRun env archive (System.init clock) .empty
  | step {σ : System} {h : DeleteHistory} (before : DeleteRun env archive σ h) (action : Action) :
      DeleteRun env archive (σ.step env archive action) (h.note env σ action)

lemma DeleteRun.protocolSound (run : DeleteRun env archive σ h) : ProtocolSound σ.store := by
  induction run with
  | init clock => exact ⟨sound_empty, attached_empty⟩
  | step _ action ih => exact ih.step action

/-! ## The invariant -/

/-- The work that has no outcome yet. -/
def Worker.openWorks (worker : Worker) : List BlockDeleteWork :=
  worker.finishes.flatMap Finish.works ++ worker.calls.flatten

/-- A state that `finishBlockDeleteWork` records. -/
def Outcome (state : BlockState) : Prop :=
  state = .deleted ∨ state = .pending ∨ state = .expired ∨ state = .failed

/-- What the worker is about to record. -/
structure FinishSound (h : DeleteHistory) (finish : Finish) : Prop where
  state : Outcome finish.state
  early : finish.state = .pending →
    ∀ work ∈ finish.works, finish.nextAttemptAt < work.uploadedAt + deleteDeadline
  called : finish.state = .deleted → finish.works ∈ h.succeeded

/-- What the rows and the worker have to do with the history. -/
structure DeleteInv (σ : System) (h : DeleteHistory) : Prop where
  unique : UniqueRows σ.store
  attempts : ∀ row ∈ σ.store.deleteStates, row.attemptCount = h.claims.count (rowKey row)
  known : ∀ key ∈ h.claims, key ∈ σ.store.deleteStates.map rowKey
  held : ∀ work ∈ σ.worker.openWorks,
    ∃ row ∈ σ.store.deleteStates, row.state = .deleting ∧ workOf row = work
  account : (h.outcomes.map Prod.fst ++ σ.worker.openWorks).Perm h.batch
  distinct : (h.batch.map workKey).Nodup
  finishes : ∀ finish ∈ σ.worker.finishes, FinishSound h finish
  outcomes : ∀ entry ∈ h.outcomes, Outcome entry.2 ∧
    (entry.2 = .deleted → ∃ call ∈ h.succeeded, entry.1 ∈ call)

lemma DeleteInv.init (clock : Int) : DeleteInv (System.init clock) .empty where
  unique := .nil
  attempts := nofun
  known := nofun
  held := nofun
  account := .refl _
  distinct := List.nodup_nil
  finishes := nofun
  outcomes := nofun

/-! ## Actions of others -/

lemma System.step_worker {action : Action} (other : action.deletes = false) :
    (σ.step env archive action).worker = σ.worker := by
  let P (τ : System) : Prop := τ.worker = σ.worker
  cases action with
  | claimDeletes => cases other
  | deleteBlocks => cases other
  | finishDelete => cases other
  | crashWorker => cases other
  | dav request options =>
    simp only [System.step]
    split_ifs
    · exact System.commit_rule (P := P) rfl fun _ _ => rfl
    · rfl
  | s3 request => exact System.commit_rule (P := P) rfl fun _ _ => rfl
  | job request => exact System.commit_rule (P := P) rfl fun _ _ => rfl
  | link path fileID size isDir =>
    exact System.commit_rule (P := P) rfl fun _ _ => rfl
  | discard fileID =>
    exact System.commit_rule (P := P) rfl fun _ _ => rfl
  | createDraft size lockNull =>
    exact System.createDraft_rule (P := P) rfl fun _ _ => rfl
  | createPart index upload =>
    exact System.createPart_rule (P := P) rfl rfl fun _ _ _ _ _ => ⟨rfl, rfl⟩
  | finishCreate index =>
    exact System.finishCreate_rule (P := P) rfl fun _ _ _ => rfl
  | stageUpload jobID file part upload =>
    exact System.stageUpload_rule (P := P) rfl fun _ _ _ _ _ => rfl
  | stagePersist index =>
    exact System.stagePersist_rule (P := P) rfl (fun _ _ _ => rfl) fun _ _ _ _ _ => rfl
  | stageCompensate index =>
    exact System.stageCompensate_rule (P := P) rfl rfl fun _ _ _ _ _ => rfl
  | stageAdvance index =>
    exact System.stageAdvance_rule (P := P) rfl rfl fun _ _ _ _ => rfl
  | purge index =>
    simp only [System.step, System.purge]
    split <;> rfl
  | _ => rfl

/-- The invariant depends on the table and the worker. -/
lemma DeleteInv.of_rows {τ : System} (inv : DeleteInv σ h) (worker : τ.worker = σ.worker)
    (unique : UniqueRows τ.store)
    (attempts : ∀ row ∈ τ.store.deleteStates, row.attemptCount = h.claims.count (rowKey row))
    (known : ∀ key ∈ h.claims, key ∈ τ.store.deleteStates.map rowKey)
    (kept : ∀ row ∈ σ.store.deleteStates, row.state = .deleting → row ∈ τ.store.deleteStates) :
    DeleteInv τ h where
  unique := unique
  attempts := attempts
  known := known
  held := by
    rw [worker]
    intro work member
    obtain ⟨row, inRows, deleting, same⟩ := inv.held work member
    exact ⟨row, kept row inRows deleting, deleting, same⟩
  account := by
    rw [worker]
    exact inv.account
  distinct := inv.distinct
  finishes := by
    rw [worker]
    exact inv.finishes
  outcomes := inv.outcomes

lemma markRow_sameBlock (now : Int) (hit : List Nat) (row : DeleteState) :
    SameBlock row (markRow now hit row) ∧ (markRow now hit row).attemptCount =
      row.attemptCount := by
  unfold markRow
  split_ifs <;> exact ⟨⟨rfl, rfl, rfl, rfl⟩, rfl⟩

lemma DeleteInv.other (inv : DeleteInv σ h) (sound : ProtocolSound σ.store) {action : Action}
    (other : action.deletes = false) : DeleteInv (σ.step env archive action) h := by
  have worker : (σ.step env archive action).worker = σ.worker := System.step_worker other
  rcases System.step_marks sound other with ⟨hit, rows⟩ | ⟨row, fresh, -, free, rows⟩
  · have keys : (σ.step env archive action).store.deleteStates.map rowKey =
        σ.store.deleteStates.map rowKey := by
      rw [rows, List.map_map]
      exact List.map_congr_left fun row _ => (markRow_sameBlock _ hit row).1.key
    refine inv.of_rows worker (inv.unique.map
      (fun row => (markRow_sameBlock _ hit row).1.key) rows) ?_ (by rw [keys]; exact inv.known) ?_
    · rw [rows]
      intro row member
      obtain ⟨old, inOld, rfl⟩ := List.mem_map.mp member
      obtain ⟨same, attempts⟩ := markRow_sameBlock σ.clock hit old
      rw [attempts, same.key]
      exact inv.attempts old inOld
    · rw [rows]
      intro row member deleting
      refine List.mem_map.mpr ⟨row, member, if_neg fun live => ?_⟩
      rw [deleting] at live
      cases live.2
  · refine inv.of_rows worker ?_ ?_ ?_ ?_
    · rw [UniqueRows, rows, List.pairwise_append]
      refine ⟨inv.unique, List.pairwise_singleton _ _, fun a inA b inB => ?_⟩
      have apart := free a inA
      rw [List.mem_singleton.mp inB, ← Bool.not_eq_true, clash_iff]
      rw [← Bool.not_eq_true, clash_iff] at apart
      exact fun same => apart same.symm
    · rw [rows]
      intro other member
      rcases List.mem_append.mp member with old | new
      · exact inv.attempts other old
      · rw [List.mem_singleton.mp new, fresh]
        refine (List.count_eq_zero.mpr fun claimed => ?_).symm
        obtain ⟨old, inOld, same⟩ := List.mem_map.mp (inv.known _ claimed)
        have apart := free old inOld
        rw [clash_iff.mpr same.symm] at apart
        cases apart
    · rw [rows, List.map_append]
      exact fun key member => List.mem_append_left _ (inv.known key member)
    · rw [rows]
      exact fun row member _ => List.mem_append_left _ member

/-! ## Rounds of the worker -/

/-- The worker has nothing to do. -/
def Worker.Idle (worker : Worker) : Prop := worker.finishes = [] ∧ worker.calls = []

instance (worker : Worker) : Decidable worker.Idle := inferInstanceAs (Decidable (_ ∧ _))

lemma DeleteInv.claim (inv : DeleteInv σ h) (idle : σ.worker.Idle) :
    DeleteInv (σ.step env archive .claimDeletes) (h.note env σ .claimDeletes) := by
  have noted : h.note env σ .claimDeletes =
      ⟨(σ.store.claimBlockDeleteWork env σ.clock).2.map workKey ++ h.claims,
        (σ.store.claimBlockDeleteWork env σ.clock).2, [], []⟩ := if_pos idle
  have stepped : σ.step env archive .claimDeletes = { σ with
      store := (σ.store.claimBlockDeleteWork env σ.clock).1
      worker := ⟨σ.clock, [], if (σ.store.claimBlockDeleteWork env σ.clock).2 = [] then [] else
        [(σ.store.claimBlockDeleteWork env σ.clock).2]⟩ } := if_pos idle
  obtain ⟨f, run, claims⟩ : ∃ f, (σ.store.claimBlockDeleteWork env σ.clock).1 =
      { σ.store with deleteStates := σ.store.deleteStates.map f } ∧
        ClaimsBatch env σ.clock σ.store (σ.store.claimBlockDeleteWork env σ.clock).2 f :=
    claimBlockDeleteWork_claims inv.unique
  rw [noted, stepped, run]
  generalize (σ.store.claimBlockDeleteWork env σ.clock).2 = works at claims
  have opened : Worker.openWorks ⟨σ.clock, [], if works = [] then [] else [works]⟩ = works := by
    unfold Worker.openWorks
    split_ifs with empty
    · exact empty.symm
    · simp
  have keys : (σ.store.deleteStates.map f).map rowKey = σ.store.deleteStates.map rowKey := by
    rw [List.map_map]
    exact List.map_congr_left fun row _ => (claims.same row).key
  constructor
  case unique => exact inv.unique.map (fun row => (claims.same row).key) rfl
  case attempts =>
    intro row member
    obtain ⟨old, inOld, rfl⟩ := List.mem_map.mp member
    rw [claims.attempts old inOld, (claims.same old).key, inv.attempts old inOld, List.count_append,
      Nat.add_comm]
  case known =>
    intro key member
    rw [keys]
    rcases List.mem_append.mp member with new | old
    · obtain ⟨work, inWorks, rfl⟩ := List.mem_map.mp new
      obtain ⟨-, row, inRows, -, same⟩ := claims.held work inWorks
      refine List.mem_map.mpr ⟨row, inRows, ?_⟩
      rw [← same, ← (claims.same row).key]
      rfl
    · exact inv.known key old
  case held =>
    rw [opened]
    intro work member
    obtain ⟨-, row, inRows, deleting, same⟩ := claims.held work member
    exact ⟨f row, List.mem_map.mpr ⟨row, inRows, rfl⟩, deleting, same⟩
  case account =>
    rw [opened]
    exact .refl _
  case distinct => exact claims.distinct
  case finishes => exact nofun
  case outcomes => exact nofun

/-- What follows a call: the works are deleted, repeated, called one by one or failed. -/
lemma afterDelete_cases (now : Int) (works : List BlockDeleteWork) (outcome : DeleteOutcome) :
    (outcome = .deleted ∧ afterDelete now works outcome = ([⟨works, .deleted, [], 0⟩], [])) ∨
      (∃ next code, afterDelete now works outcome = (works.map (retryFinish next code), [])) ∨
      afterDelete now works outcome = ([], works.map fun work => [work]) ∨
      ∃ code, afterDelete now works outcome = ([⟨works, .failed, code, 0⟩], []) := by
  unfold afterDelete
  by_cases done : outcome = .deleted
  · exact .inl ⟨done, if_pos done⟩
  · rw [if_neg done]
    cases classifyBlockDeleteError outcome
        ((works.head?.map BlockDeleteWork.attemptCount).getD 0) with
    | mk code delay =>
      cases delay with
      | some delay => exact .inr (.inl ⟨now + delay, code, rfl⟩)
      | none =>
        by_cases many : 1 < works.length
        · exact .inr (.inr (.inl (if_pos many)))
        · exact .inr (.inr (.inr ⟨code, if_neg many⟩))

lemma retryFinish_works (next : Int) (code : Text) (work : BlockDeleteWork) :
    (retryFinish next code work).works = [work] := by
  unfold retryFinish
  split_ifs <;> rfl

/-- Every work of a call is recorded or called again, once. -/
lemma afterDelete_account (now : Int) (works : List BlockDeleteWork) (outcome : DeleteOutcome) :
    (afterDelete now works outcome).1.flatMap Finish.works ++
      (afterDelete now works outcome).2.flatten = works := by
  rcases afterDelete_cases now works outcome with ⟨-, run⟩ | ⟨next, code, run⟩ | run | ⟨code, run⟩
  · simp [run]
  · simp [run, List.flatMap_map, retryFinish_works]
  · simp [run, ← List.flatMap_def]
  · simp [run]

lemma retryFinish_sound (h : DeleteHistory) (next : Int) (code : Text) (work : BlockDeleteWork) :
    FinishSound h (retryFinish next code work) := by
  unfold retryFinish
  split_ifs with early
  · refine ⟨.inr (.inl rfl), fun _ other inside => ?_, nofun⟩
    rw [List.mem_singleton.mp inside]
    exact early
  · exact ⟨.inr (.inr (.inl rfl)), nofun, nofun⟩

lemma afterDelete_sound {works : List BlockDeleteWork} {outcome : DeleteOutcome}
    (called : outcome = .deleted → works ∈ h.succeeded) :
    ∀ finish ∈ (afterDelete now works outcome).1, FinishSound h finish := by
  intro finish member
  rcases afterDelete_cases now works outcome with
    ⟨done, run⟩ | ⟨next, code, run⟩ | run | ⟨code, run⟩
  · rw [run] at member
    rw [List.mem_singleton.mp member]
    exact ⟨.inl rfl, nofun, fun _ => called done⟩
  · rw [run] at member
    obtain ⟨work, -, rfl⟩ := List.mem_map.mp member
    exact retryFinish_sound h next code work
  · rw [run] at member
    cases member
  · rw [run] at member
    rw [List.mem_singleton.mp member]
    exact ⟨.inr (.inr (.inr rfl)), nofun, nofun⟩

/-- More successful calls change nothing. -/
lemma FinishSound.mono {h' : DeleteHistory} {finish : Finish} (sound : FinishSound h finish)
    (more : ∀ call ∈ h.succeeded, call ∈ h'.succeeded) : FinishSound h' finish :=
  ⟨sound.state, sound.early, fun deleted => more _ (sound.called deleted)⟩

/-- The rows that a call waits for are those that its answer waits for. -/
lemma DeleteInv.answered {h' : DeleteHistory} {works : List BlockDeleteWork}
    {calls : List (List BlockDeleteWork)} {outcome : DeleteOutcome} (inv : DeleteInv σ h)
    (worker : σ.worker = ⟨startedAt, [], works :: calls⟩) (claims : h'.claims = h.claims)
    (batch : h'.batch = h.batch) (outcomes : h'.outcomes = h.outcomes)
    (more : ∀ call ∈ h.succeeded, call ∈ h'.succeeded)
    (called : outcome = .deleted → works ∈ h'.succeeded) :
    DeleteInv { σ with worker := ⟨startedAt, (afterDelete startedAt works outcome).1,
      (afterDelete startedAt works outcome).2 ++ calls⟩ } h' := by
  have same : Worker.openWorks ⟨startedAt, (afterDelete startedAt works outcome).1,
      (afterDelete startedAt works outcome).2 ++ calls⟩ = σ.worker.openWorks := by
    have account := afterDelete_account startedAt works outcome
    rw [worker, Worker.openWorks, Worker.openWorks, List.flatten_append, ← List.append_assoc,
      account]
    rfl
  constructor
  case unique => exact inv.unique
  case attempts =>
    rw [claims]
    exact inv.attempts
  case known =>
    rw [claims]
    exact inv.known
  case held =>
    rw [same]
    exact inv.held
  case account =>
    rw [same, outcomes, batch]
    exact inv.account
  case distinct =>
    rw [batch]
    exact inv.distinct
  case finishes => exact afterDelete_sound called
  case outcomes =>
    rw [outcomes]
    intro entry member
    obtain ⟨state, calls⟩ := inv.outcomes entry member
    refine ⟨state, fun deleted => ?_⟩
    obtain ⟨call, inCalls, inCall⟩ := calls deleted
    exact ⟨call, more call inCalls, inCall⟩

/-- A call of the backend keeps the invariant. -/
lemma DeleteInv.call (inv : DeleteInv σ h) (outcome : DeleteOutcome) :
    DeleteInv (σ.step env archive (.deleteBlocks outcome))
      (h.note env σ (.deleteBlocks outcome)) := by
  obtain ⟨⟨startedAt, finishes, calls⟩, worker⟩ : ∃ w, σ.worker = w := ⟨_, rfl⟩
  match finishes, calls with
  | [], works :: calls =>
    have stepped : σ.step env archive (.deleteBlocks outcome) = { σ with
        worker := ⟨startedAt, (afterDelete startedAt works outcome).1,
          (afterDelete startedAt works outcome).2 ++ calls⟩ } := by
      simp only [System.step, System.deleteBlocks, worker]
    rw [stepped]
    by_cases done : outcome = .deleted
    · subst done
      simp only [DeleteHistory.note, worker]
      exact inv.answered worker rfl rfl rfl (fun _ => List.mem_cons_of_mem _)
        fun _ => List.mem_cons_self
    · have noted : h.note env σ (.deleteBlocks outcome) = h := by
        cases outcome with
        | deleted => exact absurd rfl done
        | _ => rfl
      rw [noted]
      exact inv.answered worker rfl rfl rfl (fun _ => id) fun deleted => absurd deleted done
  | _ :: _, _ | [], [] =>
    have stepped : σ.step env archive (.deleteBlocks outcome) = σ := by
      simp only [System.step, System.deleteBlocks, worker]
    have noted : h.note env σ (.deleteBlocks outcome) = h := by
      cases outcome <;> simp only [DeleteHistory.note, worker]
    rw [stepped, noted]
    exact inv

/-! ## Recording outcomes -/

/-- The row after an outcome was recorded. -/
def finishedRow (now : Int) (finish : Finish) (row : DeleteState) : DeleteState :=
  if (∃ work ∈ finish.works, work.selects row = true) ∧ row.state = .deleting then
    { row with
      state := finish.state, nextAttemptAt := finish.nextAttemptAt, leaseUntil := 0
      lastErrorCode := finish.errorCode
      deletedAt := if finish.state = .deleted then now else 0, mtime := now }
  else row

lemma finishBlockDeleteWork_rows (s : Store) (now : Int) (finish : Finish) :
    s.finishBlockDeleteWork now finish =
      { s with deleteStates := s.deleteStates.map (finishedRow now finish) } := by
  simp only [finishBlockDeleteWork, updateDeleteStates, decide_eq_true_eq]
  rfl

lemma finishedRow_same (now : Int) (finish : Finish) (row : DeleteState) :
    SameBlock row (finishedRow now finish row) ∧
      (finishedRow now finish row).attemptCount = row.attemptCount := by
  unfold finishedRow
  split_ifs <;> exact ⟨⟨rfl, rfl, rfl, rfl⟩, rfl⟩

lemma DeleteInv.open_distinct (inv : DeleteInv σ h) : (σ.worker.openWorks.map workKey).Nodup := by
  have whole := (inv.account.map workKey).nodup_iff.mpr inv.distinct
  rw [List.map_append] at whole
  exact (List.nodup_append.mp whole).2.1

lemma DeleteInv.record {finish : Finish} {finishes : List Finish}
    {calls : List (List BlockDeleteWork)} (inv : DeleteInv σ h)
    (worker : σ.worker = ⟨startedAt, finish :: finishes, calls⟩) :
    DeleteInv { σ with
        store := { σ.store with
          deleteStates := σ.store.deleteStates.map (finishedRow startedAt finish) }
        worker := ⟨startedAt, finishes, calls⟩ }
      { h with outcomes := finish.works.map (fun work => (work, finish.state)) ++ h.outcomes } := by
  have opened : σ.worker.openWorks =
      finish.works ++ Worker.openWorks ⟨startedAt, finishes, calls⟩ := by
    rw [worker, Worker.openWorks, Worker.openWorks, List.flatMap_cons, List.append_assoc]
  have sound : FinishSound h finish := inv.finishes finish
    (by rw [worker]; exact List.mem_cons_self)
  have keys : (σ.store.deleteStates.map (finishedRow startedAt finish)).map rowKey =
      σ.store.deleteStates.map rowKey := by
    rw [List.map_map]
    exact List.map_congr_left fun row _ => (finishedRow_same startedAt finish row).1.key
  constructor
  case unique =>
    exact inv.unique.map (fun row => (finishedRow_same startedAt finish row).1.key) rfl
  case attempts =>
    intro row member
    obtain ⟨old, inOld, rfl⟩ := List.mem_map.mp member
    rw [(finishedRow_same startedAt finish old).2, (finishedRow_same startedAt finish old).1.key]
    exact inv.attempts old inOld
  case known =>
    intro key member
    rw [keys]
    exact inv.known key member
  case held =>
    intro work member
    obtain ⟨row, inRows, deleting, same⟩ := inv.held work (by
      rw [opened]
      exact List.mem_append_right _ member)
    refine ⟨row, List.mem_map.mpr ⟨row, inRows, if_neg ?_⟩, deleting, same⟩
    rintro ⟨⟨other, inFinish, selected⟩, -⟩
    have distinct := inv.open_distinct
    rw [opened, List.map_append] at distinct
    refine (List.nodup_append.mp distinct).2.2 _ (List.mem_map.mpr ⟨other, inFinish, rfl⟩) _
      (List.mem_map.mpr ⟨work, member, rfl⟩) ?_
    rw [← selects_iff.mp selected, ← same]
    rfl
  case account =>
    have before := inv.account
    rw [opened] at before
    have first : (finish.works.map fun work => (work, finish.state)).map Prod.fst =
        finish.works := by
      rw [List.map_map]
      exact List.map_id _
    rw [List.map_append, first]
    refine List.Perm.trans ?_ before
    rw [← List.append_assoc]
    exact (List.perm_append_comm).append_right _
  case distinct => exact inv.distinct
  case finishes =>
    intro other member
    exact (inv.finishes other (by rw [worker]; exact List.mem_cons_of_mem _ member)).mono
      fun _ => id
  case outcomes =>
    intro entry member
    rcases List.mem_append.mp member with new | old
    · obtain ⟨work, inWorks, rfl⟩ := List.mem_map.mp new
      exact ⟨sound.state, fun deleted => ⟨finish.works, sound.called deleted, inWorks⟩⟩
    · exact inv.outcomes entry old

lemma DeleteInv.finish (inv : DeleteInv σ h) :
    DeleteInv (σ.step env archive .finishDelete) (h.note env σ .finishDelete) := by
  obtain ⟨⟨startedAt, finishes, calls⟩, worker⟩ : ∃ w, σ.worker = w := ⟨_, rfl⟩
  cases finishes with
  | nil =>
    simp only [System.step, System.finishDelete, DeleteHistory.note, worker]
    exact inv
  | cons finish finishes =>
    simp only [System.step, System.finishDelete, DeleteHistory.note, worker,
      finishBlockDeleteWork_rows]
    exact inv.record worker

lemma DeleteInv.crash (inv : DeleteInv σ h) :
    DeleteInv (σ.step env archive .crashWorker) (h.note env σ .crashWorker) where
  unique := inv.unique
  attempts := inv.attempts
  known := inv.known
  held := nofun
  account := .refl _
  distinct := List.nodup_nil
  finishes := nofun
  outcomes := nofun

/-- The invariant holds after every run. -/
lemma DeleteRun.inv (run : DeleteRun env archive σ h) : DeleteInv σ h := by
  induction run with
  | init clock => exact .init clock
  | @step σ h before action ih =>
    cases deletes : action.deletes with
    | false =>
      rw [DeleteHistory.note_other deletes]
      exact ih.other before.protocolSound deletes
    | true =>
      cases action with
      | claimDeletes =>
        by_cases idle : σ.worker.Idle
        · exact ih.claim idle
        · have stepped : σ.step env archive .claimDeletes = σ := if_neg idle
          have noted : h.note env σ .claimDeletes = h := if_neg idle
          rw [stepped, noted]
          exact ih
      | deleteBlocks outcome => exact ih.call outcome
      | finishDelete => exact ih.finish
      | crashWorker => exact ih.crash
      | _ => cases deletes

/-! ## Statements of the actions -/

lemma Store.Statement.of_claiming (claims : claiming) (statement : Statement env True now s s') :
    Statement env claiming now s s' := by
  rwa [eq_true claims]

lemma Store.Statement.keeps_final (statement : Statement env claiming now s s')
    (member : row ∈ s.deleteStates) (final : Final row.state) : row ∈ s'.deleteStates := by
  obtain ⟨f, fresh, rows, moves, -⟩ := statement
  rw [rows]
  exact List.mem_append_left _
    (List.mem_map.mpr ⟨row, member, (moves row member).eq_of_final final⟩)

lemma keeps_final_of_chain (chain : Relation.ReflTransGen (Statement env claiming now) s s')
    (member : row ∈ s.deleteStates) (final : Final row.state) : row ∈ s'.deleteStates := by
  induction chain with
  | refl => exact member
  | tail _ statement ih => exact statement.keeps_final ih final

lemma Outcome.move {referenced : Prop} {state : BlockState} (outcome : Outcome state) :
    BlockMove referenced .deleting state := by
  rcases outcome with rfl | rfl | rfl | rfl
  · exact .deleted
  · exact .repeated
  · exact .expired
  · exact .failed

/-- An open work is the work of its row. -/
lemma DeleteInv.workOf_selected (inv : DeleteInv σ h) (member : work ∈ σ.worker.openWorks)
    (inRows : row ∈ σ.store.deleteStates) (selected : work.selects row = true) :
    workOf row = work := by
  obtain ⟨held, inHeld, -, rfl⟩ := inv.held work member
  rw [inv.unique.eq_of_key inRows inHeld (selects_iff.mp selected)]

lemma mem_openWorks {worker : Worker} {finish : Finish} (inFinishes : finish ∈ worker.finishes)
    (member : work ∈ finish.works) : work ∈ worker.openWorks :=
  List.mem_append_left _ (List.mem_flatMap.mpr ⟨finish, inFinishes, member⟩)

lemma DeleteInv.finish_statement {finish : Finish} (inv : DeleteInv σ h)
    (member : finish ∈ σ.worker.finishes) :
    Statement env claiming now σ.store { σ.store with
      deleteStates := σ.store.deleteStates.map (finishedRow startedAt finish) } := by
  refine ⟨finishedRow startedAt finish, [], (List.append_nil _).symm, fun row inRows => ?_, nofun⟩
  have sound := inv.finishes finish member
  by_cases hit : (∃ work ∈ finish.works, work.selects row = true) ∧ row.state = .deleting
  · rw [finishedRow, if_pos hit]
    obtain ⟨⟨work, inWorks, selected⟩, deleting⟩ := hit
    refine ⟨⟨rfl, rfl, rfl, rfl⟩, .inr ?_, .inl ⟨rfl, ?_⟩, fun _ pending => .inl ?_⟩
    · rw [deleting]
      exact sound.state.move
    · rw [deleting]
      exact nofun
    · have same := inv.workOf_selected (mem_openWorks member inWorks) inRows selected
      have early := sound.early pending work inWorks
      rw [← same] at early
      exact early
  · rw [finishedRow, if_neg hit]
    exact .refl _ _ row

lemma DeleteRun.statements (run : DeleteRun env archive σ h) (action : Action) :
    Relation.ReflTransGen (Statement env (action = .claimDeletes) σ.clock) σ.store
      (σ.step env archive action).store := by
  have inv := run.inv
  cases deletes : action.deletes with
  | false =>
    rcases System.step_marks run.protocolSound deletes with marks | inserts
    · exact .single (.of_marks marks)
    · exact .single (.of_inserts inserts)
  | true =>
    cases action with
    | claimDeletes =>
      by_cases idle : σ.worker.Idle
      · have stepped : (σ.step env archive .claimDeletes).store =
            (σ.store.claimBlockDeleteWork env σ.clock).1 := by
          have waits : σ.worker.finishes = [] ∧ σ.worker.calls = [] := idle
          simp only [System.step, System.claimDeletes, if_pos waits]
        obtain ⟨f, same, claims⟩ : ∃ f, (σ.store.claimBlockDeleteWork env σ.clock).1 =
            { σ.store with deleteStates := σ.store.deleteStates.map f } ∧ ClaimsBatch env σ.clock
              σ.store (σ.store.claimBlockDeleteWork env σ.clock).2 f :=
          claimBlockDeleteWork_claims inv.unique
        rw [stepped, same]
        exact Relation.ReflTransGen.mono (fun _ _ => Statement.of_claiming rfl) _ _ claims.chain
      · have stepped : σ.step env archive .claimDeletes = σ := if_neg idle
        rw [stepped]
    | deleteBlocks outcome =>
      have same : (σ.step env archive (.deleteBlocks outcome)).store = σ.store :=
        System.deleteBlocks_rule (P := fun τ => τ.store = σ.store) rfl fun _ _ _ _ => rfl
      rw [same]
    | finishDelete =>
      refine System.finishDelete_rule (P := fun τ => Relation.ReflTransGen
        (Statement env (Action.finishDelete = .claimDeletes) σ.clock) σ.store τ.store) .refl ?_
      intro finish finishes worker
      rw [finishBlockDeleteWork_rows]
      exact .single (inv.finish_statement (by rw [worker]; exact List.mem_cons_self))
    | crashWorker => exact .refl
    | _ => cases deletes

/-- An outcome reaches its row. -/
lemma DeleteInv.finish_hits {finish : Finish} {finishes : List Finish} (inv : DeleteInv σ h)
    (worker : σ.worker.finishes = finish :: finishes) (member : work ∈ finish.works) :
    ∃ row ∈ σ.store.deleteStates, rowKey row = workKey work ∧ row.state = .deleting ∧
      ∃ row' ∈ (σ.step env archive .finishDelete).store.deleteStates,
        rowKey row' = workKey work ∧ row'.state = finish.state := by
  obtain ⟨row, inRows, deleting, same⟩ := inv.held work
    (mem_openWorks (by rw [worker]; exact List.mem_cons_self) member)
  have key : rowKey row = workKey work := by
    rw [← same]
    rfl
  refine ⟨row, inRows, key, deleting, finishedRow σ.worker.startedAt finish row, ?_, ?_, ?_⟩
  · obtain ⟨⟨startedAt, _, calls⟩, same⟩ : ∃ w, σ.worker = w := ⟨_, rfl⟩
    rw [same] at worker ⊢
    obtain rfl : _ = finish :: finishes := worker
    simp only [System.step, System.finishDelete, same, finishBlockDeleteWork_rows]
    exact List.mem_map.mpr ⟨row, inRows, rfl⟩
  · exact (finishedRow_same _ _ row).1.key.trans key
  · rw [finishedRow, if_pos ⟨⟨work, member, selects_iff.mpr key⟩, deleting⟩]

/-! ## The life cycle -/

/-- **The life of a delete state.**  In every run, an action is a sequence of statements that move
each row along `BlockMove`, under the conditions of `RowMoves`; a settled row is never touched;
`attempt_count` is the number of claims; the claims of a batch are distinct, and once the worker is
idle each has exactly one outcome, which reached its row while it was `deleting` and is `deleted`
only after a successful call with the block. -/
theorem block_delete_life_cycle {h : DeleteHistory} (run : DeleteRun env archive σ h) :
    (∀ action, Relation.ReflTransGen (Statement env (action = .claimDeletes) σ.clock) σ.store
      (σ.step env archive action).store) ∧
      (∀ action, ∀ row ∈ σ.store.deleteStates, Final row.state →
        row ∈ (σ.step env archive action).store.deleteStates) ∧
      UniqueRows σ.store ∧
      (∀ row ∈ σ.store.deleteStates, row.attemptCount = h.claims.count (rowKey row)) ∧
      (h.batch.map workKey).Nodup ∧
      (σ.worker.Idle → (h.outcomes.map Prod.fst).Perm h.batch) ∧
      (∀ entry ∈ h.outcomes, Outcome entry.2 ∧
        (entry.2 = .deleted → ∃ call ∈ h.succeeded, entry.1 ∈ call)) ∧
      ∀ finish finishes, σ.worker.finishes = finish :: finishes → ∀ work ∈ finish.works,
        ∃ row ∈ σ.store.deleteStates, rowKey row = workKey work ∧ row.state = .deleting ∧
          ∃ row' ∈ (σ.step env archive .finishDelete).store.deleteStates,
            rowKey row' = workKey work ∧ row'.state = finish.state := by
  have inv := run.inv
  refine ⟨run.statements, fun action row member final => ?_, inv.unique, inv.attempts, inv.distinct,
    fun idle => ?_, inv.outcomes, fun finish finishes worker work => inv.finish_hits worker⟩
  · exact keeps_final_of_chain (run.statements action) member final
  · have account := inv.account
    rwa [Worker.openWorks, idle.1, idle.2, List.flatMap_nil, List.flatten_nil, List.append_nil,
      List.append_nil] at account

/-- A File of one block is stored, given up, claimed and deleted. -/
def deletedBlock : List Action :=
  [.createDraft 1 false, .createPart 0 ⟨['k'], ['r'], 1, [], 1⟩, .finishCreate 0, .discard 1,
    .claimDeletes, .deleteBlocks .deleted, .finishDelete]

/-- The history of a list of actions. -/
def DeleteHistory.after (env : Env) (archive : Backup.Archive) :
    System → DeleteHistory → List Action → DeleteHistory
  | _, h, [] => h
  | σ, h, action :: actions =>
    DeleteHistory.after env archive (σ.step env archive action) (h.note env σ action) actions

lemma DeleteRun.run (before : DeleteRun env archive σ h) (actions : List Action) :
    DeleteRun env archive (σ.run env archive actions) (.after env archive σ h actions) := by
  induction actions generalizing σ h with
  | nil => exact before
  | cons action actions ih => exact ih (before.step action)

/-- The block is deleted, claimed once and has one outcome. -/
theorem deletedBlock_recorded : ∃ h,
    DeleteRun .plain noArchive ((System.init 0).run .plain noArchive deletedBlock) h ∧
      ((System.init 0).run .plain noArchive deletedBlock).store.deleteStates.map
        DeleteState.state = [.deleted] ∧
      h.claims = [(1, 0)] ∧ h.outcomes.map Prod.snd = [.deleted] ∧
      (h.outcomes.map Prod.fst).Perm h.batch := by
  have start : DeleteRun .plain noArchive (System.init 0) .empty := .init 0
  have run := start.run deletedBlock
  exact ⟨_, run, by decide +kernel, by decide +kernel, by decide +kernel,
    (block_delete_life_cycle run).2.2.2.2.2.1 (by decide +kernel)⟩

/-- The worker stops after its claim, and the deadline passes before it starts again. -/
def crashedClaim : List Action := deletedBlock.take 5 ++ [.crashWorker, .tick 169200001]

/-- The recovery of the expired lease schedules a repetition at the deadline. -/
theorem crashedClaim_repeated :
    let σ := (System.init 0).run .plain noArchive crashedClaim
    (∃ h, DeleteRun .plain noArchive σ h) ∧
      ∃ row ∈ σ.store.deleteStates,
        ∃ row' ∈ (σ.store.restoreExpiredDeleteLeases .plain σ.clock).deleteStates,
          rowKey row' = rowKey row ∧ row.state = .deleting ∧ row'.state = .pending ∧
            row.uploadedAt + deleteDeadline ≤ row'.nextAttemptAt :=
  ⟨⟨_, (DeleteRun.init 0).run crashedClaim⟩, by decide +kernel⟩

/-! ## Links against claimed and lost blocks -/

/-- The Files whose blocks hold the bytes of a File. -/
def Store.blockFiles (s : Store) (fileID : Nat) : List Nat :=
  if (s.readStoredFile fileID).any (·.fileLayout = .composite) then s.compositeSourceFileIDs fileID
  else [fileID]

lemma blockFiles_live {s : Store} {fileID : Nat}
    (linked : s.ensureFileTreeCanBeLinked fileID = .ok ()) :
    ∀ source ∈ s.blockFiles fileID, s.AllLive source := by
  obtain ⟨record, linkable⟩ := ensureFileTreeCanBeLinked_ok linked
  intro source member
  rw [Store.blockFiles, linkable.stored, Option.any_some] at member
  cases layout : record.fileLayout with
  | physical =>
    simp only [layout, reduceCtorEq, decide_false, Bool.false_eq_true, ↓reduceIte,
      List.mem_singleton] at member
    exact member ▸ linkable.own layout
  | composite =>
    simp only [layout, decide_true, ↓reduceIte] at member
    obtain ⟨segment, listed, rfl⟩ := List.mem_map.mp member
    obtain ⟨inTable, own⟩ := List.mem_filter.mp (Sqlite.mem_orderBy.mp listed)
    exact linkable.sources layout segment inTable (of_decide_eq_true own)

lemma DeleteRun.keeps_final {row : DeleteState} (run : DeleteRun env archive σ h)
    (actions : List Action) (member : row ∈ σ.store.deleteStates) (final : Final row.state) :
    row ∈ (σ.run env archive actions).store.deleteStates := by
  induction actions generalizing σ h with
  | nil => exact member
  | cons action actions ih =>
    exact ih (run.step action) (keeps_final_of_chain (run.statements action) member final)

/-- **No link reaches a claimed or lost block.**  In every run, no block of a File that may be
linked is held by the worker, and none was deleted, expired or given up in an earlier state. -/
theorem linked_blocks_kept (clock : Int) (actions later : List Action) (fileID : Nat)
    (linked : (((System.init clock).run env archive actions).run env archive
      later).store.ensureFileTreeCanBeLinked fileID = .ok ()) :
    let σ := (System.init clock).run env archive actions
    let σ' := σ.run env archive later
    ∀ source ∈ σ'.store.blockFiles fileID, (∀ work ∈ σ'.worker.openWorks, work.fileID ≠ source) ∧
      ∀ row ∈ σ.store.deleteStates, row.fileID = source → ¬Final row.state := by
  intro σ σ' source member
  have live := blockFiles_live linked source member
  have run : DeleteRun env archive σ _ := (DeleteRun.init clock).run actions
  constructor
  · rintro work claimed rfl
    obtain ⟨row, present, deleting, rfl⟩ := (run.run later).inv.held work claimed
    cases deleting.symm.trans (live row present rfl)
  · intro row present own final
    have kept := live row (run.keeps_final later present final) own
    rcases final with state | state | state <;> cases state.symm.trans kept

/-- Two more Files are stored, and the first of them is given up and claimed. -/
def claimedBlock : List Action :=
  deletedBlock.take 3 ++ deletedBlock.take 3 ++ [.discard 2, .claimDeletes]

/-- File 3 may be linked while the worker holds a block of File 2. -/
theorem claimedBlock_elsewhere :
    let σ := ((System.init 0).run .plain noArchive deletedBlock).run .plain noArchive claimedBlock
    σ.worker.openWorks ≠ [] ∧ ∀ work ∈ σ.worker.openWorks, work.fileID ≠ 3 :=
  ⟨by decide +kernel, (linked_blocks_kept 0 deletedBlock claimedBlock 3 (by decide +kernel) 3
    (by decide +kernel)).1⟩

end TgFile
