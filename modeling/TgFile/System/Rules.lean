import TgFile.System.Model

/-! # Case rules for actions

For every action that is more than one transaction of the store: a property of systems holds after
the action if it holds after each of its outcomes. -/

namespace TgFile.System

open Go Result Store

variable {env : Env} {archive : Backup.Archive} {σ : System} {P : System → Prop} {index : Nat}

lemma commit_rule {result : Except Err Store} (failed : P σ)
    (done : ∀ s, result = .ok s → P { σ with store := s }) : P (σ.commit result) := by
  cases result with
  | error => exact failed
  | ok s => exact done s rfl

lemma commit_store (σ : System) (result : Except Err Store) :
    (σ.commit result).store = σ.store ∨ result = .ok (σ.commit result).store := by
  cases result with
  | error => exact .inl rfl
  | ok s => exact .inr rfl

lemma step_dav (request : DavRequest) (options : MutationOptions) :
    (σ.step env archive (.dav request options)).store = σ.store ∨
      (σ.davAllowed request = true ∧ request.run env σ.clock options σ.store =
        .ok (σ.step env archive (.dav request options)).store) := by
  by_cases allowed : σ.davAllowed request = true
  · simp only [step, if_pos allowed]
    exact (commit_store σ (request.run env σ.clock options σ.store)).imp_right fun run =>
      ⟨allowed, run⟩
  · exact .inl (by simp only [step, if_neg allowed])

lemma step_s3 (request : S3Request) :
    (σ.step env archive (.s3 request)).store = σ.store ∨
      request.run env σ.clock σ.store = .ok (σ.step env archive (.s3 request)).store :=
  commit_store σ (request.run env σ.clock σ.store)

lemma step_job (request : JobRequest) :
    (σ.step env archive (.job request)).store = σ.store ∨
      request.run env archive σ.clock σ.store = .ok (σ.step env archive (.job request)).store :=
  commit_store σ (request.run env archive σ.clock σ.store)

lemma step_link (path : ObjectPath) (fileID : Nat) (size : Int) (isDir : Bool) :
    (σ.step env archive (.link path fileID size isDir)).store = σ.store ∨
      σ.store.createFileLink σ.clock path.text fileID size isDir =
        .ok (σ.step env archive (.link path fileID size isDir)).store :=
  commit_store σ (σ.store.createFileLink σ.clock path.text fileID size isDir)

lemma commit_clock (σ : System) (result : Except Err Store) :
    (σ.commit result).clock = σ.clock := by
  cases result <;> rfl

lemma createDraft_rule {size : Int} {lockNull : Bool} (failed : P σ)
    (made : ∀ blockCount, calculateFileBlockCount (if lockNull then 0 else size) env.maxFileSize =
        .ok blockCount →
      P { σ with
        store := { σ.store with
          files := σ.store.files ++ [⟨σ.store.nextFileID, if lockNull then 0 else size, blockCount,
            .init, .physical, σ.clock, σ.clock⟩]
          nextFileID := σ.store.nextFileID + 1 }
        creations := σ.creations ++
          [⟨σ.store.nextFileID, if lockNull then 0 else size, blockCount, 0, 0, lockNull⟩] }) :
    P (σ.createDraft env size lockNull) := by
  unfold createDraft createFileDraft
  cases counted : calculateFileBlockCount (if lockNull then 0 else size) env.maxFileSize with
  | error => exact failed
  | ok blockCount => exact made blockCount counted

lemma createPart_rule {upload : BlockUpload} (idle : P σ)
    (ended : P { σ with creations := σ.creations.eraseIdx index })
    (stored : ∀ creation s, σ.creations[index]? = some creation →
      (creation.next : Int) < creation.blockCount →
      σ.store.createFilePart env σ.clock creation.fileID creation.next upload = .ok s →
      P { σ with
        store := s
        creations := σ.creations.set index { creation with
          next := creation.next + 1, uploaded := creation.uploaded + upload.size } } ∧
      P { σ with store := s, creations := σ.creations.eraseIdx index }) :
    P (σ.createPart env index upload) := by
  unfold createPart
  cases known : σ.creations[index]? with
  | none => exact idle
  | some creation =>
    simp only
    by_cases more : (creation.next : Int) < creation.blockCount
    · rw [if_pos more]
      cases made : σ.store.createFilePart env σ.clock creation.fileID creation.next upload with
      | error => exact ended
      | ok s =>
        simp only
        split_ifs
        · exact (stored creation s known more made).1
        · exact (stored creation s known more made).2
    · rw [if_neg more]
      exact idle

lemma finishCreate_rule (idle : P σ) (finished : ∀ creation, σ.creations[index]? = some creation →
      creation.blockCount ≤ creation.next →
      P { σ with
        store := σ.store.finishFileCreate σ.clock creation.fileID
        creations := σ.creations.eraseIdx index
        prepared := if creation.lockNull then creation.fileID :: σ.prepared else σ.prepared }) :
    P (σ.finishCreate index) := by
  unfold finishCreate
  cases known : σ.creations[index]? with
  | none => exact idle
  | some creation =>
    simp only
    by_cases complete : creation.blockCount ≤ creation.next
    · rw [if_pos complete]
      exact finished creation known complete
    · rw [if_neg complete]
      exact idle

lemma stageUpload_rule {jobID : Text} {file : Backup.File} {part : Backup.Part}
    {upload : BlockUpload} (idle : P σ)
    (uploaded : ∀ targetID, σ.store.readBackupStageTarget jobID
      file.ref = .ok (targetID, part.index) →
      file ∈ (archive.manifest jobID).files → part ∈ file.parts → ∀ sound,
      P { σ with
        stagings := σ.stagings ++ [⟨⟨jobID, targetID, file.ref, part.index, part.size, part.md5,
          upload.fileKey, upload.deleteRef, upload.uploadedAt⟩, sound, .uploaded⟩] }) :
    P (σ.stageUpload archive jobID file part upload) := by
  unfold stageUpload
  cases target : σ.store.readBackupStageTarget jobID file.ref with
  | error => exact idle
  | ok pair =>
    obtain ⟨targetID, nextPart⟩ := pair
    simp only
    split_ifs with waits
    · obtain ⟨listed, inParts, rfl, -⟩ := waits
      exact uploaded targetID target listed inParts _
    · exact idle

lemma stagePersist_rule (idle : P σ)
    (failed : ∀ part sound, σ.stagings[index]? = some ⟨part, sound, .uploaded⟩ →
      P { σ with stagings := σ.stagings.set index ⟨part, sound, .unpersisted⟩ })
    (persisted : ∀ part sound s, σ.stagings[index]? = some ⟨part, sound, .uploaded⟩ →
      σ.store.persistBackupPart env σ.clock part = .ok s →
      P { σ with store := s, stagings := σ.stagings.set index ⟨part, sound, .persisted⟩ }) :
    P (σ.stagePersist env index) := by
  unfold stagePersist
  split
  · rename_i part sound known
    cases done : σ.store.persistBackupPart env σ.clock part with
    | error => exact failed part sound known
    | ok s => exact persisted part sound s known done
  · exact idle

lemma stageCompensate_rule (idle : P σ)
    (failed : P { σ with stagings := σ.stagings.eraseIdx index })
    (recorded : ∀ part sound s, σ.stagings[index]? = some ⟨part, sound, .unpersisted⟩ →
      σ.store.persistBackupCompensationRecord env σ.clock part = .ok s →
      P { σ with store := s, stagings := σ.stagings.eraseIdx index }) :
    P (σ.stageCompensate env index) := by
  unfold stageCompensate commit
  split
  · rename_i part sound known
    cases done : σ.store.persistBackupCompensationRecord env σ.clock part with
    | error => exact failed
    | ok s => exact recorded part sound s known done
  · exact idle

lemma stageAdvance_rule (idle : P σ) (failed : P { σ with stagings := σ.stagings.eraseIdx index })
    (advanced : ∀ part s, σ.stagings[index]? = some ⟨part, true, .persisted⟩ →
      σ.store.advanceBackupPartCursor σ.clock part = .ok s →
      P { σ with store := s, stagings := σ.stagings.eraseIdx index }) :
    P (σ.stageAdvance index) := by
  unfold stageAdvance commit
  split
  · rename_i part known
    cases done : σ.store.advanceBackupPartCursor σ.clock part with
    | error => exact failed
    | ok s => exact advanced part s known done
  · exact idle

lemma claimDeletes_rule (busy : P σ) (claimed : σ.worker.finishes = [] → σ.worker.calls = [] →
      P { σ with
        store := (σ.store.claimBlockDeleteWork env σ.clock).1
        worker := ⟨σ.clock, [],
          if (σ.store.claimBlockDeleteWork env σ.clock).2 = [] then []
          else [(σ.store.claimBlockDeleteWork env σ.clock).2]⟩ }) : P (σ.claimDeletes env) := by
  unfold claimDeletes
  split_ifs with idle
  · exact claimed idle.1 idle.2
  · exact busy

lemma deleteBlocks_rule {outcome : DeleteOutcome} (idle : P σ)
    (answered : ∀ works calls, σ.worker.finishes = [] → σ.worker.calls = works :: calls →
      P { σ with worker := ⟨σ.worker.startedAt, (afterDelete σ.worker.startedAt works outcome).1,
        (afterDelete σ.worker.startedAt works outcome).2 ++ calls⟩ }) :
    P (σ.deleteBlocks outcome) := by
  unfold deleteBlocks
  split
  · rename_i startedAt works calls same
    have given := answered works calls (by rw [same]) (by rw [same])
    rw [same] at given
    exact given
  · exact idle

lemma finishDelete_rule (idle : P σ)
    (recorded : ∀ finish finishes, σ.worker.finishes = finish :: finishes →
      P { σ with
        store := σ.store.finishBlockDeleteWork σ.worker.startedAt finish
        worker := ⟨σ.worker.startedAt, finishes, σ.worker.calls⟩ }) : P σ.finishDelete := by
  unfold finishDelete
  split
  · rename_i startedAt finish finishes calls same
    have given := recorded finish finishes (by rw [same])
    rw [same] at given
    exact given
  · exact idle

/-- Time never runs backwards. -/
lemma clock_le_step (action : Action) : σ.clock ≤ (σ.step env archive action).clock := by
  let P (τ : System) : Prop := σ.clock ≤ τ.clock
  cases action with
  | tick elapsed => exact Int.le_add_of_nonneg_right (Int.natCast_nonneg elapsed)
  | dav request options =>
    by_cases allowed : σ.davAllowed request = true
    · simp only [step, if_pos allowed, commit_clock, le_refl]
    · simp only [step, if_neg allowed, le_refl]
  | s3 request => exact (commit_clock σ _).ge
  | job request => exact (commit_clock σ _).ge
  | link path fileID size isDir => exact (commit_clock σ _).ge
  | discard fileID => exact (commit_clock σ _).ge
  | createDraft size lockNull =>
    exact createDraft_rule (P := P) le_rfl fun _ _ => le_rfl
  | createPart index upload =>
    exact createPart_rule (P := P) le_rfl le_rfl fun _ _ _ _ _ => ⟨le_rfl, le_rfl⟩
  | finishCreate index =>
    exact finishCreate_rule (P := P) le_rfl fun _ _ _ => le_rfl
  | abandonCreate index => exact le_rfl
  | stageUpload jobID file part upload =>
    exact stageUpload_rule (P := P) le_rfl fun _ _ _ _ _ => le_rfl
  | stagePersist index =>
    exact stagePersist_rule (P := P) le_rfl (fun _ _ _ => le_rfl) fun _ _ _ _ _ => le_rfl
  | stageCompensate index =>
    exact stageCompensate_rule (P := P) le_rfl le_rfl fun _ _ _ _ _ => le_rfl
  | stageAdvance index =>
    exact stageAdvance_rule (P := P) le_rfl le_rfl fun _ _ _ _ => le_rfl
  | abandonStage index => exact le_rfl
  | claimDeletes =>
    exact claimDeletes_rule (P := P) le_rfl fun _ _ => le_rfl
  | deleteBlocks outcome =>
    exact deleteBlocks_rule (P := P) le_rfl fun _ _ _ _ => le_rfl
  | finishDelete =>
    exact finishDelete_rule (P := P) le_rfl fun _ _ _ => le_rfl
  | crashWorker => exact le_rfl
  | startPurge limitMtime => exact le_rfl
  | purge index =>
    simp only [step, purge]
    split <;> exact le_rfl

end TgFile.System
