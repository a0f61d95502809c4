import TgFile.S3.Selection
import TgFile.System.Attached

/-! # What requests do to the delete states

Outside the worker a delete state is inserted for a new block, or it turns from `live` to
`pending`.  No statement removes one. -/

namespace TgFile

open Go Go.Path Result WebDAV Store

variable {env : Env} {archive : Backup.Archive} {s s' : Store} {now : Int}

/-- Some live rows became pending. -/
def Marks (now : Int) (s s' : Store) : Prop :=
  ∃ hit, s'.deleteStates = s.deleteStates.map (markRow now hit)

namespace Marks

lemma of_same (same : s'.deleteStates = s.deleteStates) : Marks now s s' :=
  ⟨[], by rw [same, map_markRow_nil]⟩

lemma refl (s : Store) : Marks now s s := of_same rfl

lemma trans {s₁ : Store} (left : Marks now s s₁) (right : Marks now s₁ s') : Marks now s s' := by
  obtain ⟨first, left⟩ := left
  obtain ⟨second, right⟩ := right
  refine ⟨first ++ second, ?_⟩
  rw [right, left, List.map_map]
  exact List.map_congr_left fun row _ => markRow_markRow first second row

lemma of_markRows (s : Store) (hit : List Nat) : Marks now s (s.markRows hit now) :=
  ⟨hit, rfl⟩

lemma of_effect {gained lost hit : List Nat} (effect : RefEffect now s s' gained lost hit) :
    Marks now s s' := ⟨hit, effect.deleteStates⟩

lemma of_aborts {uploadID : Text} (aborts : Aborts now s s' uploadID) : Marks now s s' := by
  obtain ⟨hit, rfl, -⟩ := aborts
  exact ⟨hit, rfl⟩

end Marks

/-! ## Requests -/

lemma DavRequest.marks {request : DavRequest} {options : MutationOptions} (sound : Sound s)
    (abs : ∀ lock ∈ s.locks, isAbs lock.rootPath = true)
    (run : request.run env now options s = .ok s') : Marks now s s' := by
  have steps := request.refSteps sound abs run
  clear run
  induction steps with
  | refl => exact .refl s
  | tail _ step ih =>
    obtain ⟨gained, lost, hit, effect, -⟩ := step
    exact ih.trans (.of_effect effect)

lemma finalizeMultipartParts_marks {uploadID : Text} {selected : List MultipartPart}
    (run : s.finalizeMultipartParts uploadID selected now = .ok s') : Marks now s s' := by
  obtain ⟨hit, rfl, -⟩ := finalizeMultipartParts_eq run
  exact ⟨hit, rfl⟩

lemma completeMultipartUpload_marks {request : CompleteMultipartRequest} {path : ObjectPath}
    {result : Option CompleteMultipartResult} (sound : Sound s)
    (located : path.text = objectPath request.bucket request.key)
    (run : s.completeMultipartUpload env now request = .ok (s', result)) : Marks now s s' := by
  obtain ⟨_, -, -, ⟨_, -, rfl, -, -⟩ | ⟨-, expires⟩ |
    ⟨answer, records, count, checksums, published, closed, -, -, -, completion⟩⟩ :=
      completeMultipartUpload_cases run
  · exact .refl _
  · exact .of_aborts expires.abortsActive.aborts
  · obtain ⟨entry, linked⟩ := completion.linked
    rw [← located] at linked
    have tree : SoundTree ((s.claimed request.uploadID now).withComposite now (records.map Prod.fst)
        answer.size count (((records.map Prod.fst).map MultipartPart.partSize).zip
          checksums)).dir :=
      sound.tree
    obtain ⟨removed, lost, hit, -, effect, -⟩ := publishS3ObjectTx_effect tree path linked
    rw [completion.finished]
    have first : Marks now s published := ⟨hit, effect.deleteStates⟩
    exact (first.trans (finalizeMultipartParts_marks completion.finalized)).trans (.of_same rfl)

lemma S3Request.marks {request : S3Request} (sound : Sound s)
    (run : request.run env now s = .ok s') : Marks now s s' := by
  cases request with
  | publish path fileID size metadata condition =>
    simp only [S3Request.run, map_ok] at run
    obtain ⟨⟨_, entry⟩, run, rfl⟩ := run
    obtain ⟨removed, lost, hit, -, effect, -⟩ := publishS3ObjectTx_effect sound.tree path run
    exact .of_effect effect
  | copy source destination metadata sourceCondition destinationCondition =>
    obtain ⟨removed, gained, lost, hit, -, effect, -⟩ :=
      copyS3Object_effect sound.tree source destination run
    exact .of_effect effect
  | delete path condition =>
    simp only [S3Request.run, map_ok] at run
    obtain ⟨⟨_, deleted⟩, run, rfl⟩ := run
    obtain ⟨removed, lost, hit, -, effect, -⟩ := deleteS3Object_effect sound.tree path run
    exact .of_effect effect
  | createUpload request uploadID =>
    obtain ⟨upload, -, -, -, -, rfl⟩ := createMultipartUpload_ok run
    exact .refl s
  | inspectUpload uploadID bucket key =>
    simp only [S3Request.run, map_ok] at run
    obtain ⟨⟨_, upload, expired⟩, run, rfl⟩ := run
    rcases ensureActiveMultipartUpload_ok run with ⟨rfl, -⟩ | ⟨-, expires⟩
    · exact .refl _
    · exact .of_aborts expires.abortsActive.aborts
  | putPart request =>
    simp only [S3Request.run, map_ok] at run
    obtain ⟨⟨_, expired⟩, run, rfl⟩ := run
    rcases putMultipartPart_ok run with ⟨-, expires⟩ | ⟨-, file, rows, lost, hit, -, -, -, rfl, -⟩
    · exact .of_aborts expires.abortsActive.aborts
    · exact ⟨hit, rfl⟩
  | complete request path located =>
    simp only [S3Request.run, map_ok] at run
    obtain ⟨⟨_, result⟩, run, rfl⟩ := run
    exact completeMultipartUpload_marks sound located run
  | abort uploadID bucket key =>
    rcases abortMultipartUpload_ok run with rfl | aborts
    · exact .refl _
    · exact .of_aborts aborts.aborts
  | expire limit =>
    exact processExpiredMultipartUploads_rule (Marks now s)
      (fun t t' uploadID before aborts => before.trans (.of_aborts aborts.aborts)) (.refl s) run
  | purgeControl limit =>
    obtain rfl := Except.ok.inj run
    exact .refl s

lemma JobRequest.marks {request : JobRequest} (sound : Sound s)
    (run : request.run env archive now s = .ok s') : Marks now s s' := by
  cases request with
  | importRoot =>
    simp only [JobRequest.run, prepareImportRoot, bind_ok, pure_ok] at run
    obtain ⟨d', made, rfl⟩ := run
    exact .of_same rfl
  | publish jobID policy =>
    obtain ⟨gained, lost, hit, -, effect, -⟩ :=
      publishBackupImport_effect sound.tree sound.positive (archive.valid jobID) run
    exact .of_effect effect
  | discardImport jobID =>
    obtain ⟨hit, rfl, -⟩ := markMappingFilesPending_ok run
    exact .of_markRows s hit
  | _ => exact .of_same (JobRequest.elsewhere run (by simp) (by simp) (by simp)).deleteStates

/-! ## Actions -/

/-- A delete state for a new block. -/
def Inserts (s s' : Store) : Prop :=
  ∃ row, row.attemptCount = 0 ∧ (row.state = .live ∨ row.state = .pending) ∧
    (∀ other ∈ s.deleteStates, row.clash other = false) ∧
    s'.deleteStates = s.deleteStates ++ [row]

/-- The worker's own actions. -/
def Action.deletes : Action → Bool
  | .claimDeletes | .deleteBlocks _ | .finishDelete | .crashWorker => true
  | _ => false

lemma createFilePart_inserts {fileID partID : Nat} {upload : BlockUpload}
    (run : s.createFilePart env now fileID partID upload = .ok s') : Inserts s s' := by
  simp only [createFilePart, bind_ok, Sqlite.insertRow_ok, pure_ok] at run
  obtain ⟨_, -, _, -, _, ⟨-, rfl⟩, _, ⟨free, rfl⟩, rfl⟩ := run
  exact ⟨_, rfl, .inl rfl, free, rfl⟩

lemma insertStagedBlock_inserts {staged : StagedPart} {state : BlockState} {nextAttemptAt : Int}
    (waiting : state = .live ∨ state = .pending)
    (run : s.insertStagedBlock env now staged state nextAttemptAt = .ok s') : Inserts s s' := by
  simp only [insertStagedBlock, bind_ok, Sqlite.insertRow_ok, pure_ok] at run
  obtain ⟨_, ⟨-, rfl⟩, _, ⟨free, rfl⟩, rfl⟩ := run
  exact ⟨_, rfl, waiting, free, rfl⟩

/-- Every action that is not the worker's marks rows or inserts one. -/
lemma System.step_marks {σ : System} (sound : ProtocolSound σ.store) {action : Action}
    (other : action.deletes = false) :
    Marks σ.clock σ.store (σ.step env archive action).store ∨
      Inserts σ.store (σ.step env archive action).store := by
  let P (τ : System) : Prop := Marks σ.clock σ.store τ.store ∨ Inserts σ.store τ.store
  have idle : P σ := .inl (.refl _)
  cases action with
  | claimDeletes => cases other
  | deleteBlocks => cases other
  | finishDelete => cases other
  | crashWorker => cases other
  | tick => exact .inl (.refl _)
  | dav request options =>
    rcases System.step_dav request options with same | ⟨-, run⟩
    · exact .inl (.of_same (by rw [same]))
    · exact .inl (DavRequest.marks sound.sound sound.attached.abs run)
  | s3 request =>
    rcases System.step_s3 request with same | run
    · exact .inl (.of_same (by rw [same]))
    · exact .inl (S3Request.marks sound.sound run)
  | job request =>
    rcases System.step_job request with same | run
    · exact .inl (.of_same (by rw [same]))
    · exact .inl (JobRequest.marks sound.sound run)
  | link path fileID size isDir =>
    rcases System.step_link path fileID size isDir with same | run
    · exact .inl (.of_same (by rw [same]))
    · obtain ⟨gained, -, effect, -⟩ := createFileLink_effect sound.sound.tree path run
      exact .inl (.of_effect effect)
  | discard fileID =>
    refine System.commit_rule (P := P) idle fun s marked => ?_
    obtain ⟨hit, rfl, -⟩ := markFileTreePendingIfUnreferenced_ok marked
    exact .inl (.of_markRows _ hit)
  | createDraft size lockNull =>
    exact System.createDraft_rule (P := P) idle fun _ _ => .inl (.of_same rfl)
  | createPart index upload =>
    refine System.createPart_rule (P := P) idle idle fun creation s _ _ made => ?_
    exact ⟨.inr (createFilePart_inserts made), .inr (createFilePart_inserts made)⟩
  | finishCreate index =>
    exact System.finishCreate_rule (P := P) idle fun _ _ _ => .inl (.of_same rfl)
  | abandonCreate => exact .inl (.refl _)
  | stageUpload jobID file part upload =>
    exact System.stageUpload_rule (P := P) idle fun _ _ _ _ _ => .inl (.refl _)
  | stagePersist index =>
    refine System.stagePersist_rule (P := P) idle (fun _ _ _ => .inl (.refl _))
      fun part sound s _ persisted => ?_
    simp only [persistBackupPart, bind_ok] at persisted
    obtain ⟨s₁, inserted, updated⟩ := persisted
    obtain ⟨row, fresh, waiting, free, rows⟩ := insertStagedBlock_inserts (.inl rfl) inserted
    rw [updateWaiting_ok updated]
    exact .inr ⟨row, fresh, waiting, free, rows⟩
  | stageCompensate index =>
    refine System.stageCompensate_rule (P := P) idle idle fun part sound s _ recorded => ?_
    exact .inr (insertStagedBlock_inserts (.inr rfl) recorded)
  | stageAdvance index =>
    refine System.stageAdvance_rule (P := P) idle idle fun part s _ advanced => ?_
    rw [updateWaiting_ok advanced]
    exact .inl (.of_same rfl)
  | abandonStage => exact .inl (.refl _)
  | startPurge => exact .inl (.refl _)
  | purge index =>
    simp only [System.step, System.purge]
    split
    · exact .inl (.refl _)
    · rename_i phase _
      cases phase with
      | check todo => cases todo <;> exact .inl (.of_same rfl)
      | _ => exact .inl (.of_same rfl)

end TgFile
