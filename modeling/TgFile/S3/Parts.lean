import TgFile.S3.Complete
import TgFile.Store.Marking

/-! # What multipart requests do to uploads and parts -/

namespace TgFile.Store

open Go Result S3

variable {env : Env} {s s' : Store} {now : Int} {uploadID bucket key : Text}
  {upload : MultipartUpload} {expired : Bool}

/-- The tables that multipart requests leave alone, unless they publish an object. -/
structure SameTree (s s' : Store) : Prop where
  dir : s'.dir = s.dir
  locks : s'.locks = s.locks
  metadata : s'.metadata = s.metadata
  properties : s'.properties = s.properties
  files : s'.files = s.files
  parts : s'.parts = s.parts
  segments : s'.segments = s.segments
  completedParts : s'.completedParts = s.completedParts
  pins : s'.pins = s.pins
  jobFiles : s'.jobFiles = s.jobFiles
  nextFileID : s'.nextFileID = s.nextFileID

lemma SameTree.refl (s : Store) : SameTree s s :=
    ⟨rfl, rfl, rfl, rfl, rfl, rfl, rfl, rfl, rfl, rfl, rfl⟩

lemma SameTree.trans {s₁ : Store} (left : SameTree s s₁) (right : SameTree s₁ s') :
    SameTree s s' where
  dir := right.dir.trans left.dir
  locks := right.locks.trans left.locks
  metadata := right.metadata.trans left.metadata
  properties := right.properties.trans left.properties
  files := right.files.trans left.files
  parts := right.parts.trans left.parts
  segments := right.segments.trans left.segments
  completedParts := right.completedParts.trans left.completedParts
  pins := right.pins.trans left.pins
  jobFiles := right.jobFiles.trans left.jobFiles
  nextFileID := right.nextFileID.trans left.nextFileID

lemma createMultipartUpload_ok {request : CreateMultipartRequest}
    (run : s.createMultipartUpload now request uploadID = .ok s') :
    ∃ upload, upload.uploadID = uploadID ∧ upload.key = request.key ∧ upload.state = .active ∧
      (∀ other ∈ s.uploads, other.uploadID ≠ uploadID) ∧
      s' = { s with uploads := s.uploads ++ [upload] } := by
  simp only [createMultipartUpload, bind_ok] at run
  obtain ⟨_, -, rest⟩ := run
  split at rest
  · cases rest
  · simp only [bind_ok, Sqlite.insertRow_ok, pure_ok] at rest
    obtain ⟨_, -, rows, ⟨free, rfl⟩, rfl⟩ := rest
    refine ⟨_, rfl, rfl, rfl, fun other member same => ?_, rfl⟩
    simpa [MultipartUpload.clash, same] using free other member

/-! ## Aborting -/

/-- The store after an upload was aborted, before its Files are handed over. -/
def aborted (s : Store) (uploadID : Text) (now : Int) : Store :=
  (s.updateUpload uploadID fun row =>
    { row with
      state := .aborted, cleanupAt := now + multipartDay, mtime := now }).discardActiveParts
      uploadID now

/-- An upload is aborted, and the Files of its active parts are handed over. -/
def Aborts (now : Int) (s s' : Store) (uploadID : Text) : Prop :=
  ∃ hit, s' = (s.aborted uploadID now).markRows hit now ∧
    (s.aborted uploadID now).HandsOver (s.listMultipartPartFileIDs uploadID) hit

lemma Aborts.sameTree (aborts : Aborts now s s' uploadID) : SameTree s s' := by
  obtain ⟨hit, rfl, -⟩ := aborts
  exact ⟨rfl, rfl, rfl, rfl, rfl, rfl, rfl, rfl, rfl, rfl, rfl⟩

lemma abortMultipartUploadTx_ok (run : s.abortMultipartUploadTx upload now = .ok s') :
    Aborts now s s' upload.uploadID := by
  simp only [abortMultipartUploadTx, bind_ok] at run
  obtain ⟨_, -, marked⟩ := run
  exact markMappingFilesPending_ok marked

/-- An upload that was active is aborted. -/
structure AbortsActive (now : Int) (s s' : Store) (uploadID : Text) : Prop where
  active : s.uploadActive uploadID = true
  aborts : Aborts now s s' uploadID

lemma abortMultipartUploadTx_active (run : s.abortMultipartUploadTx upload now = .ok s') :
    AbortsActive now s s' upload.uploadID := by
  refine ⟨?_, abortMultipartUploadTx_ok run⟩
  simp only [abortMultipartUploadTx, bind_ok, require_ok] at run
  exact run.choose_spec.1

/-- A call on an active upload that has expired aborts it. -/
def Expires (now : Int) (s s' : Store) (uploadID : Text) : Prop :=
  ∃ upload ∈ s.uploads, upload.uploadID = uploadID ∧ upload.state = .active ∧
    upload.expiresAt ≤ now ∧ s.abortMultipartUploadTx upload now = .ok s'

lemma Expires.abortsActive (expires : Expires now s s' uploadID) :
    AbortsActive now s s' uploadID := by
  obtain ⟨upload, -, rfl, -, -, run⟩ := expires
  exact abortMultipartUploadTx_active run

lemma matchedUpload_ok (run : s.matchedUpload uploadID bucket key = .ok upload) :
    s.readMultipartUpload uploadID = some upload ∧ upload ∈ s.uploads ∧
      upload.uploadID = uploadID := by
  unfold matchedUpload at run
  cases found : s.readMultipartUpload uploadID with
  | none =>
    rw [found] at run
    cases run
  | some row =>
    simp only [found, bind_ok, pure_ok] at run
    obtain ⟨_, -, rfl⟩ := run
    exact ⟨rfl, List.mem_of_find?_eq_some found, by simpa using List.find?_some found⟩

lemma abortMultipartUpload_ok (run : s.abortMultipartUpload now uploadID bucket key = .ok s') :
    s' = s ∨ AbortsActive now s s' uploadID := by
  simp only [abortMultipartUpload, bind_ok] at run
  obtain ⟨_, -, upload, matched, rest⟩ := run
  obtain ⟨-, -, rfl⟩ := matchedUpload_ok matched
  cases state : upload.state with
  | aborted =>
    simp only [state, pure_ok] at rest
    exact .inl rest.symm
  | completed =>
    rw [state] at rest
    cases rest
  | active =>
    rw [state] at rest
    exact .inr (abortMultipartUploadTx_active rest)
  | completing =>
    rw [state] at rest
    cases rest

/-- The upload is active, or it had expired and was aborted. -/
lemma ensureActiveMultipartUpload_ok
    (run : s.ensureActiveMultipartUpload now uploadID bucket key = .ok (s', upload, expired)) :
    (s' = s ∧ expired = false ∧ s.uploadActive uploadID = true) ∨
      (expired = true ∧ Expires now s s' uploadID) := by
  simp only [ensureActiveMultipartUpload, bind_ok, require_ok] at run
  obtain ⟨found, matched, _, active, rest⟩ := run
  obtain ⟨-, member, rfl⟩ := matchedUpload_ok matched
  split_ifs at rest with unexpired
  · obtain ⟨rfl, pair⟩ := Prod.mk.inj (pure_ok.mp rest)
    obtain ⟨-, rfl⟩ := Prod.mk.inj pair
    exact .inl ⟨rfl, rfl, List.any_eq_true.mpr ⟨found, member, by simp [active]⟩⟩
  · simp only [bind_ok, pure_ok] at rest
    obtain ⟨s₁, run, result⟩ := rest
    obtain ⟨rfl, pair⟩ := Prod.mk.inj result
    obtain ⟨-, rfl⟩ := Prod.mk.inj pair
    exact .inr ⟨rfl, found, member, rfl, active, Int.not_lt.mp unexpired, run⟩

lemma expireUpload_ok (run : expireUpload now s uploadID = .ok s') :
    s' = s ∨ AbortsActive now s s' uploadID := by
  unfold expireUpload at run
  cases found : s.readMultipartUpload uploadID with
  | none =>
    rw [found] at run
    exact .inl (Except.ok.inj run).symm
  | some upload =>
    rw [found] at run
    have same : upload.uploadID = uploadID := by simpa using List.find?_some found
    simp only at run
    split_ifs at run
    · exact .inr (same ▸ abortMultipartUploadTx_active run)
    · exact .inl (Except.ok.inj run).symm

/-- A property that aborts keep holds after the expiry pass. -/
lemma processExpiredMultipartUploads_rule {limit : Nat} (inv : Store → Prop)
    (abort : ∀ t t' uploadID, inv t → AbortsActive now t t' uploadID → inv t') (start : inv s)
    (run : s.processExpiredMultipartUploads now limit = .ok s') : inv s' := by
  refine foldlM_ok inv ?_ start run
  intro uploadID _ t t' holds pass
  rcases expireUpload_ok pass with rfl | aborts
  · exact holds
  · exact abort t t' uploadID holds aborts

/-! ## Staging a part -/

/-- The row of the part a request replaces. -/
def PutMultipartPartRequest.replaces (request : PutMultipartPartRequest) (part : MultipartPart) :
    Bool :=
  part.uploadID = request.uploadID ∧ part.partNumber = request.partNumber ∧ part.state = .active

/-- The part rows after a request, and the Files of parts it replaced. -/
inductive StoresPart (now : Int) (s : Store) (request : PutMultipartPartRequest) :
    List MultipartPart → List Nat → Prop
  | inserted (row : MultipartPart) (upload : row.uploadID = request.uploadID)
      (file : row.fileID = request.fileID) (active : row.state = .active)
      (free : ∀ other ∈ s.uploadParts, row.clash other = false) :
      StoresPart now s request (s.uploadParts ++ [row]) []
  | replaced (part : MultipartPart) (member : part ∈ s.uploadParts)
      (hit : request.replaces part = true) (rows : List MultipartPart)
      (update : Sqlite.updateRows MultipartPart.clash request.replaces
        (fun part => { part with
          fileID := request.fileID, partSize := request.size, etag := request.etag,
          checksumValue := request.checksumValue, uploadedAt := now, mtime := now })
        [] s.uploadParts = .ok rows) :
      StoresPart now s request rows (if part.fileID ≠ request.fileID then [part.fileID] else [])

lemma activePart_ok {number : Nat} {record : MultipartPart × StoredFile}
    (found : s.activePart uploadID number = some record) :
    record.1 ∈ s.uploadParts ∧ record.1.uploadID = uploadID ∧ record.1.partNumber = number ∧
      record.1.state = .active ∧ record.2 ∈ s.files ∧ record.2.fileID = record.1.fileID := by
  have numbered := List.find?_some found
  have listed := List.mem_of_find?_eq_some found
  simp only [activeParts, List.mem_flatMap, List.mem_filter, List.mem_map, decide_eq_true_eq]
    at listed numbered
  obtain ⟨part, ⟨member, same, active⟩, file, ⟨inFiles, id⟩, rfl⟩ := listed
  exact ⟨member, same, numbered, active, inFiles, id⟩

lemma putMultipartPart_ok {request : PutMultipartPartRequest}
    (run : s.putMultipartPart env now request = .ok (s', expired)) :
    (expired = true ∧ Expires now s s' request.uploadID) ∨
      (expired = false ∧ ∃ file rows lost hit, s.uploadActive request.uploadID = true ∧
        s.validateMultipartStagingFile request.fileID request.size = .ok file ∧
        StoresPart now s request rows lost ∧
        s' = { s with uploadParts := rows }.markRows hit now ∧
        { s with uploadParts := rows }.HandsOver lost hit) := by
  simp only [putMultipartPart, bind_ok] at run
  obtain ⟨_, -, ⟨s₁, upload, late⟩, ensured, rest⟩ := run
  rcases ensureActiveMultipartUpload_ok ensured with ⟨rfl, rfl, active⟩ | ⟨rfl, expires⟩
  · refine .inr ?_
    simp only [Bool.false_eq_true, if_false, bind_ok, pure_ok] at rest
    obtain ⟨_, -, file, staged, _, -, s₂, upserted, s₃, marked, result⟩ := rest
    obtain ⟨rfl, rfl⟩ := Prod.mk.inj result
    refine ⟨rfl, ?_⟩
    cases previous : s₁.activePart request.uploadID request.partNumber with
    | none =>
      simp only [previous, upsertMultipartPart, Option.isSome_none, Bool.false_eq_true, if_false,
        bind_ok, Sqlite.insertRow_ok, pure_ok] at upserted
      obtain ⟨rows, ⟨free, rfl⟩, rfl⟩ := upserted
      rw [previous] at marked
      obtain rfl := Except.ok.inj marked
      exact ⟨file, _, [], [], active, staged, .inserted _ rfl rfl rfl free,
        (markRows_nil _ now).symm, .nil _⟩
    | some record =>
      simp only [previous, upsertMultipartPart, Option.isSome_some, if_true, bind_ok,
        pure_ok] at upserted
      obtain ⟨rows, update, rfl⟩ := upserted
      obtain ⟨member, upload, number, isActive, -⟩ := activePart_ok previous
      have stores := StoresPart.replaced record.1 member
        (by simp [PutMultipartPartRequest.replaces, upload, number, isActive]) rows update
      rw [previous] at marked
      by_cases other : record.1.fileID ≠ request.fileID
      · simp only [markReplacedPartPending, if_pos other] at marked
        obtain ⟨hit, rfl, handed⟩ := markFileTreePendingIfUnreferenced_ok marked
        exact ⟨file, rows, _, hit, active, staged, stores, rfl, by
          rw [if_pos other]
          exact handed⟩
      · simp only [markReplacedPartPending, if_neg other] at marked
        obtain rfl := Except.ok.inj marked
        exact ⟨file, rows, _, [], active, staged, stores, (markRows_nil _ now).symm, by
          rw [if_neg other]
          exact .nil _⟩
  · simp only [if_true, pure_ok] at rest
    obtain ⟨rfl, rfl⟩ := Prod.mk.inj rest
    exact .inl ⟨rfl, expires⟩

/-! ## Requests that publish nothing -/

lemma updateUpload_sameTree (s : Store) (uploadID : Text)
    (f : MultipartUpload → MultipartUpload) : SameTree s (s.updateUpload uploadID f) :=
  ⟨rfl, rfl, rfl, rfl, rfl, rfl, rfl, rfl, rfl, rfl, rfl⟩

lemma putMultipartPart_sameTree {request : PutMultipartPartRequest}
    (run : s.putMultipartPart env now request = .ok (s', expired)) : SameTree s s' := by
  rcases putMultipartPart_ok run with ⟨-, expires⟩ | ⟨-, _, rows, _, hit, -, -, -, rfl, -⟩
  · exact expires.abortsActive.aborts.sameTree
  · exact ⟨rfl, rfl, rfl, rfl, rfl, rfl, rfl, rfl, rfl, rfl, rfl⟩

lemma ensureActiveMultipartUpload_sameTree
    (run : s.ensureActiveMultipartUpload now uploadID bucket key = .ok (s', upload, expired)) :
    SameTree s s' := by
  rcases ensureActiveMultipartUpload_ok run with ⟨rfl, -⟩ | ⟨-, expires⟩
  · exact .refl _
  · exact expires.abortsActive.aborts.sameTree

lemma abortMultipartUpload_sameTree
    (run : s.abortMultipartUpload now uploadID bucket key = .ok s') : SameTree s s' := by
  rcases abortMultipartUpload_ok run with rfl | aborts
  · exact .refl _
  · exact aborts.aborts.sameTree

lemma processExpiredMultipartUploads_sameTree {limit : Nat}
    (run : s.processExpiredMultipartUploads now limit = .ok s') : SameTree s s' :=
  processExpiredMultipartUploads_rule (fun t => SameTree s t)
    (fun _ _ _ before aborts => before.trans aborts.aborts.sameTree) (.refl s) run

end TgFile.Store
