import TgFile.S3.LifeCycle

/-! # Closing an upload

A completion turns the selected parts into segments, publishes the object and gives up the Files
of the other parts. -/

namespace TgFile.Store

open Go Result S3

variable {env : Env} {s s' : Store} {now : Int} {ledger : Ledger} {uploadID : Text}
  {upload : MultipartUpload} {request : S3Request}

/-- The row of an upload that a completion claimed and closed. -/
def closedUpload (uploadID : Text) (now : Int) (fingerprint : Text)
    (answer : CompleteMultipartResult) (row : MultipartUpload) : MultipartUpload :=
  if row.uploadID = uploadID then
    completedUpload now fingerprint answer { row with state := .completing, mtime := now }
  else row

lemma closedUpload_update (uploadID : Text) (now : Int) (fingerprint : Text)
    (answer : CompleteMultipartResult) :
    RowUpdate uploadID (closedUpload uploadID now fingerprint answer) := by
  intro row
  unfold closedUpload
  split_ifs with own
  · exact ⟨rfl, fun other => absurd own other⟩
  · exact ⟨rfl, fun _ => rfl⟩

/-- A completion of an active upload, as the tables show it. -/
structure Closed (now : Int) (s s' : Store) (request : CompleteMultipartRequest)
    (upload : MultipartUpload) (fingerprint : Text) (answer : CompleteMultipartResult)
    (records : List (MultipartPart × StoredFile)) (count : Int) (first second : List Nat) :
    Prop where
  file : answer.fileID = s.nextFileID
  selected : List.Forall₂ (Selected s request.uploadID answer.checksum.isNone) request.parts records
  size : answer.size = (records.map fun record => record.1.partSize).sum
  files : s'.files = s.files ++
    [⟨s.nextFileID, answer.size, count, .ready, .composite, now, now⟩]
  nextFileID : s'.nextFileID = s.nextFileID + 1
  parts : s'.parts = s.parts
  segments : s'.segments = s.segments ++ segmentRows s.nextFileID now 0
    (records.map fun record => (record.1.fileID, record.1.partSize))
  pins : s'.pins = s.pins
  valid : s'.dir.Valid
  maps : ∀ fileID, s'.dir.Maps fileID → s.dir.Maps fileID ∨ fileID = s.nextFileID
  uploads : s'.uploads =
    s.uploads.map (closedUpload request.uploadID now fingerprint answer)
  uploadParts : s'.uploadParts =
    s.uploadParts.map (closeRow request.uploadID now (records.map Prod.fst))
  deleteStates : s'.deleteStates = (s.deleteStates.map (markRow now first)).map (markRow now second)
  kept : ∀ part ∈ s.uploadParts, part.state = .active → s.uploadActive part.uploadID = true →
    part.uploadID ≠ request.uploadID → part.fileID ∉ first ∧ part.fileID ∉ second
  given : ∀ part ∈ s.uploadParts, part.state = .active → part.uploadID = request.uploadID →
    part.fileID ∉ records.map (fun record => record.1.fileID) → s'.Apart part.fileID →
    s'.pins = [] → (∀ row ∈ s'.uploadParts, row.fileID = part.fileID → row.state ≠ .active) →
    part.fileID ∈ second

lemma Selected.of_claimed {claimed : Text} {legacy : Bool} {requested : CompleteMultipartPart}
    {record : MultipartPart × StoredFile}
    (selected : Selected (s.claimed claimed now) uploadID legacy requested record) :
    Selected s uploadID legacy requested record :=
  ⟨selected.found, selected.etag, selected.checksummed, selected.agrees, selected.ready,
    selected.live, selected.unmapped⟩

lemma Completion.closed {request : CompleteMultipartRequest} {fingerprint : Text}
    {answer : CompleteMultipartResult} {records : List (MultipartPart × StoredFile)} {count : Int}
    {checksums : List (Option (Text × Text))} {published closed : Store} (sound : Sound s)
    (path : ObjectPath) (located : path.text = objectPath request.bucket request.key)
    (completion : Completion env now (s.claimed request.uploadID now) s' request upload fingerprint
      answer records count checksums published closed) :
    ∃ first second, Closed now s s' request upload fingerprint answer records count
      first second := by
  obtain ⟨more, same, selected, sizes, -⟩ := loadCompletionParts_ok completion.loaded
  obtain rfl : records = more := by simpa using same
  obtain ⟨entry, linked⟩ := completion.linked
  rw [← located] at linked
  have tree : SoundTree ((s.claimed request.uploadID now).withComposite now (records.map Prod.fst)
      answer.size count (((records.map Prod.fst).map MultipartPart.partSize).zip checksums)).dir :=
    sound.tree
  obtain ⟨removed, lost, first, -, effect, -⟩ := publishS3ObjectTx_effect tree path linked
  obtain ⟨second, rfl, handed⟩ := finalizeMultipartParts_eq completion.finalized
  have rows : published.uploadParts = s.uploadParts := effect.same.uploadParts
  have uploads : published.uploads = (s.claimed request.uploadID now).uploads := effect.same.uploads
  refine ⟨first, second, ?_⟩
  constructor
  case file => exact completion.file
  case selected => exact selected.imp fun _ _ chosen => chosen.of_claimed
  case size => rw [sizes, Int.zero_add]
  case files =>
    rw [completion.finished]
    exact effect.same.files
  case nextFileID =>
    rw [completion.finished]
    exact effect.same.nextFileID
  case parts =>
    rw [completion.finished]
    exact effect.same.parts
  case segments =>
    rw [completion.finished]
    refine effect.same.segments.trans ?_
    change s.segments ++ segmentRows s.nextFileID now 0 ((records.map Prod.fst).map _) = _
    rw [List.map_map]
    rfl
  case pins =>
    rw [completion.finished]
    exact effect.same.pins
  case valid =>
    rw [completion.finished]
    exact effect.valid
  case maps =>
    intro fileID maps
    rw [completion.finished] at maps
    rcases effect.remaps.gained fileID maps with before | new
    · exact .inl before
    · exact .inr (List.mem_singleton.mp new)
  case uploads =>
    rw [completion.finished]
    change published.uploads.map _ = _
    rw [uploads, claimed, updateUpload, List.map_map]
    refine List.map_congr_left fun row _ => ?_
    simp only [Function.comp_apply, closedUpload]
    by_cases own : row.uploadID = request.uploadID
    · rw [if_pos own, if_pos own, if_pos own]
    · rw [if_neg own, if_neg own, if_neg own]
  case uploadParts =>
    rw [completion.finished]
    change published.uploadParts.map _ = _
    rw [rows]
  case deleteStates =>
    rw [completion.finished]
    change published.deleteStates.map _ = _
    rw [effect.deleteStates]
    rfl
  case kept =>
    intro part member active busy other
    have stillActive : published.uploadActive part.uploadID = true := by
      rw [uploadActive, uploads]
      obtain ⟨row, inRows, both⟩ := List.any_eq_true.mp busy
      obtain ⟨own, isActive⟩ := of_decide_eq_true both
      refine List.any_eq_true.mpr ⟨row, List.mem_map.mpr ⟨row, inRows, if_neg ?_⟩,
        decide_eq_true ⟨own, isActive⟩⟩
      rwa [own]
    constructor
    · exact notMem_of_handsOver effect.handed (rows ▸ member) active stillActive
    · refine notMem_of_handsOver handed ?_ active stillActive
      exact List.mem_map.mpr ⟨part, rows ▸ member, closeRow_other other⟩
  case given =>
    intro part member active own unselected apart unpinned inactive
    have inList : part.fileID ∈ published.listMultipartPartFileIDs request.uploadID :=
      mem_listMultipartPartFileIDs (rows ▸ member) own active
    rw [completion.finished] at apart unpinned inactive
    have before : { published with
        uploadParts := published.uploadParts.map
          (closeRow request.uploadID now (records.map Prod.fst)) }.Apart part.fileID :=
      apart.of_same rfl rfl rfl
    have dropped : part.fileID ∈ (published.listMultipartPartFileIDs request.uploadID).filter
        fun fileID => fileID ∉ (records.map Prod.fst).map MultipartPart.fileID := by
      refine List.mem_filter.mpr ⟨inList, decide_eq_true ?_⟩
      rw [List.map_map]
      exact unselected
    exact (handed.reached part.fileID dropped (before.unreferenced unpinned inactive)).own
      before.layout

/-! ## The tables after a completion -/

section
variable {request : CompleteMultipartRequest} {upload : MultipartUpload} {fingerprint : Text}
  {answer : CompleteMultipartResult} {records : List (MultipartPart × StoredFile)} {count : Int}
  {first second : List Nat}
  (closed : Closed now s s' request upload fingerprint answer records count first second)
  {part : MultipartPart} {fileID : Nat}

lemma exists_of_forall₂ {α β : Type} {R : α → β → Prop} {as : List α} {bs : List β}
    (related : List.Forall₂ R as bs) {a : α} (member : a ∈ as) : ∃ b ∈ bs, R a b := by
  induction related with
  | nil => cases member
  | cons first rest ih =>
    rcases List.mem_cons.mp member with rfl | later
    · exact ⟨_, List.mem_cons_self, first⟩
    · obtain ⟨b, inRest, holds⟩ := ih later
      exact ⟨b, List.mem_cons_of_mem _ inRest, holds⟩

/-- The File ids of the selected parts. -/
def selectedFiles (records : List (MultipartPart × StoredFile)) : List Nat :=
  records.map fun record => record.1.fileID

include closed

/-- A selected record is an active part of the upload. -/
lemma Closed.mem_records {record : MultipartPart × StoredFile} (member : record ∈ records) :
    record.1 ∈ s.uploadParts ∧ record.1.uploadID = request.uploadID ∧ record.1.state = .active := by
  obtain ⟨requested, -, chosen⟩ := exists_of_forall₂ closed.selected.flip member
  obtain ⟨inParts, own, -, active, -⟩ := activePart_ok chosen.found
  exact ⟨inParts, own, active⟩

lemma Closed.notMem_selectedFiles (tables : PartTables s) (member : part ∈ s.uploadParts)
    (other : part.uploadID ≠ request.uploadID ∨ part.state ≠ .active) :
    part.fileID ∉ selectedFiles records := by
  intro inFiles
  obtain ⟨record, inRecords, same⟩ := List.mem_map.mp inFiles
  obtain ⟨inParts, own, active⟩ := closed.mem_records inRecords
  rw [← tables.part_of_file inParts member same] at other
  exact other.elim (fun different => different own) fun different => different active

lemma Closed.readStoredFile_old {file : StoredFile} (found : s.readStoredFile fileID = some file) :
    s'.readStoredFile fileID = some file := by
  rw [readStoredFile] at found
  rw [readStoredFile, closed.files, List.find?_append, found, Option.some_or]

lemma Closed.apart (sound : Sound s) (apart : s.Apart fileID)
    (unselected : fileID ∉ selectedFiles records) : s'.Apart fileID := by
  have next := apart.lt_next sound
  constructor
  case stored =>
    obtain ⟨file, found, rest⟩ := apart.stored
    exact ⟨file, closed.readStoredFile_old found, rest⟩
  case unmapped =>
    rw [Bool.eq_false_iff]
    intro mapped
    rcases closed.maps fileID ((mapped_iff closed.valid).mp mapped) with before | new
    · rw [← mapped_iff sound.tree.valid, apart.unmapped] at before
      cases before
    · exact Nat.ne_of_lt next new
  case noSource =>
    intro segment member
    rw [closed.segments] at member
    rcases List.mem_append.mp member with old | new
    · exact apart.noSource segment old
    · obtain ⟨⟨source, index⟩, inSources, rfl⟩ := List.mem_map.mp new
      obtain ⟨record, inRecords, rfl⟩ := List.mem_map.mp (List.fst_mem_of_mem_zipIdx inSources)
      rintro rfl
      exact unselected (List.mem_map.mpr ⟨record, inRecords, rfl⟩)

lemma Closed.blocks {state : BlockState} :
    s'.BlocksIn fileID state ↔ ((s.markRows first now).markRows second now).BlocksIn
      fileID state := by
  have same : s'.blockStates fileID =
      ((s.markRows first now).markRows second now).blockStates fileID := by
    unfold blockStates filePartRows partDeleteStates
    rw [closed.parts, closed.deleteStates]
    rfl
  rw [BlocksIn, BlocksIn, same]

section
variable (tables : PartTables s)
include tables

/-- A selected part belongs to an upload that is there. -/
lemma Closed.exists_upload (member : part ∈ s.uploadParts)
    (own : part.uploadID = request.uploadID)
    (selected : (closeRow request.uploadID now (records.map Prod.fst) part).state = .selected) :
    ∃ row ∈ s.uploads, row.uploadID = request.uploadID := by
  have ofActive : ∀ row ∈ s.uploadParts, row.uploadID = request.uploadID → row.state = .active →
      ∃ row ∈ s.uploads, row.uploadID = request.uploadID := by
    intro row inRows same active
    obtain ⟨upload, inUploads, both⟩ := List.any_eq_true.mp (tables.busy row inRows active)
    exact ⟨upload, inUploads, (of_decide_eq_true both).1.trans same⟩
  cases state : part.state with
  | active => exact ofActive part member own state
  | selected =>
    obtain ⟨row, inRows, same, -⟩ := tables.settled part member state
    exact ⟨row, inRows, same.trans own⟩
  | discarded =>
    have notActive : part.state ≠ .active := by
      rw [state]
      decide
    rw [closeRow, if_neg fun both => notActive both.2, chooseRow] at selected
    split_ifs at selected with chosen
    · obtain ⟨-, -, row, inSelected, -⟩ := chosen
      obtain ⟨record, inRecords, rfl⟩ := List.mem_map.mp inSelected
      obtain ⟨inParts, same, active⟩ := closed.mem_records inRecords
      exact ofActive record.1 inParts same active
    · rw [state] at selected
      cases selected

lemma Closed.partTables (sound : Sound s') : PartTables s' := by
  have rows : ∀ part ∈ s'.uploadParts, part.state = .active →
      part ∈ s.uploadParts ∧ part.uploadID ≠ request.uploadID := by
    intro part member active
    rw [closed.uploadParts] at member
    obtain ⟨old, inOld, rfl⟩ := List.mem_map.mp member
    have other : old.uploadID ≠ request.uploadID := fun own => closeRow_state own active
    rw [closeRow_other other]
    exact ⟨inOld, other⟩
  constructor
  case sound => exact sound
  case pins => rw [closed.pins, tables.pins]
  case segments =>
    intro segment member
    rw [closed.segments] at member
    rw [closed.nextFileID]
    rcases List.mem_append.mp member with old | new
    · exact Nat.lt_succ_of_lt (tables.segments segment old)
    · obtain ⟨source, -, rfl⟩ := List.mem_map.mp new
      exact Nat.lt_succ_self _
  case ids =>
    rw [ids_of_update (closedUpload_update _ _ _ _) closed.uploads]
    exact tables.ids
  case parts =>
    rw [closed.uploadParts]
    refine pairwise_clash_map (fun row => ?_) tables.parts
    obtain ⟨upload, number, file, -⟩ := closeRow_ids request.uploadID now (records.map Prod.fst) row
    exact ⟨upload, number, file⟩
  case busy =>
    intro part member active
    obtain ⟨inOld, other⟩ := rows part member active
    rw [uploadActive_of_update (closedUpload_update _ _ _ _) closed.uploads other]
    exact tables.busy part inOld active
  case apart =>
    intro part member active
    obtain ⟨inOld, other⟩ := rows part member active
    exact closed.apart tables.sound (tables.apart part inOld active)
      (closed.notMem_selectedFiles tables inOld (.inl other))
  case live =>
    intro part member active
    obtain ⟨inOld, other⟩ := rows part member active
    obtain ⟨notFirst, notSecond⟩ :=
      closed.kept part inOld active (tables.busy part inOld active) other
    exact closed.blocks.mpr (((tables.live part inOld active).of_notMem notFirst).of_notMem
      notSecond)
  case settled =>
    intro part member selected
    rw [closed.uploadParts] at member
    obtain ⟨old, inOld, rfl⟩ := List.mem_map.mp member
    rw [(closeRow_ids _ _ _ old).1]
    by_cases own : old.uploadID = request.uploadID
    · obtain ⟨row, inRows, same⟩ := closed.exists_upload tables inOld own selected
      refine ⟨closedUpload request.uploadID now fingerprint answer row, ?_, ?_, ?_⟩
      · rw [closed.uploads]
        exact List.mem_map.mpr ⟨row, inRows, rfl⟩
      · rw [(closedUpload_update _ _ _ _ row).1, same, own]
      · rw [closedUpload, if_pos same]
        rfl
    · rw [closeRow_other own] at selected
      obtain ⟨row, inRows, same, completed⟩ := tables.settled old inOld selected
      refine ⟨row, ?_, same, completed⟩
      exact (mem_of_update (closedUpload_update _ _ _ _) closed.uploads (same ▸ own)).mpr inRows

lemma Closed.surrendered (surrendered : s.Surrendered fileID) : s'.Surrendered fileID := by
  have unselected : fileID ∉ selectedFiles records := by
    intro inFiles
    obtain ⟨record, inRecords, same⟩ := List.mem_map.mp inFiles
    obtain ⟨inParts, -, active⟩ := closed.mem_records inRecords
    rw [surrendered.discarded record.1 inParts same] at active
    cases active
  refine ⟨closed.apart tables.sound surrendered.apart unselected,
    closed.blocks.mpr surrendered.pending.pending_markRows.pending_markRows, ?_⟩
  intro part member own
  rw [closed.uploadParts] at member
  obtain ⟨old, inOld, rfl⟩ := List.mem_map.mp member
  rw [(closeRow_ids _ _ _ old).2.2.1] at own
  have discarded := surrendered.discarded old inOld own
  have notActive : old.state ≠ .active := by
    rw [discarded]
    decide
  rw [closeRow, if_neg fun both => notActive both.2, chooseRow, if_neg]
  · exact discarded
  · rintro ⟨-, -, part, inSelected, -, file⟩
    obtain ⟨record, inRecords, rfl⟩ := List.mem_map.mp inSelected
    exact unselected (List.mem_map.mpr ⟨record, inRecords, file.symm.trans own⟩)

/-- The File of an active part that was not selected is given up. -/
lemma Closed.unselected (member : part ∈ s.uploadParts)
    (own : part.uploadID = request.uploadID) (active : part.state = .active)
    (unselected : part.fileID ∉ selectedFiles records) : s'.Surrendered part.fileID := by
  have apart := closed.apart tables.sound (tables.apart part member active) unselected
  have discarded : ∀ row ∈ s'.uploadParts, row.fileID = part.fileID → row.state = .discarded := by
    intro row inRows same
    rw [closed.uploadParts] at inRows
    obtain ⟨old, inOld, rfl⟩ := List.mem_map.mp inRows
    rw [(closeRow_ids _ _ _ old).2.2.1] at same
    rw [tables.part_of_file inOld member same]
    refine closeRow_discarded own active ?_
    rw [List.map_map]
    exact unselected
  have inSecond : part.fileID ∈ second := by
    refine closed.given part member active own unselected apart ?_ fun row inRows same => ?_
    · rw [closed.pins, tables.pins]
    · rw [discarded row inRows same]
      decide
  refine ⟨apart, closed.blocks.mpr ?_, discarded⟩
  -- publishing may have handed the File over already
  by_cases early : part.fileID ∈ first
  · exact ((tables.live part member active).pending_of_hit early).pending_markRows
  · exact ((tables.live part member active).of_notMem early).pending_of_hit inSecond

lemma Closed.placed {own : Text} (placed : s.Placed own fileID) : s'.Placed own fileID := by
  rcases placed with ⟨part, member, rfl, rfl, kept⟩ | surrendered
  · by_cases lost : part.uploadID = request.uploadID ∧ part.state = .active ∧
        part.fileID ∉ selectedFiles records
    · exact .inr (closed.unselected tables member lost.1 lost.2.1 lost.2.2)
    · refine .inl ⟨closeRow request.uploadID now (records.map Prod.fst) part, ?_, ?_, ?_, ?_⟩
      · rw [closed.uploadParts]
        exact List.mem_map.mpr ⟨part, member, rfl⟩
      · exact (closeRow_ids _ _ _ part).1
      · exact (closeRow_ids _ _ _ part).2.2.1
      · by_cases mine : part.uploadID = request.uploadID
        · cases state : part.state with
          | discarded => exact absurd state kept
          | selected =>
            rw [closeRow_keeps state, state]
            decide
          | active =>
            have chosen : part.fileID ∈ selectedFiles records := by
              by_contra notChosen
              exact lost ⟨mine, state, notChosen⟩
            obtain ⟨record, inRecords, same⟩ := List.mem_map.mp chosen
            have isPart := tables.part_of_file (closed.mem_records inRecords).1 member same
            rw [closeRow_selected mine state (List.mem_map.mpr ⟨record, inRecords, isPart⟩)]
            decide
        · rw [closeRow_other mine]
          exact kept
  · exact .inr (closed.surrendered tables surrendered)

end

/-- The answers of other uploads stay. -/
lemma Closed.recorded_other {other : CompleteMultipartRequest} {result : CompleteMultipartResult}
    (recorded : Recorded env s other result) (different : other.uploadID ≠ request.uploadID) :
    Recorded env s' other result := by
  refine recorded.frame (readMultipartUpload_of_update
    (closedUpload_update _ _ _ _) closed.uploads different)
    (fun number => ?_) fun fileID file found => ⟨file, ?_, rfl⟩
  · unfold selectedPart
    rw [closed.uploadParts]
    refine find?_map_of_fixes (fun row _ => ?_) fun row _ found => ?_
    · obtain ⟨upload, number', -, -⟩ := closeRow_ids request.uploadID now (records.map Prod.fst) row
      by_cases mine : row.uploadID = request.uploadID
      · have notOther : row.uploadID ≠ other.uploadID :=
          fun same => different (same.symm.trans mine)
        rw [upload]
        simp [notOther]
      · rw [closeRow_other mine]
    · refine closeRow_other fun mine => different ?_
      exact (of_decide_eq_true found).1.symm.trans mine
  · exact closed.readStoredFile_old found

/-- The parts that a repeated request names are the selected ones. -/
lemma Closed.validateCompletedPartChecksums (tables : PartTables s) {row : MultipartUpload}
    (spec : multipartChecksumSpec row = .ok answer.checksum) :
    s'.validateCompletedPartChecksums row request = .ok () := by
  unfold Store.validateCompletedPartChecksums
  rw [spec]
  simp only [bind, Except.bind]
  by_cases legacy : answer.checksum = none
  · rw [if_pos legacy]
    rfl
  · rw [if_neg legacy]
    refine forM_of_forall fun requested member => ?_
    obtain ⟨record, inRecords, chosen⟩ := exists_of_forall₂ closed.selected member
    obtain ⟨inParts, own, number, active, -⟩ := activePart_ok chosen.found
    obtain ⟨upload', number', -, etag, value⟩ :=
      closeRow_ids request.uploadID now (records.map Prod.fst) record.1
    have isSelected : (closeRow request.uploadID now (records.map Prod.fst) record.1).state =
        .selected := closeRow_selected own active (List.mem_map.mpr ⟨record, inRecords, rfl⟩)
    have there : closeRow request.uploadID now
      (records.map Prod.fst) record.1 ∈ s'.uploadParts := by
      rw [closed.uploadParts]
      exact List.mem_map.mpr ⟨record.1, inParts, rfl⟩
    obtain ⟨row, found⟩ : ∃ row, s'.selectedPart request.uploadID requested.partNumber =
      some row := by
      refine Option.isSome_iff_exists.mp (List.find?_isSome.mpr ⟨_, there, decide_eq_true ?_⟩)
      exact ⟨upload'.trans own, number'.trans number, isSelected⟩
    -- there is only one row with this number
    have isRecord : row.etag = record.1.etag ∧ row.checksumValue = record.1.checksumValue := by
      obtain ⟨inRows, rowUpload, rowNumber⟩ := selectedPart_some found
      rw [closed.uploadParts] at inRows
      obtain ⟨old, inOld, rfl⟩ := List.mem_map.mp inRows
      obtain ⟨oldUpload, oldNumber, -⟩ :=
        closeRow_ids request.uploadID now (records.map Prod.fst) old
      rw [oldUpload] at rowUpload
      rw [oldNumber] at rowNumber
      rw [tables.part_of_number inOld inParts (rowUpload.trans own.symm)
        (rowNumber.trans number.symm)]
      exact ⟨etag, value⟩
    unfold selectedPart at found
    simp only [found, require_ok]
    refine ⟨isRecord.1.trans chosen.etag, ?_⟩
    rw [isRecord.2]
    refine chosen.agrees.resolve_left fun isNone => legacy ?_
    exact Option.isNone_iff_eq_none.mp isNone

lemma Closed.readStoredFile_new (sound : Sound s) : s'.readStoredFile answer.fileID =
    some ⟨s.nextFileID, answer.size, count, .ready, .composite, now, now⟩ := by
  have none : s.files.find? (fun file => file.fileID = answer.fileID) = none :=
    List.find?_eq_none.mpr fun file inFiles => by
      rw [closed.file]
      simpa using Nat.ne_of_lt (sound.bounded file inFiles)
  rw [readStoredFile, closed.files, List.find?_append, none, Option.none_or, closed.file]
  simp

/-- A completed upload answers the request that completed it. -/
lemma Closed.recorded_own (tables : PartTables s)
    (matched : s.matchedUpload request.uploadID request.bucket request.key = .ok upload)
    (valid : validateCompleteMultipartRequest request = .ok ())
    (checked : validateCompleteChecksumRequest env upload request = .ok ())
    (spec : multipartChecksumSpec upload = .ok answer.checksum)
    (sized : ∀ size ∈ request.expectedSize, size = answer.size)
    (final : validateFinalChecksum env upload request answer.checksumValue = .ok ())
    (print : fingerprint = multipartCompletionFingerprint env request.parts) :
    Recorded env s' request answer := by
  obtain ⟨found, member, own⟩ := matchedUpload_ok matched
  have stored := closed.readStoredFile_new tables.sound
  have read : s'.readMultipartUpload request.uploadID =
      some (closedUpload request.uploadID now fingerprint answer upload) := by
    rw [readMultipartUpload, closed.uploads, List.find?_map]
    have same : ((fun row : MultipartUpload => decide (row.uploadID = request.uploadID)) ∘
        closedUpload request.uploadID now fingerprint answer) =
        fun row => decide (row.uploadID = request.uploadID) := by
      funext row
      rw [Function.comp_apply, (closedUpload_update _ _ _ _ row).1]
    rw [same]
    rw [readMultipartUpload] at found
    rw [found, Option.map_some]
  have closedRow : closedUpload request.uploadID now fingerprint answer upload =
      completedUpload now fingerprint answer { upload with state := .completing, mtime := now } :=
    if_pos own
  rw [closedRow] at read
  have named : upload.bucket = request.bucket ∧ upload.key = request.key := by
    simp only [matchedUpload, found, bind_ok, require_ok] at matched
    exact matched.choose_spec.1
  refine ⟨valid, completedUpload now fingerprint answer
    { upload with state := .completing, mtime := now }, ?_, rfl, ?_⟩
  · unfold matchedUpload
    rw [read]
    simp only [bind_ok, require_ok]
    exact ⟨(), named, rfl⟩
  · have parts : s'.validateCompletedPartChecksums (completedUpload now fingerprint answer
        { upload with state := .completing, mtime := now }) request = .ok () :=
      closed.validateCompletedPartChecksums tables spec
    simp only [readCompletedMultipartResult, bind_ok, require_ok]
    refine ⟨(), print, ?_⟩
    have size : s'.readStoredFile (completedUpload now fingerprint answer
        { upload with state := .completing, mtime := now }).resultFileID = some _ := stored
    rw [size]
    simp only [bind_ok, require_ok, pure_ok]
    exact ⟨(), checked, (), sized, (), parts, (), final, answer.checksum, spec, rfl⟩

end

/-! ## Every call -/

lemma Tracked.complete {request : CompleteMultipartRequest} {answer : CompleteMultipartResult}
    {records : List (MultipartPart × StoredFile)} {count : Int}
    {checksums : List (Option (Text × Text))} {published closed : Store}
    (tracked : Tracked env s ledger) (path : ObjectPath)
    (located : path.text = objectPath request.bucket request.key)
    (matched : s.matchedUpload request.uploadID request.bucket request.key = .ok upload)
    (active : s.uploadActive request.uploadID = true)
    (valid : validateCompleteMultipartRequest request = .ok ())
    (checked : validateCompleteChecksumRequest env upload request = .ok ())
    (completion : Completion env now (s.claimed request.uploadID now) s' request upload
      (multipartCompletionFingerprint env request.parts) answer records count checksums published
      closed) (sound : Sound s') :
    Tracked env s' { ledger with
      published := request.uploadID :: ledger.published
      completions := (request, answer) :: ledger.completions } := by
  have tables := tracked.toPartTables
  obtain ⟨first, second, shut⟩ := completion.closed tables.sound path located
  have keeps : ∀ row ∈ s.uploads, row.state ≠ .active → row ∈ s'.uploads :=
    fun row member finished => (mem_of_update (closedUpload_update _ _ _ _) shut.uploads
      (tables.ne_of_finished member finished active)).mpr member
  refine ⟨shut.partTables tables sound, fun part member => ?_, tracked.files,
    fun entry member => shut.placed tables (tracked.placed entry member), ?_, fun id member => ?_,
    fun entry member => ?_⟩
  · rw [shut.uploadParts] at member
    obtain ⟨old, inOld, rfl⟩ := List.mem_map.mp member
    rw [(closeRow_ids _ _ _ old).2.2.1]
    exact tracked.listed old inOld
  · refine List.nodup_cons.mpr ⟨fun again => ?_, tracked.once⟩
    obtain ⟨row, inRows, own, completed⟩ := tracked.done _ again
    exact tables.ne_of_finished inRows (by rw [completed]; decide) active own
  · rcases List.mem_cons.mp member with rfl | earlier
    · obtain ⟨-, inUploads, own⟩ := matchedUpload_ok matched
      refine ⟨closedUpload request.uploadID now
        (multipartCompletionFingerprint env request.parts) answer upload, ?_, ?_, ?_⟩
      · rw [shut.uploads]
        exact List.mem_map.mpr ⟨upload, inUploads, rfl⟩
      · exact (closedUpload_update _ _ _ _ upload).1.trans own
      · rw [closedUpload, if_pos own]
        rfl
    · obtain ⟨row, inRows, own, completed⟩ := tracked.done id earlier
      exact ⟨row, keeps row inRows (by rw [completed]; decide), own, completed⟩
  · rcases List.mem_cons.mp member with rfl | earlier
    · exact shut.recorded_own tables matched valid checked completion.spec completion.sized
        completion.final rfl
    · have recorded := tracked.recorded entry earlier
      exact shut.recorded_other recorded (recorded.ne_active tables active)

lemma Tracked.prune (tracked : Tracked env s ledger) : Tracked env s (ledger.prune s) where
  toPartTables := tracked.toPartTables
  listed := tracked.listed
  files entry member := tracked.files entry (List.mem_filter.mp member).1
  placed entry member := tracked.placed entry (List.mem_filter.mp member).1
  once := tracked.once.sublist List.filter_sublist
  done id member := tracked.done id (List.mem_filter.mp member).1
  recorded entry member := tracked.recorded entry (List.mem_filter.mp member).1

lemma uploadActive_of_matched {bucket key : Text}
    (matched : s.matchedUpload uploadID bucket key = .ok upload) (active : upload.state = .active) :
    s.uploadActive uploadID = true := by
  obtain ⟨-, member, own⟩ := matchedUpload_ok matched
  exact List.any_eq_true.mpr ⟨upload, member, decide_eq_true ⟨own, active⟩⟩

lemma uploadActive_of_completed {bucket key : Text} (tables : PartTables s)
    (matched : s.matchedUpload uploadID bucket key = .ok upload)
    (completed : upload.state = .completed) : s.uploadActive uploadID = false := by
  obtain ⟨-, member, own⟩ := matchedUpload_ok matched
  rw [Bool.eq_false_iff]
  exact fun active => tables.ne_of_finished member (by rw [completed]; decide) active own

lemma call_ok (run : request.run env now s = .ok s') : s.call env now request = s' := by
  rw [call, run]

lemma call_error {err : Err} (run : request.run env now s = .error err) :
    s.call env now request = s := by
  rw [call, run]

/-- The invariant survives every call. -/
lemma Tracked.call (tracked : Tracked env s ledger) (now : Int) (own : OwnCall s ledger request) :
    Tracked env (s.call env now request)
      ((ledger.note env now s request).prune (s.call env now request)) := by
  have tables := tracked.toPartTables
  have sound : ∀ {s'}, request.run env now s = .ok s' → Sound s' := fun run =>
    S3Request.sound tables.sound run
  cases request with
  | publish => exact own.elim
  | copy => exact own.elim
  | delete => exact own.elim
  | createUpload create uploadID =>
    cases run : (S3Request.createUpload create uploadID).run env now s with
    | error err =>
      rw [call_error run]
      exact tracked.prune
    | ok s' =>
      rw [call_ok run]
      exact (tracked.create run (sound run)).prune
  | inspectUpload uploadID bucket key =>
    cases run : (S3Request.inspectUpload uploadID bucket key).run env now s with
    | error err =>
      rw [call_error run]
      exact tracked.prune
    | ok s' =>
      rw [call_ok run]
      obtain ⟨⟨_, upload, expired⟩, inspected, rfl⟩ := map_ok.mp run
      rcases ensureActiveMultipartUpload_ok inspected with ⟨rfl, -⟩ | ⟨-, expires⟩
      · exact tracked.prune
      · exact (tracked.abort expires.abortsActive (sound run)).prune
  | abort uploadID bucket key =>
    cases run : (S3Request.abort uploadID bucket key).run env now s with
    | error err =>
      rw [call_error run]
      exact tracked.prune
    | ok s' =>
      rw [call_ok run]
      rcases abortMultipartUpload_ok run with rfl | aborts
      · exact tracked.prune
      · exact (tracked.abort aborts (sound run)).prune
  | expire limit =>
    cases run : (S3Request.expire limit).run env now s with
    | error err =>
      rw [call_error run]
      exact tracked.prune
    | ok s' =>
      rw [call_ok run]
      refine (processExpiredMultipartUploads_rule (fun t => Tracked env t ledger) ?_ tracked
        run).prune
      intro t t' uploadID inv aborts
      exact inv.abort aborts ((samePlaces_of_sameTree aborts.aborts.sameTree).sound inv.sound)
  | purgeControl limit => exact tracked.purge (sound rfl)
  | putPart part =>
    cases put : s.putMultipartPart env now part with
    | error err =>
      have run : (S3Request.putPart part).run env now s = .error err := by
        rw [S3Request.run, put]
        rfl
      simp only [call_error run, Ledger.note, put]
      exact tracked.prune
    | ok result =>
      obtain ⟨s', expired⟩ := result
      have run : (S3Request.putPart part).run env now s = .ok s' := map_ok.mpr ⟨_, put, rfl⟩
      rw [call_ok run]
      rcases putMultipartPart_ok put with ⟨rfl, expires⟩ |
        ⟨rfl, file, rows, lost, hit, active, staged, stores, rfl, handed⟩
      · have unchanged : ledger.note env now s (.putPart part) = ledger := by
          simp only [Ledger.note, put]
        rw [unchanged]
        exact (tracked.abort expires.abortsActive (sound run)).prune
      · simp only [Ledger.note, put]
        exact (tracked.put own.1 own.2 active staged stores handed (sound run)).prune
  | complete completion path located =>
    cases completed : s.completeMultipartUpload env now completion with
    | error err =>
      have run : (S3Request.complete completion path located).run env now s = .error err := by
        rw [S3Request.run, completed]
        rfl
      simp only [call_error run, Ledger.note, completed]
      exact tracked.prune
    | ok result =>
      obtain ⟨s', result⟩ := result
      have run : (S3Request.complete completion path located).run env now s = .ok s' :=
        map_ok.mpr ⟨_, completed, rfl⟩
      rw [call_ok run]
      obtain ⟨upload, matched, valid, repeated | ⟨rfl, expires⟩ | fresh⟩ :=
        completeMultipartUpload_cases completed
      · obtain ⟨answer, done, rfl, rfl, read⟩ := repeated
        simp only [Ledger.note, completed, uploadActive_of_completed tables matched done,
          Bool.false_eq_true, if_false]
        refine Tracked.prune { tracked with recorded := fun entry member => ?_ }
        rcases List.mem_cons.mp member with rfl | earlier
        · exact ⟨valid, upload, matched, done, read⟩
        · exact tracked.recorded entry earlier
      · have unchanged : ledger.note env now s (.complete completion path located) = ledger := by
          simp only [Ledger.note, completed]
        rw [unchanged]
        exact (tracked.abort expires.abortsActive (sound run)).prune
      · obtain ⟨answer, records, count, checksums, published, closed, active, rfl, checked,
          whole⟩ := fresh
        have isActive := uploadActive_of_matched matched active
        simp only [Ledger.note, completed, isActive, if_true]
        exact (tracked.complete path located matched isActive valid checked whole (sound run)).prune

end TgFile.Store
