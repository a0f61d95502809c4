import TgFile.S3.Ledger
import Mathlib.Data.List.Pairwise

/-! # The life of a multipart upload

An upload is published at most once, ends completed or aborted and stays so until its record goes.
A completion that is repeated gets the same answer.  A File that was staged is a segment of the
published object, or the File of an active part, or it has no reference and waits for the
worker. -/

namespace TgFile.Store

open Go Result S3

variable {env : Env} {s s' : Store} {now : Int} {ledger : Ledger}
  {request : CompleteMultipartRequest} {answer : CompleteMultipartResult} {uploadID : Text}
  {row : MultipartUpload} {part : MultipartPart} {hit : List Nat} {fileID limit : Nat}

/-! ## Rows of the tables -/

lemma find?_map_of_fixes {α : Type} {rows : List α} {p : α → Bool} {f : α → α}
    (same : ∀ row ∈ rows, p (f row) = p row) (fixed : ∀ row ∈ rows, p row = true → f row = row) :
    (rows.map f).find? p = rows.find? p := by
  induction rows with
  | nil => rfl
  | cons row rows ih =>
    have later := ih (fun other member => same other (List.mem_cons_of_mem _ member))
      fun other member => fixed other (List.mem_cons_of_mem _ member)
    rw [List.map_cons, List.find?_cons, List.find?_cons, same row List.mem_cons_self, later]
    cases hit : p row with
    | true => rw [fixed row List.mem_cons_self hit]
    | false => rfl

/-- A completed upload answers a repeated request. -/
def Recorded (env : Env) (s : Store) (request : CompleteMultipartRequest)
    (answer : CompleteMultipartResult) : Prop :=
  validateCompleteMultipartRequest request = .ok () ∧
    ∃ upload, s.matchedUpload request.uploadID request.bucket request.key = .ok upload ∧
      upload.state = .completed ∧ s.readCompletedMultipartResult env upload request
        (multipartCompletionFingerprint env request.parts) = .ok answer

lemma Recorded.answers (recorded : Recorded env s request answer) (now : Int) :
    s.completeMultipartUpload env now request = .ok (s, some answer) := by
  obtain ⟨valid, upload, matched, completed, read⟩ := recorded
  simp only [completeMultipartUpload, valid, matched, completed, read, bind, Except.bind]
  rfl

/-- The selected part with a number. -/
def selectedPart (s : Store) (uploadID : Text) (number : Nat) : Option MultipartPart :=
  s.uploadParts.find? fun part => part.uploadID = uploadID ∧ part.partNumber = number ∧
    part.state = .selected

lemma selectedPart_some {number : Nat} {row : MultipartPart}
    (found : s.selectedPart uploadID number = some row) :
    row ∈ s.uploadParts ∧ row.uploadID = uploadID ∧ row.partNumber = number := by
  unfold selectedPart at found
  have holds := List.find?_some found
  simp only [decide_eq_true_eq] at holds
  exact ⟨List.mem_of_find?_eq_some found, holds.1, holds.2.1⟩

/-- The answer depends on the upload, its selected parts and the size of the File. -/
lemma Recorded.frame (recorded : Recorded env s request answer)
    (uploads : s'.readMultipartUpload request.uploadID = s.readMultipartUpload request.uploadID)
    (parts : ∀ number, s'.selectedPart request.uploadID number =
      s.selectedPart request.uploadID number)
    (files : ∀ fileID file, s.readStoredFile fileID = some file →
      ∃ file', s'.readStoredFile fileID = some file' ∧ file'.fileSize = file.fileSize) :
    Recorded env s' request answer := by
  obtain ⟨valid, upload, matched, completed, read⟩ := recorded
  refine ⟨valid, upload, ?_, completed, ?_⟩
  · unfold matchedUpload at matched ⊢
    rwa [uploads]
  · have checks : s'.validateCompletedPartChecksums upload request =
        s.validateCompletedPartChecksums upload request := by
      unfold validateCompletedPartChecksums
      unfold selectedPart at parts
      simp only [parts]
    unfold readCompletedMultipartResult at read ⊢
    cases found : s.readStoredFile upload.resultFileID with
    | none =>
      rw [found] at read
      obtain ⟨_, -, rest⟩ := bind_ok.mp read
      cases rest
    | some file =>
      obtain ⟨file', found', size⟩ := files _ _ found
      rw [found] at read
      simp only [found', checks, size]
      exact read

/-! ## The invariant -/

/-- Where a staged File is: a part holds it, or it was handed over. -/
def Placed (s : Store) (uploadID : Text) (fileID : Nat) : Prop :=
  (∃ part ∈ s.uploadParts, part.uploadID = uploadID ∧ part.fileID = fileID ∧
    part.state ≠ .discarded) ∨ s.Surrendered fileID

/-- The tables of uploads and parts. -/
structure PartTables (s : Store) : Prop where
  sound : Sound s
  pins : s.pins = []
  segments : ∀ segment ∈ s.segments, segment.fileID < s.nextFileID
  ids : (s.uploads.map MultipartUpload.uploadID).Nodup
  parts : s.uploadParts.Pairwise fun a b => a.clash b = false
  busy : ∀ part ∈ s.uploadParts, part.state = .active → s.uploadActive part.uploadID = true
  apart : ∀ part ∈ s.uploadParts, part.state = .active → s.Apart part.fileID
  live : ∀ part ∈ s.uploadParts, part.state = .active → s.BlocksIn part.fileID .live
  settled : ∀ part ∈ s.uploadParts, part.state = .selected →
    ∃ row ∈ s.uploads, row.uploadID = part.uploadID ∧ row.state = .completed

/-- What holds of the store and the ledger in every run. -/
structure Tracked (env : Env) (s : Store) (ledger : Ledger) : Prop extends PartTables s where
  listed : ∀ part ∈ s.uploadParts, part.fileID ∈ ledger.files
  files : ∀ entry ∈ ledger.staged, entry.2 ∈ ledger.files
  placed : ∀ entry ∈ ledger.staged, s.Placed entry.1 entry.2
  once : ledger.published.Nodup
  done : ∀ uploadID ∈ ledger.published,
    ∃ row ∈ s.uploads, row.uploadID = uploadID ∧ row.state = .completed
  recorded : ∀ entry ∈ ledger.completions, Recorded env s entry.1 entry.2

lemma partClash_comm (a b : MultipartPart) : a.clash b = b.clash a := by
  simp only [MultipartPart.clash]
  congr 1
  simp only [eq_comm]

namespace PartTables

variable (tables : PartTables s) {a b : MultipartPart}
include tables

section
variable (inA : a ∈ s.uploadParts) (inB : b ∈ s.uploadParts)
include inA inB

/-- A row is determined by its File. -/
lemma part_ext (clash : a.clash b = true) : a = b := by
  by_contra different
  have symmetric : Std.Symm fun a b : MultipartPart => a.clash b = false :=
    ⟨fun a b free => (partClash_comm b a).trans free⟩
  rw [tables.parts.forall inA inB different] at clash
  cases clash

lemma part_of_file (same : a.fileID = b.fileID) : a = b :=
  tables.part_ext inA inB (decide_eq_true (.inr same))

lemma part_of_number
    (upload : a.uploadID = b.uploadID) (number : a.partNumber = b.partNumber) : a = b :=
  tables.part_ext inA inB (decide_eq_true (.inl ⟨upload, number⟩))

end

/-- An active upload has no finished row. -/
lemma ne_of_finished (member : row ∈ s.uploads) (finished : row.state ≠ .active)
    (active : s.uploadActive uploadID = true) : row.uploadID ≠ uploadID := by
  rintro rfl
  obtain ⟨other, inOther, both⟩ := List.any_eq_true.mp active
  obtain ⟨same, isActive⟩ := of_decide_eq_true both
  rw [List.inj_on_of_nodup_map tables.ids inOther member same] at isActive
  exact finished isActive

end PartTables

/-! ## Updates of rows -/

/-- An update of the rows of one upload keeps their ids. -/
def RowUpdate (uploadID : Text) (f : MultipartUpload → MultipartUpload) : Prop :=
  ∀ row, (f row).uploadID = row.uploadID ∧ (row.uploadID ≠ uploadID → f row = row)

section
variable {uploadID : Text} {f : MultipartUpload → MultipartUpload}
  (update : RowUpdate uploadID f) (uploads : s'.uploads = s.uploads.map f)
include update uploads

lemma ids_of_update : s'.uploads.map MultipartUpload.uploadID =
    s.uploads.map MultipartUpload.uploadID := by
  rw [uploads, List.map_map]
  exact List.map_congr_left fun row _ => (update row).1

lemma mem_of_update (other : row.uploadID ≠ uploadID) : row ∈ s'.uploads ↔ row ∈ s.uploads := by
  rw [uploads, List.mem_map]
  constructor
  · rintro ⟨old, member, rfl⟩
    rw [(update old).1] at other
    rwa [(update old).2 other]
  · intro member
    exact ⟨row, member, (update row).2 other⟩

lemma uploadActive_of_update {other : Text} (different : other ≠ uploadID) :
    s'.uploadActive other = s.uploadActive other := by
  rw [Bool.eq_iff_iff, uploadActive, uploadActive, List.any_eq_true, List.any_eq_true]
  simp only [decide_eq_true_eq]
  constructor
  · rintro ⟨row, member, rfl, active⟩
    exact ⟨row, (mem_of_update update uploads different).mp member, rfl, active⟩
  · rintro ⟨row, member, rfl, active⟩
    exact ⟨row, (mem_of_update update uploads different).mpr member, rfl, active⟩

lemma readMultipartUpload_of_update {other : Text} (different : other ≠ uploadID) :
    s'.readMultipartUpload other = s.readMultipartUpload other := by
  rw [readMultipartUpload, readMultipartUpload, uploads]
  refine find?_map_of_fixes (fun row _ => ?_) fun row _ same => ?_
  · rw [(update row).1]
  · exact (update row).2 (of_decide_eq_true same ▸ different)

end

/-- Rows of parts that keep their ids do not clash. -/
lemma pairwise_clash_map {rows : List MultipartPart} {f : MultipartPart → MultipartPart}
    (same : ∀ row, (f row).uploadID = row.uploadID ∧ (f row).partNumber = row.partNumber ∧
      (f row).fileID = row.fileID) (apart : rows.Pairwise fun a b => a.clash b = false) :
    (rows.map f).Pairwise fun a b => a.clash b = false := by
  refine List.pairwise_map.mpr (apart.imp fun {a b} free => ?_)
  obtain ⟨upload, number, file⟩ := same a
  obtain ⟨upload', number', file'⟩ := same b
  rw [MultipartPart.clash, upload, number, file, upload', number', file']
  exact free

/-! ## Aborting -/

/-- A part row after an abort. -/
def discardRow (uploadID : Text) (now : Int) (row : MultipartPart) : MultipartPart :=
  if row.uploadID = uploadID ∧ row.state = .active then
    { row with state := .discarded, mtime := now }
  else row

lemma discardRow_ids (uploadID : Text) (now : Int) (row : MultipartPart) :
    (discardRow uploadID now row).uploadID = row.uploadID ∧
      (discardRow uploadID now row).partNumber = row.partNumber ∧
      (discardRow uploadID now row).fileID = row.fileID := by
  unfold discardRow
  split_ifs <;> exact ⟨rfl, rfl, rfl⟩

/-- A row that is active after an abort is another upload's. -/
lemma discardRow_active {row : MultipartPart}
    (active : (discardRow uploadID now row).state = .active) :
    discardRow uploadID now row = row ∧ row.uploadID ≠ uploadID := by
  unfold discardRow at active ⊢
  split_ifs at active ⊢ with hit
  exact ⟨rfl, fun same => hit ⟨same, active⟩⟩

lemma discardRow_selected {row : MultipartPart}
    (selected : (discardRow uploadID now row).state = .selected) :
    discardRow uploadID now row = row ∧ row.state = .selected := by
  unfold discardRow at selected ⊢
  split_ifs at selected ⊢
  exact ⟨rfl, selected⟩

/-- The row of an aborted upload. -/
def abortedUpload (uploadID : Text) (now : Int) (row : MultipartUpload) : MultipartUpload :=
  if row.uploadID = uploadID then
    { row with state := .aborted, cleanupAt := now + multipartDay, mtime := now }
  else row

lemma abortedUpload_update (uploadID : Text) (now : Int) :
    RowUpdate uploadID (abortedUpload uploadID now) := by
  intro row
  unfold abortedUpload
  split_ifs with own
  · exact ⟨rfl, fun other => absurd own other⟩
  · exact ⟨rfl, fun _ => rfl⟩

lemma AbortsActive.tables (aborts : AbortsActive now s s' uploadID) :
    ∃ hit, s' = { s with
          uploads := s.uploads.map (abortedUpload uploadID now)
          uploadParts := s.uploadParts.map (discardRow uploadID now) }.markRows hit now ∧
      { s with
        uploads := s.uploads.map (abortedUpload uploadID now)
        uploadParts := s.uploadParts.map (discardRow uploadID now) }.HandsOver
          (s.listMultipartPartFileIDs uploadID) hit :=
  aborts.aborts

lemma mem_listMultipartPartFileIDs (member : part ∈ s.uploadParts)
    (own : part.uploadID = uploadID) (active : part.state = .active) :
    part.fileID ∈ s.listMultipartPartFileIDs uploadID :=
  List.mem_map.mpr ⟨part, Sqlite.mem_orderBy.mpr
    (List.mem_filter.mpr ⟨member, decide_eq_true ⟨own, active⟩⟩), rfl⟩

lemma uploadActive_discarded (tables : PartTables s) (member : part ∈ s.uploadParts)
    (active : part.state = .active) (other : part.uploadID ≠ uploadID)
    (uploads : s'.uploads = s.uploads.map (abortedUpload uploadID now)) :
    s'.uploadActive part.uploadID = true := by
  rw [uploadActive_of_update (abortedUpload_update uploadID now) uploads other]
  exact tables.busy part member active

/-- A part of another upload keeps its File. -/
lemma notMem_of_handsOver {t : Store} {fileIDs : List Nat} (handed : t.HandsOver fileIDs hit)
    (member : part ∈ t.uploadParts) (active : part.state = .active)
    (upload : t.uploadActive part.uploadID = true) :
    part.fileID ∉ hit := fun inHit => by
  have free := handed.unreferenced part.fileID inHit
  rw [fileHasLiveReference_of_part member active upload] at free
  cases free

/-- A row of a finished upload stays. -/
lemma AbortsActive.keeps (tables : PartTables s) (aborts : AbortsActive now s s' uploadID)
    (member : row ∈ s.uploads) (finished : row.state ≠ .active) : row ∈ s'.uploads := by
  have other := tables.ne_of_finished member finished aborts.active
  obtain ⟨hit, rfl, -⟩ := aborts.tables
  exact (mem_of_update (abortedUpload_update uploadID now) rfl other).mpr member

lemma PartTables.abort (tables : PartTables s) (aborts : AbortsActive now s s' uploadID)
    (sound : Sound s') : PartTables s' := by
  have kept : ∀ row ∈ s.uploads, row.state ≠ .active → row ∈ s'.uploads :=
    fun _ => aborts.keeps tables
  obtain ⟨hit, rfl, handed⟩ := aborts.tables
  have update := abortedUpload_update uploadID now
  have rows : ∀ part ∈ s.uploadParts.map (discardRow uploadID now), part.state = .active →
      part ∈ s.uploadParts ∧ part.uploadID ≠ uploadID := by
    intro part member active
    obtain ⟨old, inOld, rfl⟩ := List.mem_map.mp member
    obtain ⟨same, other⟩ := discardRow_active active
    rw [same]
    exact ⟨inOld, other⟩
  constructor
  case sound => exact sound
  case pins => exact tables.pins
  case segments => exact tables.segments
  case ids =>
    rw [ids_of_update update rfl]
    exact tables.ids
  case parts => exact pairwise_clash_map (discardRow_ids uploadID now) tables.parts
  case busy =>
    intro part member active
    obtain ⟨inOld, other⟩ := rows part member active
    exact uploadActive_discarded tables inOld active other rfl
  case apart =>
    intro part member active
    exact (tables.apart part (rows part member active).1 active).of_same rfl rfl rfl
  case live =>
    intro part member active
    obtain ⟨inOld, other⟩ := rows part member active
    have notHit := notMem_of_handsOver handed member active
      (uploadActive_discarded tables inOld active other rfl)
    have live := tables.live part inOld active
    exact BlocksIn.of_notMem (by exact live) notHit
  case settled =>
    intro part member selected
    obtain ⟨old, inOld, rfl⟩ := List.mem_map.mp member
    obtain ⟨same, -⟩ := discardRow_selected selected
    rw [same] at selected ⊢
    obtain ⟨row, inRows, own, completed⟩ := tables.settled old inOld selected
    exact ⟨row, kept row inRows (by rw [completed]; decide), own, completed⟩

lemma Surrendered.of_discarded {t : Store} {fileIDs : List Nat} (apart : t.Apart fileID)
    (unpinned : t.pins = []) (live : t.BlocksIn fileID .live)
    (discarded : ∀ part ∈ t.uploadParts, part.fileID = fileID → part.state = .discarded)
    (handed : t.HandsOver fileIDs hit) (member : fileID ∈ fileIDs) :
    (t.markRows hit now).Surrendered fileID := by
  have free : t.fileHasLiveReference fileID = false :=
    apart.unreferenced unpinned fun part inParts own => by
      rw [discarded part inParts own]
      decide
  have inHit : fileID ∈ hit := (handed.reached fileID member free).own apart.layout
  exact ⟨apart.of_same rfl rfl rfl, live.pending_of_hit inHit, discarded⟩

lemma Surrendered.markRows (surrendered : s.Surrendered fileID) :
    (s.markRows hit now).Surrendered fileID :=
  ⟨surrendered.apart.of_same rfl rfl rfl, surrendered.pending.pending_markRows,
    surrendered.discarded⟩

lemma Placed.abort {own : Text} (tables : PartTables s) (placed : s.Placed own fileID)
    (aborts : AbortsActive now s s' uploadID) : s'.Placed own fileID := by
  obtain ⟨hit, rfl, handed⟩ := aborts.tables
  rcases placed with ⟨part, member, rfl, rfl, kept⟩ | surrendered
  · by_cases lost : part.uploadID = uploadID ∧ part.state = .active
    · refine .inr (Surrendered.of_discarded ((tables.apart part member lost.2).of_same rfl rfl rfl)
        tables.pins (by exact tables.live part member lost.2) ?_ handed
        (mem_listMultipartPartFileIDs member lost.1 lost.2))
      intro row inRows same
      obtain ⟨old, inOld, rfl⟩ := List.mem_map.mp inRows
      rw [(discardRow_ids uploadID now old).2.2] at same
      rw [tables.part_of_file inOld member same, discardRow, if_pos lost]
    · refine .inl ⟨part, ?_, rfl, rfl, kept⟩
      exact List.mem_map.mpr ⟨part, member, if_neg lost⟩
  · refine .inr (Surrendered.markRows ⟨surrendered.apart.of_same rfl rfl rfl,
      surrendered.pending, ?_⟩)
    intro row inRows same
    obtain ⟨old, inOld, rfl⟩ := List.mem_map.mp inRows
    rw [(discardRow_ids uploadID now old).2.2] at same
    have discarded := surrendered.discarded old inOld same
    rw [discardRow, if_neg]
    · exact discarded
    · rintro ⟨-, active⟩
      rw [discarded] at active
      cases active

lemma Recorded.ne_active (tables : PartTables s) (recorded : Recorded env s request answer)
    (active : s.uploadActive uploadID = true) : request.uploadID ≠ uploadID := by
  obtain ⟨-, upload, matched, completed, -⟩ := recorded
  obtain ⟨-, member, same⟩ := matchedUpload_ok matched
  rw [← same]
  exact tables.ne_of_finished member (by rw [completed]; decide) active

lemma Recorded.abort (tables : PartTables s) (recorded : Recorded env s request answer)
    (aborts : AbortsActive now s s' uploadID) : Recorded env s' request answer := by
  have other := recorded.ne_active tables aborts.active
  obtain ⟨hit, rfl, -⟩ := aborts.tables
  refine recorded.frame
    (readMultipartUpload_of_update (abortedUpload_update uploadID now) rfl other)
    (fun number => ?_) fun fileID file found => ⟨file, found, rfl⟩
  refine find?_map_of_fixes (fun row _ => ?_) fun row _ found => ?_
  · unfold discardRow
    split_ifs with hit
    · simp [hit.2]
    · rfl
  · have own := (of_decide_eq_true found).1
    exact if_neg fun hit => other (own.symm.trans hit.1)

lemma Tracked.abort (tracked : Tracked env s ledger) (aborts : AbortsActive now s s' uploadID)
    (sound : Sound s') : Tracked env s' ledger where
  toPartTables := tracked.toPartTables.abort aborts sound
  listed := by
    obtain ⟨hit, rfl, -⟩ := aborts.tables
    intro part member
    obtain ⟨old, inOld, rfl⟩ := List.mem_map.mp member
    rw [(discardRow_ids uploadID now old).2.2]
    exact tracked.listed old inOld
  files := tracked.files
  placed entry member := (tracked.placed entry member).abort tracked.toPartTables aborts
  once := tracked.once
  done id member := by
    obtain ⟨row, inRows, own, completed⟩ := tracked.done id member
    exact ⟨row, aborts.keeps tracked.toPartTables inRows
      (by rw [completed]; decide), own, completed⟩
  recorded entry member := (tracked.recorded entry member).abort tracked.toPartTables aborts

/-! ## Creating an upload -/

lemma Tracked.create {request : CreateMultipartRequest} (tracked : Tracked env s ledger)
    (run : s.createMultipartUpload now request uploadID = .ok s') (sound : Sound s') :
    Tracked env s' ledger := by
  obtain ⟨upload, own, -, -, free, rfl⟩ := createMultipartUpload_ok run
  have stays : ∀ id, s.uploadActive id = true →
      { s with uploads := s.uploads ++ [upload] }.uploadActive id = true := fun id active => by
    change (s.uploads ++ [upload]).any _ = true
    rw [List.any_append]
    exact Bool.or_eq_true_iff.mpr (.inl active)
  refine ⟨⟨sound, tracked.pins, tracked.segments, ?_, tracked.parts,
    fun part member active => stays _ (tracked.busy part member active),
    fun part member active => (tracked.apart part member active).of_same rfl rfl rfl,
    tracked.live, fun part member selected => ?_⟩, tracked.listed, tracked.files, ?_,
    tracked.once, ?_, ?_⟩
  · change ((s.uploads ++ [upload]).map MultipartUpload.uploadID).Nodup
    rw [List.map_append]
    refine tracked.ids.append (List.nodup_singleton _) fun id member same => ?_
    obtain ⟨other, inside, rfl⟩ := List.mem_map.mp member
    exact free other inside ((List.mem_singleton.mp same).trans own)
  · obtain ⟨row, inRows, same, completed⟩ := tracked.settled part member selected
    exact ⟨row, List.mem_append_left _ inRows, same, completed⟩
  · intro entry member
    rcases tracked.placed entry member with held | surrendered
    · exact .inl held
    · exact .inr ⟨surrendered.apart.of_same rfl rfl rfl, surrendered.pending, surrendered.discarded⟩
  · intro id member
    obtain ⟨row, inRows, same, completed⟩ := tracked.done id member
    exact ⟨row, List.mem_append_left _ inRows, same, completed⟩
  · intro entry member
    have recorded := tracked.recorded entry member
    obtain ⟨-, row, matched, -⟩ := id recorded
    refine recorded.frame ?_ (fun _ => rfl) fun fileID file found => ⟨file, found, rfl⟩
    obtain ⟨found, -⟩ := matchedUpload_ok matched
    unfold readMultipartUpload at found ⊢
    rw [List.find?_append, found, Option.some_or]

/-! ## Staging a part -/

lemma validateMultipartStagingFile_ok {size : Int} {file : StoredFile}
    (run : s.validateMultipartStagingFile fileID size = .ok file) :
    s.readStoredFile fileID = some file ∧ file.fileState = .ready ∧
      file.fileLayout = .physical ∧ file.fileSize = size ∧ s.BlocksIn fileID .live ∧
      s.mapped fileID = false := by
  unfold validateMultipartStagingFile at run
  cases found : s.readStoredFile fileID with
  | none =>
    rw [found] at run
    cases run
  | some stored =>
    simp only [found, bind_ok, require_ok, pure_ok, ensureMultipartStagingFileLive] at run
    obtain ⟨_, ⟨ready, physical, same⟩, _, ⟨-, -, live⟩, _, unmapped, rfl⟩ := run
    exact ⟨rfl, ready, physical, same, live, unmapped⟩

section
variable {request : PutMultipartPartRequest} {rows : List MultipartPart} {lost : List Nat}

/-- The rows after a part was stored: the new one, and the old ones whose File is kept. -/
lemma StoresPart.mem_cases (tables : PartTables s) (stores : StoresPart now s request rows lost)
    (member : part ∈ rows) :
    (part ∈ s.uploadParts ∧ part.fileID ∉ lost) ∨
      (part.uploadID = request.uploadID ∧ part.fileID = request.fileID ∧
        part.state = .active) := by
  cases stores with
  | inserted row upload file active free =>
    rcases List.mem_append.mp member with old | new
    · exact .inl ⟨old, List.not_mem_nil⟩
    · rw [List.mem_singleton.mp new]
      exact .inr ⟨upload, file, active⟩
  | replaced old inOld hit rows update =>
    rw [Sqlite.updateRows_ok update, List.nil_append] at member
    obtain ⟨row, inRows, rfl⟩ := List.mem_map.mp member
    by_cases replaced : request.replaces row = true
    · rw [if_pos replaced]
      obtain ⟨upload, -, active⟩ := of_decide_eq_true replaced
      exact .inr ⟨upload, rfl, active⟩
    · rw [if_neg replaced]
      refine .inl ⟨inRows, fun inLost => replaced ?_⟩
      split_ifs at inLost
      · rw [tables.part_of_file inRows inOld (List.mem_singleton.mp inLost)]
        exact hit
      · cases inLost

lemma StoresPart.exists_new (stores : StoresPart now s request rows lost) :
    ∃ part ∈ rows, part.uploadID = request.uploadID ∧ part.fileID = request.fileID ∧
      part.state = .active := by
  cases stores with
  | inserted row upload file active free =>
    exact ⟨row, List.mem_append_right _ List.mem_cons_self, upload, file, active⟩
  | replaced old inOld hit rows update =>
    obtain ⟨upload, -, active⟩ := of_decide_eq_true hit
    refine ⟨{ old with
      fileID := request.fileID, partSize := request.size, etag := request.etag,
      checksumValue := request.checksumValue, uploadedAt := now, mtime := now }, ?_, upload, rfl,
      active⟩
    rw [Sqlite.updateRows_ok update, List.nil_append]
    exact List.mem_map.mpr ⟨old, inOld, if_pos hit⟩

/-- Every other part keeps its row, or its File is lost. -/
lemma StoresPart.kept (tables : PartTables s) (stores : StoresPart now s request rows lost)
    (member : part ∈ s.uploadParts) (other : part.fileID ≠ request.fileID) :
    part ∈ rows ∨ (part.fileID ∈ lost ∧ part.state = .active) := by
  cases stores with
  | inserted row upload file active free => exact .inl (List.mem_append_left _ member)
  | replaced old inOld hit rows update =>
    by_cases replaced : request.replaces part = true
    · obtain ⟨upload, number, active⟩ := of_decide_eq_true replaced
      obtain ⟨upload', number', -⟩ := of_decide_eq_true hit
      have same := tables.part_of_number member inOld (upload.trans upload'.symm)
        (number.trans number'.symm)
      refine .inr ⟨?_, active⟩
      rw [← same, if_pos other]
      exact List.mem_singleton_self _
    · refine .inl ?_
      rw [Sqlite.updateRows_ok update, List.nil_append]
      exact List.mem_map.mpr ⟨part, member, if_neg replaced⟩

lemma StoresPart.pairwise (tables : PartTables s) (stores : StoresPart now s request rows lost) :
    rows.Pairwise fun a b => a.clash b = false := by
  cases stores with
  | inserted row upload file active free =>
    refine List.pairwise_append.mpr ⟨tables.parts, List.pairwise_singleton _ _, ?_⟩
    intro old inOld new inNew
    rw [List.mem_singleton.mp inNew, partClash_comm]
    exact free old inOld
  | replaced old inOld hit rows update =>
    exact Sqlite.updateRows_pairwise partClash_comm (by simpa using tables.parts) update

lemma StoresPart.selectedPart (stores : StoresPart now s request rows lost)
    (other : uploadID ≠ request.uploadID) (number : Nat) :
    { s with uploadParts := rows }.selectedPart uploadID number =
      s.selectedPart uploadID number := by
  cases stores with
  | inserted row upload file active free =>
    have absent : decide (row.uploadID = uploadID ∧ row.partNumber = number ∧
        row.state = .selected) = false :=
      decide_eq_false fun found => other (found.1.symm.trans upload)
    change (s.uploadParts ++ [row]).find? _ = _
    rw [List.find?_append, List.find?_singleton, absent]
    exact Option.or_none
  | replaced old inOld hit rows update =>
    change rows.find? _ = _
    rw [Sqlite.updateRows_ok update, List.nil_append]
    refine find?_map_of_fixes (fun row _ => ?_) fun row _ found => ?_
    · by_cases replaced : request.replaces row = true
      · rw [if_pos replaced]
      · rw [if_neg replaced]
    · refine if_neg fun replaced => other ?_
      exact (of_decide_eq_true found).1.symm.trans (of_decide_eq_true replaced).1

end

lemma Tracked.put {request : PutMultipartPartRequest} {file : StoredFile}
    {rows : List MultipartPart} {lost : List Nat} (tracked : Tracked env s ledger)
    (fresh : request.fileID ∉ ledger.files)
    (noSource : ∀ segment ∈ s.segments, segment.sourceFileID ≠ request.fileID)
    (active : s.uploadActive request.uploadID = true)
    (staged : s.validateMultipartStagingFile request.fileID request.size = .ok file)
    (stores : StoresPart now s request rows lost)
    (handed : { s with uploadParts := rows }.HandsOver lost hit)
    (sound : Sound ({ s with uploadParts := rows }.markRows hit now)) :
    Tracked env ({ s with uploadParts := rows }.markRows hit now)
      { ledger with
        staged := (request.uploadID, request.fileID) :: ledger.staged
        files := request.fileID :: ledger.files } := by
  obtain ⟨found, ready, physical, -, live, unmapped⟩ := validateMultipartStagingFile_ok staged
  have tables := tracked.toPartTables
  have apart : s.Apart request.fileID := ⟨⟨file, found, ready, physical⟩, unmapped, noSource⟩
  have busy : ∀ part ∈ rows, part.state = .active → s.uploadActive part.uploadID = true := by
    intro part member isActive
    rcases stores.mem_cases tables member with ⟨old, -⟩ | ⟨upload, -, -⟩
    · exact tracked.busy part old isActive
    · rwa [upload]
  have other : ∀ part ∈ s.uploadParts, part.fileID ≠ request.fileID := fun part member same =>
    fresh (same ▸ tracked.listed part member)
  refine ⟨⟨sound, tracked.pins, tracked.segments, tracked.ids, stores.pairwise tables, busy,
    fun part member isActive => ?_, fun part member isActive => ?_,
    fun part member selected => ?_⟩, fun part member => ?_, fun entry member => ?_,
    fun entry member => ?_, tracked.once, tracked.done, fun entry member => ?_⟩
  · rcases stores.mem_cases tables member with ⟨old, -⟩ | ⟨-, same, -⟩
    · exact (tracked.apart part old isActive).of_same rfl rfl rfl
    · rw [same]
      exact apart.of_same rfl rfl rfl
  · refine BlocksIn.of_notMem ?_
      (notMem_of_handsOver handed member isActive (busy part member isActive))
    rcases stores.mem_cases tables member with ⟨old, -⟩ | ⟨-, same, -⟩
    · exact tracked.live part old isActive
    · rw [same]
      exact live
  · rcases stores.mem_cases tables member with ⟨old, -⟩ | ⟨-, -, isActive⟩
    · exact tracked.settled part old selected
    · rw [isActive] at selected
      cases selected
  · rcases stores.mem_cases tables member with ⟨old, -⟩ | ⟨-, same, -⟩
    · exact List.mem_cons_of_mem _ (tracked.listed part old)
    · rw [same]
      exact List.mem_cons_self
  · rcases List.mem_cons.mp member with rfl | earlier
    · exact List.mem_cons_self
    · exact List.mem_cons_of_mem _ (tracked.files entry earlier)
  · rcases List.mem_cons.mp member with rfl | earlier
    · obtain ⟨part, inRows, upload, same, isActive⟩ := stores.exists_new
      exact .inl ⟨part, inRows, upload, same, by rw [isActive]; decide⟩
    · rcases tracked.placed entry earlier with ⟨part, inParts, upload, same, kept⟩ | surrendered
      · rcases stores.kept tables inParts (other part inParts) with stays | ⟨gone, wasActive⟩
        · exact .inl ⟨part, stays, upload, same, kept⟩
        · rw [← same]
          refine .inr (Surrendered.of_discarded
            ((tracked.apart part inParts wasActive).of_same rfl rfl rfl) tracked.pins
            (by exact tracked.live part inParts wasActive) (fun row inRows own => ?_) handed gone)
          rcases stores.mem_cases tables inRows with ⟨-, notLost⟩ | ⟨-, isNew, -⟩
          · exact absurd (own ▸ gone) notLost
          · exact absurd (own.symm.trans isNew) (other part inParts)
      · refine .inr (Surrendered.markRows ⟨surrendered.apart.of_same rfl rfl rfl,
          surrendered.pending, fun row inRows own => ?_⟩)
        rcases stores.mem_cases tables inRows with ⟨old, -⟩ | ⟨-, isNew, -⟩
        · exact surrendered.discarded row old own
        · have inFiles := tracked.files entry earlier
          rw [← own, isNew] at inFiles
          exact absurd inFiles fresh
  · have recorded := tracked.recorded entry member
    exact recorded.frame rfl (stores.selectedPart (recorded.ne_active tables active))
      fun fileID file found => ⟨file, found, rfl⟩

/-! ## Removing finished records -/

lemma find?_filter_of_imp {α : Type} {rows : List α} {p q : α → Bool}
    (kept : ∀ row ∈ rows, p row = true → q row = true) :
    (rows.filter q).find? p = rows.find? p := by
  induction rows with
  | nil => rfl
  | cons row rows ih =>
    have later := ih fun other member => kept other (List.mem_cons_of_mem _ member)
    rw [List.filter_cons, List.find?_cons]
    cases hit : p row with
    | true => rw [if_pos (kept row List.mem_cons_self hit), List.find?_cons, hit]
    | false =>
      split_ifs
      · rw [List.find?_cons, hit]
        exact later
      · exact later

/-- The uploads whose records a purge removes. -/
def purgedIDs (s : Store) (now : Int) (limit : Nat) : List Text :=
  ((Sqlite.orderBy MultipartUpload.cleanupAt (s.uploads.filter fun upload =>
    upload.Finished ∧ 0 < upload.cleanupAt ∧ upload.cleanupAt ≤ now)).take limit).map
      MultipartUpload.uploadID

lemma purge_eq (s : Store) (now : Int) (limit : Nat) :
    s.purgeMultipartControlRows now limit = { s with
      uploadParts := s.uploadParts.filter fun part => part.uploadID ∉ s.purgedIDs now limit
      uploads := s.uploads.filter fun upload =>
        ¬(upload.uploadID ∈ s.purgedIDs now limit ∧ upload.Finished) } := rfl

lemma PartTables.finished_of_purged (tables : PartTables s) (member : row ∈ s.uploads)
    (purged : row.uploadID ∈ s.purgedIDs now limit) : row.Finished := by
  obtain ⟨other, inside, same⟩ := List.mem_map.mp purged
  obtain ⟨inUploads, finished⟩ :=
    List.mem_filter.mp (Sqlite.mem_orderBy.mp (List.mem_of_mem_take inside))
  rw [← List.inj_on_of_nodup_map tables.ids inUploads member same]
  exact (of_decide_eq_true finished).1

/-- A record is kept or removed with all its rows. -/
lemma PartTables.mem_purged (tables : PartTables s) :
    row ∈ (s.purgeMultipartControlRows now limit).uploads ↔
      row ∈ s.uploads ∧ row.uploadID ∉ s.purgedIDs now limit := by
  rw [purge_eq, List.mem_filter, decide_eq_true_eq]
  refine and_congr_right fun member => not_congr (and_iff_left_of_imp fun purged => ?_)
  exact tables.finished_of_purged member purged

lemma PartTables.purge (tables : PartTables s)
    (sound : Sound (s.purgeMultipartControlRows now limit)) :
    PartTables (s.purgeMultipartControlRows now limit) := by
  have sub : ∀ part ∈ (s.purgeMultipartControlRows now limit).uploadParts,
      part ∈ s.uploadParts ∧ part.uploadID ∉ s.purgedIDs now limit := fun part member =>
    (List.mem_filter.mp member).imp id of_decide_eq_true
  refine ⟨sound, tables.pins, tables.segments, ?_, tables.parts.sublist List.filter_sublist, ?_,
    fun part member active => (tables.apart part (sub part member).1 active).of_same rfl rfl rfl,
    fun part member active => tables.live part (sub part member).1 active, ?_⟩
  · exact tables.ids.sublist (List.filter_sublist.map _)
  · intro part member active
    obtain ⟨inParts, kept⟩ := sub part member
    obtain ⟨row, inRows, both⟩ := List.any_eq_true.mp (tables.busy part inParts active)
    obtain ⟨own, isActive⟩ := of_decide_eq_true both
    exact List.any_eq_true.mpr ⟨row, tables.mem_purged.mpr ⟨inRows, own ▸ kept⟩,
      decide_eq_true ⟨own, isActive⟩⟩
  · intro part member selected
    obtain ⟨inParts, kept⟩ := sub part member
    obtain ⟨row, inRows, own, completed⟩ := tables.settled part inParts selected
    exact ⟨row, tables.mem_purged.mpr ⟨inRows, own ▸ kept⟩, own, completed⟩

/-- An upload whose record is there was not purged. -/
lemma PartTables.notMem_purgedIDs (tables : PartTables s)
    (there : (s.purgeMultipartControlRows now limit).hasUpload uploadID = true) :
    uploadID ∉ s.purgedIDs now limit := by
  obtain ⟨row, member, same⟩ := List.any_eq_true.mp there
  rw [← of_decide_eq_true same]
  exact (tables.mem_purged.mp member).2

lemma Tracked.purge (tracked : Tracked env s ledger)
    (sound : Sound (s.purgeMultipartControlRows now limit)) :
    Tracked env (s.purgeMultipartControlRows now limit)
      (ledger.prune (s.purgeMultipartControlRows now limit)) := by
  have tables := tracked.toPartTables
  refine ⟨tables.purge sound, fun part member => ?_, fun entry member => ?_,
    fun entry member => ?_, tracked.once.sublist List.filter_sublist, fun id member => ?_,
    fun entry member => ?_⟩
  · exact tracked.listed part (List.mem_filter.mp member).1
  · exact tracked.files entry (List.mem_filter.mp member).1
  · obtain ⟨inLedger, there⟩ := List.mem_filter.mp member
    have kept := tables.notMem_purgedIDs there
    rcases tracked.placed entry inLedger with ⟨part, inParts, upload, rest⟩ | surrendered
    · exact .inl ⟨part, List.mem_filter.mpr ⟨inParts, decide_eq_true (upload ▸ kept)⟩, upload, rest⟩
    · exact .inr ⟨surrendered.apart.of_same rfl rfl rfl, surrendered.pending,
        fun part inRows => surrendered.discarded part (List.mem_filter.mp inRows).1⟩
  · obtain ⟨inLedger, there⟩ := List.mem_filter.mp member
    obtain ⟨row, inRows, own, completed⟩ := tracked.done id inLedger
    exact ⟨row, tables.mem_purged.mpr ⟨inRows, own ▸ tables.notMem_purgedIDs there⟩, own, completed⟩
  · obtain ⟨inLedger, there⟩ := List.mem_filter.mp member
    have kept := tables.notMem_purgedIDs there
    refine (tracked.recorded entry inLedger).frame ?_ (fun number => ?_)
      fun fileID file found => ⟨file, found, rfl⟩
    · refine find?_filter_of_imp fun row _ own => decide_eq_true ?_
      rw [of_decide_eq_true own]
      exact fun purged => kept purged.1
    · refine find?_filter_of_imp fun row _ own => decide_eq_true ?_
      rw [(of_decide_eq_true own).1]
      exact kept

end TgFile.Store
