import TgFile.S3.Closing
import TgFile.S3.Digest
import TgFile.S3.KeyMap

/-! # What holds in every run of multipart calls

The invariant of `Tracked` holds after every step of a run.  From it follow the facts about one
more call: a finished upload stays as it is, a completion is answered again, a failure changes
nothing, and a completion hands over the Files it does not use. -/

namespace TgFile.Store

open Go Result S3

variable {env : Env} {s s' : Store} {now : Int} {ledger : Ledger}
  {request : CompleteMultipartRequest} {answer : CompleteMultipartResult}

/-! ## The runs -/

lemma Tracked.start (idle : Idle s) : Tracked env s .empty where
  sound := idle.sound
  pins := idle.pins
  segments := idle.segments
  ids := by rw [idle.uploads]; exact List.nodup_nil
  parts := by rw [idle.uploadParts]; exact .nil
  busy part member := by rw [idle.uploadParts] at member; cases member
  apart part member := by rw [idle.uploadParts] at member; cases member
  live part member := by rw [idle.uploadParts] at member; cases member
  listed part member := by rw [idle.uploadParts] at member; cases member
  files entry member := by cases member
  placed entry member := by cases member
  once := List.nodup_nil
  done id member := by cases member
  recorded entry member := by cases member
  settled part member := by rw [idle.uploadParts] at member; cases member

section
variable {files : List Nat} (other : Elsewhere files s s')
include other

lemma Elsewhere.apart {fileID : Nat} (apart : s.Apart fileID) : s'.Apart fileID where
  stored := by
    obtain ⟨file, found, ready, physical⟩ := apart.stored
    obtain ⟨_, found', -, same⟩ := other.kept fileID file found
    obtain rfl := same ready
    exact ⟨_, found', ready, physical⟩
  unmapped := by
    rw [mapped, other.dir]
    exact apart.unmapped
  noSource := by
    rw [other.segments]
    exact apart.noSource

lemma Elsewhere.blocksIn {fileID : Nat} {state : BlockState} (member : fileID ∈ files)
    (blocks : s.BlocksIn fileID state) : s'.BlocksIn fileID state := by
  rw [BlocksIn, other.blocks fileID member]
  exact blocks

lemma Elsewhere.recorded (recorded : Recorded env s request answer) :
    Recorded env s' request answer := by
  refine recorded.frame ?_ (fun number => ?_) fun fileID file found => ?_
  · rw [readMultipartUpload, readMultipartUpload, other.uploads]
  · rw [selectedPart, selectedPart, other.uploadParts]
  · obtain ⟨file', found', size, -⟩ := other.kept fileID file found
    exact ⟨file', found', size⟩

end

lemma Tracked.elsewhere (tracked : Tracked env s ledger) (other : Elsewhere ledger.files s s') :
    Tracked env s' ledger := by
  refine ⟨⟨other.sound, ?_, ?_, ?_, ?_, ?_, ?_, ?_, ?_⟩, ?_, tracked.files, ?_, tracked.once, ?_,
    fun entry member => other.recorded (tracked.recorded entry member)⟩
  · rw [other.pins, tracked.pins]
  · rw [other.segments]
    exact fun segment member =>
      Nat.lt_of_lt_of_le (tracked.segments segment member) other.nextFileID
  · rw [other.uploads]
    exact tracked.ids
  · rw [other.uploadParts]
    exact tracked.parts
  · rw [other.uploadParts]
    intro part member active
    rw [uploadActive, other.uploads]
    exact tracked.busy part member active
  · rw [other.uploadParts]
    exact fun part member active => other.apart (tracked.apart part member active)
  · rw [other.uploadParts]
    exact fun part member active =>
      other.blocksIn (tracked.listed part member) (tracked.live part member active)
  · rw [other.uploadParts, other.uploads]
    exact tracked.settled
  · rw [other.uploadParts]
    exact tracked.listed
  · intro entry member
    rcases tracked.placed entry member with ⟨part, inParts, rest⟩ | surrendered
    · exact .inl ⟨part, other.uploadParts ▸ inParts, rest⟩
    · refine .inr ⟨other.apart surrendered.apart,
        other.blocksIn (tracked.files entry member) surrendered.pending, ?_⟩
      rw [other.uploadParts]
      exact surrendered.discarded
  · rw [other.uploads]
    exact tracked.done

/-- The invariant holds after every run. -/
lemma MultipartRun.tracked (run : MultipartRun env s ledger) : Tracked env s ledger := by
  induction run with
  | start idle => exact .start idle
  | call before now request own ih => exact ih.call now own
  | elsewhere before other ih => exact ih.elsewhere other

/-! ## Finished uploads -/

lemma MultipartUpload.Finished.ne_active {row : MultipartUpload} (finished : row.Finished) :
    row.state ≠ .active := by
  intro active
  unfold MultipartUpload.Finished at finished
  rw [active] at finished
  exact finished.elim nofun nofun

/-- Finished uploads keep their rows, or the whole record goes. -/
def KeepsFinished (s s' : Store) : Prop :=
  ∀ row ∈ s.uploads, row.Finished → row ∈ s'.uploads ∨ s'.hasUpload row.uploadID = false

/-- The call completes an active upload. -/
def CompletesActive (env : Env) (now : Int) (s : Store) : S3Request → Prop
  | .complete request _ _ => s.uploadActive request.uploadID = true ∧
      ∃ s' answer, s.completeMultipartUpload env now request = .ok (s', some answer)
  | _ => False

lemma KeepsFinished.refl (s : Store) : KeepsFinished s s := fun _ member _ => .inl member

lemma AbortsActive.keepsFinished {uploadID : Text} (tables : PartTables s)
    (aborts : AbortsActive now s s' uploadID) : KeepsFinished s s' := fun _ member finished =>
  .inl (aborts.keeps tables member (MultipartUpload.Finished.ne_active finished))

lemma AbortsActive.dir {uploadID : Text} (aborts : AbortsActive now s s' uploadID) :
    s'.dir = s.dir := by
  obtain ⟨hit, rfl, -⟩ := aborts.tables
  rfl

lemma PartTables.purge_keepsFinished {limit : Nat} (tables : PartTables s) :
    KeepsFinished s (s.purgeMultipartControlRows now limit) := by
  intro row member finished
  by_cases purged : row.uploadID ∈ s.purgedIDs now limit
  · refine .inr (Bool.eq_false_iff.mpr fun there => ?_)
    exact tables.notMem_purgedIDs there purged
  · exact .inl (tables.mem_purged.mpr ⟨member, purged⟩)

/-- The expiry loop aborts active uploads one after the other. -/
lemma expire_keeps {limit : Nat} (tables : PartTables s)
    (run : s.processExpiredMultipartUploads now limit = .ok s') :
    PartTables s' ∧ s'.dir = s.dir ∧
      ∀ row ∈ s.uploads, row.Finished → row ∈ s'.uploads := by
  refine processExpiredMultipartUploads_rule
    (fun t => PartTables t ∧ t.dir = s.dir ∧ ∀ row ∈ s.uploads, row.Finished → row ∈ t.uploads)
    ?_ ⟨tables, rfl, fun _ member _ => member⟩ run
  intro t t' uploadID ⟨inv, dir, kept⟩ aborts
  refine ⟨inv.abort aborts ((samePlaces_of_sameTree aborts.aborts.sameTree).sound inv.sound),
    aborts.dir.trans dir, fun row member finished => ?_⟩
  exact aborts.keeps inv (kept row member finished) (MultipartUpload.Finished.ne_active finished)

/-- What one call does to finished uploads and to the directory. -/
lemma PartTables.call (tables : PartTables s) (now : Int) {request : S3Request}
    (own : OwnCall s ledger request) : KeepsFinished s (s.call env now request) ∧
      ((s.call env now request).dir = s.dir ∨ CompletesActive env now s request) := by
  cases run : request.run env now s with
  | error err =>
    rw [call_error run]
    exact ⟨.refl s, .inl rfl⟩
  | ok s' =>
    rw [call_ok run]
    cases request with
    | publish => exact own.elim
    | copy => exact own.elim
    | delete => exact own.elim
    | createUpload create uploadID =>
      obtain ⟨upload, -, -, -, -, rfl⟩ := createMultipartUpload_ok run
      exact ⟨fun row member _ => .inl (List.mem_append_left _ member), .inl rfl⟩
    | inspectUpload uploadID bucket key =>
      obtain ⟨⟨_, upload, expired⟩, inspected, rfl⟩ := map_ok.mp run
      rcases ensureActiveMultipartUpload_ok inspected with ⟨rfl, -⟩ | ⟨-, expires⟩
      · exact ⟨.refl _, .inl rfl⟩
      · exact ⟨expires.abortsActive.keepsFinished tables, .inl expires.abortsActive.dir⟩
    | abort uploadID bucket key =>
      rcases abortMultipartUpload_ok run with rfl | aborts
      · exact ⟨.refl _, .inl rfl⟩
      · exact ⟨aborts.keepsFinished tables, .inl aborts.dir⟩
    | expire limit =>
      obtain ⟨-, dir, kept⟩ := expire_keeps tables run
      exact ⟨fun row member finished => .inl (kept row member finished), .inl dir⟩
    | purgeControl limit =>
      obtain rfl := Except.ok.inj run
      exact ⟨tables.purge_keepsFinished, .inl rfl⟩
    | putPart part =>
      obtain ⟨⟨_, expired⟩, put, rfl⟩ := map_ok.mp run
      rcases putMultipartPart_ok put with ⟨-, expires⟩ | ⟨-, file, rows, lost, hit, -, -, -, rfl, -⟩
      · exact ⟨expires.abortsActive.keepsFinished tables, .inl expires.abortsActive.dir⟩
      · exact ⟨fun row member _ => .inl member, .inl rfl⟩
    | complete completion path located =>
      obtain ⟨⟨_, result⟩, completed, rfl⟩ := map_ok.mp run
      obtain ⟨upload, matched, -, repeated | ⟨-, expires⟩ | fresh⟩ :=
        completeMultipartUpload_cases completed
      · obtain ⟨answer, -, rfl, -⟩ := repeated
        exact ⟨.refl _, .inl rfl⟩
      · exact ⟨expires.abortsActive.keepsFinished tables, .inl expires.abortsActive.dir⟩
      · obtain ⟨answer, records, count, checksums, published, closed, active, rfl, -, whole⟩ :=
          fresh
        have isActive := uploadActive_of_matched matched active
        obtain ⟨first, second, shut⟩ := whole.closed tables.sound path located
        refine ⟨fun row member finished => .inl ?_, .inr ⟨isActive, _, answer, completed⟩⟩
        exact (mem_of_update (closedUpload_update _ _ _ _) shut.uploads
          (tables.ne_of_finished member (MultipartUpload.Finished.ne_active finished)
            isActive)).mpr member

/-! ## Outcomes -/

/-- `PutMultipartPart`: the tables and what the caller gets. -/
def putMultipartPartOutcome (env : Env) (now : Int) (s : Store)
    (request : PutMultipartPartRequest) : Store × Except Err Unit :=
  match s.putMultipartPart env now request with
  | .error err => (s, .error err)
  | .ok (s', true) => (s', .error .noSuchUpload)
  | .ok (s', false) => (s', .ok ())

/-- `CompleteMultipartUpload`: the tables and what the caller gets. -/
def completeMultipartUploadOutcome (env : Env) (now : Int) (s : Store)
    (request : CompleteMultipartRequest) : Store × Except Err CompleteMultipartResult :=
  match s.completeMultipartUpload env now request with
  | .error err => (s, .error err)
  | .ok (s', none) => (s', .error .noSuchUpload)
  | .ok (s', some answer) => (s', .ok answer)

lemma putMultipartPartOutcome_error {request : PutMultipartPartRequest} {err : Err}
    (failed : (s.putMultipartPartOutcome env now request).2 = .error err) :
    (s.putMultipartPartOutcome env now request).1 = s ∨
      Expires now s (s.putMultipartPartOutcome env now request).1 request.uploadID := by
  unfold putMultipartPartOutcome at failed ⊢
  cases put : s.putMultipartPart env now request with
  | error => exact .inl rfl
  | ok result =>
    obtain ⟨s', expired⟩ := result
    rw [put] at failed
    cases expired with
    | false => cases failed
    | true =>
      rcases putMultipartPart_ok put with ⟨-, expires⟩ | ⟨no, -⟩
      · exact .inr expires
      · cases no

lemma completeMultipartUploadOutcome_error {err : Err}
    (failed : (s.completeMultipartUploadOutcome env now request).2 = .error err) :
    (s.completeMultipartUploadOutcome env now request).1 = s ∨
      Expires now s (s.completeMultipartUploadOutcome env now request).1 request.uploadID := by
  unfold completeMultipartUploadOutcome at failed ⊢
  cases completed : s.completeMultipartUpload env now request with
  | error => exact .inl rfl
  | ok result =>
    obtain ⟨s', answer⟩ := result
    rw [completed] at failed
    cases answer with
    | some => cases failed
    | none =>
      obtain ⟨upload, -, -, ⟨answer, -, -, no, -⟩ | ⟨-, expires⟩ |
        ⟨answer, _, _, _, _, _, -, no, -⟩⟩ := completeMultipartUpload_cases completed
      · cases no
      · exact .inr expires
      · cases no

/-! ## Part lists -/

/-- The numbers and ETags of the requested parts. -/
def partList (request : CompleteMultipartRequest) : List (Nat × Text) :=
  request.parts.map fun part => (part.partNumber, part.etag)

/-- The text whose hash is the fingerprint of a part list. -/
def partListText (list : List (Nat × Text)) : Text :=
  list.flatMap fun entry => decimal entry.1 ++ ':' :: entry.2 ++ ['\n']

lemma multipartCompletionFingerprint_eq (env : Env) (request : CompleteMultipartRequest) :
    multipartCompletionFingerprint env request.parts =
      env.sha256 (partListText (partList request)) := by
  rw [multipartCompletionFingerprint, partListText, partList, List.flatMap_map]

lemma partListText_cons (number : Nat) (etag : Text) (list : List (Nat × Text)) :
    partListText ((number, etag) :: list) =
      decimal number ++ ':' :: (etag ++ '\n' :: partListText list) := by
  simp [partListText]

/-- The text determines the list. -/
lemma partListText_inj {list list' : List (Nat × Text)}
    (plain : ∀ entry ∈ list, '\n' ∉ entry.2) (plain' : ∀ entry ∈ list', '\n' ∉ entry.2)
    (same : partListText list = partListText list') : list = list' := by
  induction list generalizing list' with
  | nil =>
    cases list' with
    | nil => rfl
    | cons entry list' =>
      rw [partListText_cons] at same
      have lengths := congrArg List.length same
      rw [partListText, List.flatMap_nil, List.length_append, List.length_cons] at lengths
      simp at lengths
  | cons entry list ih =>
    cases list' with
    | nil =>
      rw [partListText_cons] at same
      have lengths := congrArg List.length same
      rw [partListText, List.length_append, List.length_cons] at lengths
      simp [partListText] at lengths
    | cons entry' list' =>
      rw [partListText_cons, partListText_cons] at same
      obtain ⟨numbers, rest⟩ := append_separator_inj (notMem_decimal (by decide))
        (notMem_decimal (by decide)) same
      obtain ⟨etags, rests⟩ := append_separator_inj (plain entry List.mem_cons_self)
        (plain' entry' List.mem_cons_self) rest
      rw [ih (fun other member => plain other (List.mem_cons_of_mem _ member))
        (fun other member => plain' other (List.mem_cons_of_mem _ member)) rests,
        Prod.ext (decimal_inj numbers) etags]

lemma validateCompleteParts_etags {previous : Nat} {parts : List CompleteMultipartPart}
    (valid : validateCompleteParts previous parts = .ok ()) :
    ∀ part ∈ parts, isHexMD5 part.etag = true := by
  induction parts generalizing previous with
  | nil => exact nofun
  | cons part parts ih =>
    simp only [validateCompleteParts, bind_ok, require_ok] at valid
    obtain ⟨_, -, _, ⟨-, -, hex⟩, rest⟩ := valid
    intro other member
    rcases List.mem_cons.mp member with rfl | later
    · exact hex
    · exact ih rest other later

lemma partList_plain (valid : validateCompleteMultipartRequest request = .ok ()) :
    ∀ entry ∈ partList request, '\n' ∉ entry.2 := by
  simp only [validateCompleteMultipartRequest, bind_ok] at valid
  obtain ⟨_, -, valid⟩ := valid
  intro entry member inside
  obtain ⟨part, inParts, rfl⟩ := List.mem_map.mp member
  have hex := of_decide_eq_true (validateCompleteParts_etags valid part inParts)
  exact (hex.2 '\n' inside).elim (by decide) (by decide)

/-- Two part lists with one hash. -/
def SameHash (env : Env) (list list' : List (Nat × Text)) : Prop :=
  partListText list ≠ partListText list' ∧
    env.sha256 (partListText list) = env.sha256 (partListText list')

lemma partList_eq_or_sameHash {other : CompleteMultipartRequest}
    (valid : validateCompleteMultipartRequest request = .ok ())
    (valid' : validateCompleteMultipartRequest other = .ok ())
    (same : multipartCompletionFingerprint env request.parts =
      multipartCompletionFingerprint env other.parts) :
    partList request = partList other ∨ SameHash env (partList request) (partList other) := by
  rw [multipartCompletionFingerprint_eq, multipartCompletionFingerprint_eq] at same
  by_cases texts : partListText (partList request) = partListText (partList other)
  · exact .inl (partListText_inj (partList_plain valid) (partList_plain valid') texts)
  · exact .inr ⟨texts, same⟩

/-! ## Repeated completions -/

lemma readCompletedMultipartResult_ok {upload : MultipartUpload} {fingerprint : Text}
    (run : s.readCompletedMultipartResult env upload request fingerprint = .ok answer) :
    upload.fingerprint = fingerprint ∧ ∃ file spec,
      s.readStoredFile upload.resultFileID = some file ∧
      multipartChecksumSpec upload = .ok spec ∧ answer =
        ⟨upload.resultFileID, file.fileSize, upload.resultETag, spec, upload.resultChecksum⟩ := by
  unfold readCompletedMultipartResult at run
  obtain ⟨_, same, rest⟩ := bind_ok.mp run
  refine ⟨require_ok.mp same, ?_⟩
  cases found : s.readStoredFile upload.resultFileID with
  | none =>
    rw [found] at rest
    cases rest
  | some file =>
    simp only [found, bind_ok, pure_ok] at rest
    obtain ⟨_, -, _, -, _, -, _, -, spec, parsed, rfl⟩ := rest
    exact ⟨file, spec, rfl, parsed, rfl⟩

/-- Any request on a completed upload leaves the store alone.  It fails, or it names the parts of
the completion and gets its answer. -/
lemma Recorded.repeated {again : CompleteMultipartRequest} (tables : PartTables s)
    (recorded : Recorded env s request answer) (now : Int)
    (same : again.uploadID = request.uploadID) :
    (s.completeMultipartUploadOutcome env now again).1 = s ∧
      ((∃ err, (s.completeMultipartUploadOutcome env now again).2 = .error err) ∨
        ((s.completeMultipartUploadOutcome env now again).2 = .ok answer ∧
          (partList again = partList request ∨
            SameHash env (partList again) (partList request)))) := by
  unfold completeMultipartUploadOutcome
  cases completed : s.completeMultipartUpload env now again with
  | error err => exact ⟨rfl, .inl ⟨err, rfl⟩⟩
  | ok result =>
    obtain ⟨s', result⟩ := result
    obtain ⟨valid, upload, matched, done, read⟩ := recorded
    obtain ⟨upload', matched', valid', outcome⟩ := completeMultipartUpload_cases completed
    obtain rfl : upload' = upload := by
      have found := (matchedUpload_ok matched).1
      have found' := (matchedUpload_ok matched').1
      rw [same, found] at found'
      exact (Option.some.inj found').symm
    rcases outcome with ⟨answer', -, rfl, rfl, read'⟩ | ⟨-, expires⟩ | ⟨_, _, _, _, _, _, active, -⟩
    · obtain ⟨print, file, spec, found, parsed, rfl⟩ := readCompletedMultipartResult_ok read
      obtain ⟨print', file', spec', found', parsed', rfl⟩ := readCompletedMultipartResult_ok read'
      obtain rfl := Option.some.inj (found.symm.trans found')
      obtain rfl := Except.ok.inj (parsed.symm.trans parsed')
      exact ⟨rfl, .inr ⟨rfl, partList_eq_or_sameHash valid' valid (print'.symm.trans print)⟩⟩
    · obtain ⟨-, member, own⟩ := matchedUpload_ok matched'
      exact absurd own (tables.ne_of_finished member (by rw [done]; decide)
        expires.abortsActive.active)
    · rw [done] at active
      cases active

/-- The limit and the condition of a repeated request do not matter. -/
lemma Recorded.again (recorded : Recorded env s request answer) (now limit : Int)
    (condition : Option S3Condition) :
    s.completeMultipartUploadOutcome env now
      { request with maxObjectSize := limit, condition := condition } = (s, .ok answer) := by
  have same : Recorded env s { request with maxObjectSize := limit, condition := condition }
      answer := recorded
  rw [completeMultipartUploadOutcome, same.answers]

/-! ## What a completion leaves -/

lemma map_source_segmentRows (fileID : Nat) (now : Int) (index : Nat)
    (sources : List (Nat × Int)) :
    (segmentRows fileID now index sources).map Segment.sourceFileID = sources.map Prod.fst := by
  induction sources generalizing index with
  | nil => rfl
  | cons source sources ih =>
    rw [segmentRows, List.zipIdx_cons, List.map_cons, List.map_cons, List.map_cons]
    exact congrArg _ (ih (index + 1))

lemma segmentRows_sorted (fileID : Nat) (now : Int) (index : Nat) (sources : List (Nat × Int)) :
    (segmentRows fileID now index sources).Pairwise fun a b =>
      a.segmentIndex ≤ b.segmentIndex := by
  induction sources generalizing index with
  | nil => exact .nil
  | cons source sources ih =>
    rw [segmentRows, List.zipIdx_cons, List.map_cons]
    refine List.pairwise_cons.mpr ⟨fun segment member => ?_, ih (index + 1)⟩
    obtain ⟨row, inRows, rfl⟩ := List.mem_map.mp member
    exact Nat.le_of_succ_le (List.le_snd_of_mem_zipIdx inRows)

section
variable {request : CompleteMultipartRequest} {upload : MultipartUpload} {fingerprint : Text}
  {answer : CompleteMultipartResult} {records : List (MultipartPart × StoredFile)} {count : Int}
  {first second : List Nat}
  (closed : Closed now s s' request upload fingerprint answer records count first second)

include closed

/-- The segments of the object are the new rows, in order. -/
lemma Closed.segmentsOf (below : ∀ segment ∈ s.segments, segment.fileID < s.nextFileID) :
    s'.segmentsOf answer.fileID = segmentRows answer.fileID now 0
      (records.map fun record => (record.1.fileID, record.1.partSize)) := by
  have old : s.segments.filter (fun segment => segment.fileID = s.nextFileID) = [] := by
    refine List.filter_eq_nil_iff.mpr fun segment member => ?_
    simpa using Nat.ne_of_lt (below segment member)
  have new : (segmentRows s.nextFileID now 0
      (records.map fun record => (record.1.fileID, record.1.partSize))).filter
        (fun segment => segment.fileID = s.nextFileID) = segmentRows s.nextFileID now 0
          (records.map fun record => (record.1.fileID, record.1.partSize)) := by
    refine List.filter_eq_self.mpr fun segment member => ?_
    obtain ⟨row, -, rfl⟩ := List.mem_map.mp member
    exact decide_eq_true rfl
  rw [Store.segmentsOf, closed.file, closed.segments, List.filter_append, old, List.nil_append, new,
    Sqlite.orderBy_of_sorted (segmentRows_sorted _ _ _ _)]

lemma Closed.segmentSources (tables : PartTables s) :
    (s'.segmentsOf answer.fileID).map Segment.sourceFileID = selectedFiles records := by
  rw [closed.segmentsOf tables.segments, map_source_segmentRows, List.map_map]
  rfl

end

/-- A completion of an active upload makes the selected parts the segments of the object and gives
up every other File that was staged for the upload. -/
lemma Tracked.completed (tracked : Tracked env s ledger) (path : ObjectPath)
    (located : path.text = objectPath request.bucket request.key)
    (active : s.uploadActive request.uploadID = true)
    (run : s.completeMultipartUploadOutcome env now request = (s', .ok answer)) :
    ∃ chosen : List MultipartPart,
      List.Forall₂ (fun (requested : CompleteMultipartPart) part => part ∈ s.uploadParts ∧
        part.uploadID = request.uploadID ∧ part.partNumber = requested.partNumber ∧
        part.state = .active ∧ part.etag = requested.etag) request.parts chosen ∧
      (s'.segmentsOf answer.fileID).map Segment.sourceFileID =
        chosen.map MultipartPart.fileID ∧
      ∀ entry ∈ ledger.staged, entry.1 = request.uploadID →
        entry.2 ∉ chosen.map MultipartPart.fileID →
        s'.fileHasLiveReference entry.2 = false ∧ s'.BlocksIn entry.2 .pending := by
  have tables := tracked.toPartTables
  have completed : s.completeMultipartUpload env now request = .ok (s', some answer) := by
    unfold completeMultipartUploadOutcome at run
    split at run
    · cases run
    · cases run
    · cases run
      assumption
  obtain ⟨upload, matched, -, ⟨_, done, -⟩ | ⟨no, -⟩ | fresh⟩ :=
    completeMultipartUpload_cases completed
  · rw [uploadActive_of_completed tables matched done] at active
    cases active
  · cases no
  · obtain ⟨_, records, count, checksums, published, closed, -, same, -, whole⟩ := fresh
    obtain rfl := Option.some.inj same
    obtain ⟨first, second, shut⟩ := whole.closed tables.sound path located
    have chosen : (records.map Prod.fst).map MultipartPart.fileID = selectedFiles records := by
      rw [List.map_map]
      rfl
    refine ⟨records.map Prod.fst, ?_, ?_, ?_⟩
    · refine List.forall₂_map_right_iff.mpr (shut.selected.imp fun requested record selected => ?_)
      obtain ⟨member, own, number, isActive, -⟩ := activePart_ok selected.found
      exact ⟨member, own, number, isActive, selected.etag⟩
    · rw [chosen]
      exact shut.segmentSources tables
    · rw [chosen]
      intro entry member own unselected
      have surrendered : s'.Surrendered entry.2 := by
        rcases tracked.placed entry member with ⟨part, inParts, upload, file, kept⟩ | already
        · rw [← file] at unselected ⊢
          cases state : part.state with
          | discarded => exact absurd state kept
          | active => exact shut.unselected tables inParts (upload.trans own) state unselected
          | selected =>
            obtain ⟨row, inRows, same, done⟩ := tables.settled part inParts state
            exact absurd (same.trans (upload.trans own))
              (tables.ne_of_finished inRows (by rw [done]; decide) active)
        · exact shut.surrendered tables already
      exact ⟨surrendered.unreferenced (shut.pins.trans tables.pins), surrendered.pending⟩

/-! ## The life of an upload -/

/-- Hash functions that keep the front of the bytes. -/
def frontHashes : Hashes where
  md5 bytes := (bytes ++ List.replicate 16 0).take 16
  sum algorithm bytes := (bytes ++ List.replicate algorithm.size 0).take algorithm.size
  md5_length bytes := by simp
  sum_length algorithm bytes := by simp

/-- Blocks of one byte, and the digests of `frontHashes`. -/
def frontEnv : Env := Env.plain.digesting frontHashes

/-- A File with one block for each byte. -/
def storeFile (keys : List Char) : List Action :=
  .createDraft keys.length false ::
    keys.map (fun key => .createPart 0 ⟨[key], [key], 1, [], 1⟩) ++ [.finishCreate 0]

/-- Files of one, two and one byte. -/
def threeFiles : System :=
  (System.init 1).run frontEnv noArchive
    (storeFile ['x'] ++ storeFile ['y', 'z'] ++ storeFile ['w'])

/-- Start an upload of `a`. -/
def createA : S3Request := .createUpload ⟨bucketB.name, keyA.text, noMetadata, 0, [], []⟩ ['u']

/-- Put a File with the digests of its bytes into the upload. -/
def putA (number fileID : Nat) (bytes : List Byte) : S3Request := .putPart
  ⟨['u'], bucketB.name, keyA.text, number, fileID, bytes.length, frontHashes.md5Hex bytes,
    frontHashes.sumBase64 .crc64nvme bytes, 9⟩

/-- Part 1 is put twice, and part 2 once. -/
def stagedA : Store :=
  [createA, putA 1 1 [1], putA 1 2 [1, 2], putA 2 3 [3]].foldl
    (fun s request => s.call frontEnv 1 request) threeFiles.store

/-- Complete with part 1 only. -/
def completeA : CompleteMultipartRequest :=
  ⟨['u'], bucketB.name, keyA.text, [⟨1, frontHashes.md5Hex [1, 2], [], []⟩], 9, none, [],
    frontHashes.sumBase64 .crc64nvme [1, 2], [], some 2⟩

/-- The answer of the completion. -/
def answerA : CompleteMultipartResult :=
  ⟨4, 2, '"' :: frontHashes.md5Hex [1, 2] ++ "-1\"".toList, some (.crc64nvme, .fullObject),
    frontHashes.sumBase64 .crc64nvme [1, 2]⟩

/-- The store after the completion. -/
def uploadedA : Store := stagedA.call frontEnv 1 (.complete completeA (bucketB.path keyA) rfl)

lemma idle_threeFiles : Idle threeFiles.store where
  sound := (System.protocolSound ((System.Reachable.init 1).run _)).sound
  segments := by decide +kernel
  pins := by decide +kernel
  uploads := by decide +kernel
  uploadParts := by decide +kernel

/-- The ledger before the completion. -/
def ledgerA : Ledger := ⟨[(['u'], 3), (['u'], 2), (['u'], 1)], [], [], [3, 2, 1]⟩

lemma stagedA_run : MultipartRun frontEnv stagedA ledgerA := by
  have start : MultipartRun frontEnv threeFiles.store .empty := .start idle_threeFiles
  have first := (start.call 1 createA trivial).call 1 (putA 1 1 [1])
    ⟨by decide +kernel, by decide +kernel⟩
  have second := first.call 1 (putA 1 2 [1, 2]) ⟨by decide +kernel, by decide +kernel⟩
  have third := second.call 1 (putA 2 3 [3]) ⟨by decide +kernel, by decide +kernel⟩
  convert third using 1
  · rfl
  · decide +kernel

/-- **A staged part is a live File of its own.**  In every run, an active part belongs to an active
upload, all blocks of its File are live, no mapping, segment or other part has the File, and its
number is taken once. -/
theorem active_part_owned (run : MultipartRun env s ledger) {part : MultipartPart}
    (member : part ∈ s.uploadParts) (active : part.state = .active) :
    s.uploadActive part.uploadID = true ∧ s.BlocksIn part.fileID .live ∧ s.Apart part.fileID ∧
      ∀ other ∈ s.uploadParts, (other.fileID = part.fileID ∨
        other.uploadID = part.uploadID ∧ other.partNumber = part.partNumber) → other = part := by
  obtain ⟨tables⟩ := run.tracked
  refine ⟨tables.busy part member active, tables.live part member active,
    tables.apart part member active, ?_⟩
  rintro other present (file | ⟨upload, number⟩)
  · exact tables.part_of_file present member file
  · exact tables.part_of_number present member upload number

/-- Part 1 has its second File, and part 2 its own. -/
theorem stagedA_owned : stagedA.uploadParts.map MultipartPart.fileID = [2, 3] ∧
    ∀ part ∈ stagedA.uploadParts, part.state = .active ∧ stagedA.Apart part.fileID ∧
      stagedA.BlocksIn part.fileID .live := by
  have active : ∀ part ∈ stagedA.uploadParts, part.state = .active := by decide +kernel
  refine ⟨by decide +kernel, fun part member => ?_⟩
  obtain ⟨-, live, apart, -⟩ := active_part_owned stagedA_run member (active part member)
  exact ⟨active part member, apart, live⟩

end TgFile.Store
