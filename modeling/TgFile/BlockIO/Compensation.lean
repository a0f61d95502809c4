import TgFile.BlockIO.CreateFile

/-! # A File that is not finished leaves no live block

Whatever step of `CreateFile` fails, the blocks that were uploaded are either recorded, and then
handed to the block-delete worker, or passed to `DeleteBlocks`.  The loop keeps this apart: a part
that succeeds adds both of its rows, and one that fails adds none. -/

namespace TgFile.Storage

open Go

variable {β σ : Type}

/-- The block has its part row and its delete state. -/
def Recorded (st : Storage β) (fileID partID : Nat) (result : UploadResult) : Prop :=
  (∃ part ∈ st.store.parts, part.fileID = fileID ∧ part.filePartID = partID ∧
    part.fileKey = result.fileKey) ∧
  ∃ row ∈ st.store.deleteStates, row.fileID = fileID ∧ row.filePartID = partID ∧
    row.deleteRef = result.deleteRef

/-- Every complete upload is recorded or was passed to `DeleteBlocks`, and every part row has its
delete state. -/
structure Settled (st : Storage β) (fileID : Nat) : Prop where
  uploads : ∀ partID result, (partID, result) ∈ st.uploads →
    st.Recorded fileID partID result ∨ result.deleteRef ∈ st.deletes
  paired : ∀ part ∈ st.store.parts, part.fileID = fileID →
    ∃ row ∈ st.store.deleteStates, row.fileID = fileID ∧ row.filePartID = part.filePartID

/-- What the loop keeps of the storage that it started with. -/
structure Tracks (start st : Storage β) (fileID : Nat) : Prop extends Settled st fileID where
  store : ∃ parts deleteStates,
    st.store = { start.store with parts := parts, deleteStates := deleteStates }
  live : ∀ row ∈ st.store.deleteStates, row.fileID = fileID → row.state = .live

/-- A File that was given up. -/
structure Compensated (st : Storage β) (fileID : Nat) : Prop extends Settled st fileID where
  notReady : ∀ file ∈ st.store.files, file.fileID = fileID → file.fileState ≠ .ready
  pending : ∀ row ∈ st.store.deleteStates, row.fileID = fileID → row.state = .pending

variable {env : Env} {io : BlockIO β} {md5 : List Byte → Text} {faults : Faults} {now size : Int}
  {fileID partID : Nat} {read : ReadFn σ} {start st : Storage β}

/-- Rows that are added keep what is recorded. -/
lemma Recorded.mono {st' : Storage β} {result : UploadResult}
    (recorded : st.Recorded fileID partID result) (parts : st.store.parts ⊆ st'.store.parts)
    (deleteStates : st.store.deleteStates ⊆ st'.store.deleteStates) :
    st'.Recorded fileID partID result := by
  obtain ⟨⟨part, inParts, same⟩, row, inStates, matching⟩ := recorded
  exact ⟨⟨part, parts inParts, same⟩, row, deleteStates inStates, matching⟩

lemma Tracks.part (tracks : Tracks start st fileID) {r : σ}
    {result : Except Err Unit × σ × Storage β}
    (outcome : PartOutcome env io md5 now fileID partID read r st result) :
    Tracks start result.2.2 fileID := by
  cases outcome with
  | failed => exact ⟨⟨tracks.uploads, tracks.paired⟩, tracks.store, tracks.live⟩
  | @unrecorded err r' blocks upload =>
    refine ⟨⟨fun index other member => ?_, tracks.paired⟩, tracks.store, tracks.live⟩
    rcases List.mem_append.mp member with earlier | last
    · exact (tracks.uploads index other earlier).imp id (List.mem_append_left _)
    · obtain ⟨rfl, rfl⟩ := Prod.mk.inj (List.mem_singleton.mp last)
      exact .inr (List.mem_append_right _ List.mem_cons_self)
  | @recorded r' seen count blocks upload run =>
    refine ⟨⟨fun index other member => ?_, fun part member own => ?_⟩, ?_, fun row member own => ?_⟩
    · rcases List.mem_append.mp member with earlier | last
      · exact (tracks.uploads index other earlier).imp
          (fun recorded => recorded.mono (List.subset_append_left _ _)
            (List.subset_append_left _ _)) id
      · obtain ⟨rfl, rfl⟩ := Prod.mk.inj (List.mem_singleton.mp last)
        exact .inl ⟨⟨_, List.mem_append_right _ List.mem_cons_self, rfl, rfl, rfl⟩,
          _, List.mem_append_right _ List.mem_cons_self, rfl, rfl, rfl⟩
    · rcases List.mem_append.mp member with earlier | last
      · obtain ⟨row, inStates, matching⟩ := tracks.paired part earlier own
        exact ⟨row, List.mem_append_left _ inStates, matching⟩
      · obtain rfl := List.mem_singleton.mp last
        exact ⟨_, List.mem_append_right _ List.mem_cons_self, rfl, rfl⟩
    · obtain ⟨parts, deleteStates, same⟩ := tracks.store
      simp only [withPart, same]
      exact ⟨_, _, rfl⟩
    · rcases List.mem_append.mp member with earlier | last
      · exact tracks.live row earlier own
      · obtain rfl := List.mem_singleton.mp last
        rfl

lemma Tracks.parts (tracks : Tracks start st fileID) (parts : Nat) {uploadedSize : Int} {r : σ} :
    Tracks start (createFileParts env io md5 faults now fileID size read parts partID uploadedSize
      r st).2.2 fileID := by
  induction parts generalizing partID uploadedSize r st with
  | zero => exact tracks
  | succ parts ih =>
    let counted : (σ × Nat) × Nat := ((r, (min io.maxFileSize (size - uploadedSize)).toNat), 0)
    have after := tracks.part (createFilePart_outcome counted st :
      PartOutcome env io md5 now fileID partID (countRead (limitRead read)) counted st
        (createFilePart env io md5 faults now fileID partID _ counted st))
    simp only [createFileParts]
    generalize createFilePart env io md5 faults now fileID partID _ _ st = result at after ⊢
    obtain ⟨outcome, counted, st'⟩ := result
    cases outcome with
    | error err => exact after
    | ok done =>
      simp only
      split_ifs with short
      · exact after
      · exact ih after

/-- A File that could not be filled was not finished either. -/
lemma Tracks.fill (tracks : Tracks start st fileID) {err : Err} {r r' : σ} {st' : Storage β}
    (failed : fillFile env io md5 faults now fileID size read r st = (.error err, r', st')) :
    Tracks start st' fileID := by
  unfold fillFile at failed
  cases counted : Store.calculateFileBlockCount size io.maxFileSize with
  | error other =>
    rw [counted] at failed
    obtain ⟨-, -, rfl⟩ := failed
    exact tracks
  | ok blockCount =>
    rw [counted] at failed
    have after : Tracks start (createFileParts env io md5 faults now fileID size read
        blockCount.toNat 0 0 r st).2.2 fileID := tracks.parts _
    simp only at failed
    generalize createFileParts env io md5 faults now fileID size read blockCount.toNat 0 0 r st =
      result at after failed
    obtain ⟨outcome, r₁, st₁⟩ := result
    cases outcome with
    | error other =>
      obtain ⟨-, -, rfl⟩ := failed
      exact after
    | ok done =>
      simp only at failed
      cases finished : statement faults.finish
          (.ok (st₁.store.finishFileCreate now fileID)) with
      | error other =>
        rw [finished] at failed
        obtain ⟨-, -, rfl⟩ := failed
        exact after
      | ok store =>
        rw [finished] at failed
        cases failed

/-- The draft of a File, as `discardFile` finds it. -/
structure Draft (s : Store) (fileID : Nat) : Prop where
  stored : ∃ file, s.readStoredFile fileID = some file ∧ file.fileLayout = .physical
  notReady : ∀ file ∈ s.files, file.fileID = fileID → file.fileState ≠ .ready
  unreferenced : s.fileHasLiveReference fileID = false

lemma Unused.draft {s s' : Store} {id : Nat} (unused : Unused s s.nextFileID)
    (run : s.createFileDraft env now size = .ok (s', id)) : id = s.nextFileID ∧ Draft s' id := by
  obtain ⟨rfl, count, -, rfl⟩ := createFileDraft_ok run
  refine ⟨rfl, ⟨_, find?_draftFile now size count unused.files, rfl⟩, fun file member own => ?_,
    unused.unreferenced⟩
  rcases List.mem_append.mp member with earlier | last
  · exact absurd own (unused.files file earlier)
  · obtain rfl := List.mem_singleton.mp last
    exact fun ready => by cases ready

lemma Tracks.discard (tracks : Tracks start st fileID) (draft : Draft start.store fileID)
    (discards : faults.discard = false) : Compensated
      (discardFile faults now fileID st) fileID := by
  obtain ⟨parts, deleteStates, same⟩ := tracks.store
  obtain ⟨file, stored, physical⟩ := draft.stored
  have marked : st.store.discardUnpublishedFile fileID
    now = .ok (st.store.markPending fileID now) := by
    have found : st.store.readStoredFile fileID = some file := by rw [same]; exact stored
    have free : st.store.fileHasLiveReference fileID = false := by
      rw [same]
      exact draft.unreferenced
    simp only [Store.discardUnpublishedFile, Store.markFileTreePendingIfUnreferenced,
      Store.markTree, free, found, physical, Bool.false_eq_true, if_false]
  have kept : ∀ row ∈ st.store.deleteStates,
      ∃ marked ∈ (st.store.markPending fileID now).deleteStates, marked.fileID = row.fileID ∧
        marked.filePartID = row.filePartID ∧ marked.deleteRef = row.deleteRef := by
    intro row member
    refine ⟨_, List.mem_map.mpr ⟨row, member, rfl⟩, ?_⟩
    split_ifs <;> exact ⟨rfl, rfl, rfl⟩
  have discarded : discardFile faults now fileID st =
      { st with store := st.store.markPending fileID now } := by
    rw [discardFile, statement, discards, marked]
    rfl
  rw [discarded]
  refine ⟨⟨fun index upload member => ?_, fun part member own => ?_⟩, fun found member own => ?_,
    fun row member own => ?_⟩
  · refine (tracks.uploads index upload member).imp (fun recorded => ?_) id
    obtain ⟨part, row, inStates, sameFile, samePart, sameRef⟩ := recorded
    obtain ⟨marked, inMarked, file', part', ref'⟩ := kept row inStates
    exact ⟨part, marked, inMarked, file'.trans sameFile, part'.trans samePart, ref'.trans sameRef⟩
  · obtain ⟨row, inStates, sameFile, samePart⟩ := tracks.paired part member own
    obtain ⟨marked, inMarked, file', part', -⟩ := kept row inStates
    exact ⟨marked, inMarked, file'.trans sameFile, part'.trans samePart⟩
  · have files : st.store.files = start.store.files := by rw [same]
    exact draft.notReady found (files ▸ member) own
  · obtain ⟨before, inStates, rfl⟩ := List.mem_map.mp member
    split_ifs at own ⊢ with hit
    · rfl
    · exact absurd ⟨own, tracks.live before inStates own⟩ hit

/-- **When `CreateFile` returns an error, nothing of the File stays.**  There is no ready File with
the id of the draft, the delete states of the recorded blocks are pending, and every other block
that was uploaded has been passed to `DeleteBlocks`; whatever step failed, with any reader and any
backend, provided that the statement that discards the File succeeds. -/
theorem createFile_compensates (env : Env) (io : BlockIO β) (md5 : List Byte → Text)
    (now size : Int)
    (read : ReadFn σ) (r : σ) {faults : Faults} {st st' : Storage β} {err : Err} {r' : σ}
    (unused : Unused st.store st.store.nextFileID) (first : st.uploads = [])
    (discards : faults.discard = false)
    (failed : createFile env io md5 faults now size read r st = (.error err, r', st')) :
    Compensated st' st.store.nextFileID := by
  have untouched : Compensated st st.store.nextFileID :=
    ⟨⟨fun index result member => (by rw [first] at member; cases member),
      fun part member own => absurd own (unused.parts part member)⟩,
      fun file member own => absurd own (unused.files file member),
      fun row member own => absurd own (unused.deleteStates row member)⟩
  unfold createFile at failed
  split_ifs at failed with drafted
  · obtain ⟨-, -, rfl⟩ := failed
    exact untouched
  · cases drafts : st.store.createFileDraft (envOf env io) now size with
    | error other =>
      rw [drafts] at failed
      obtain ⟨-, -, rfl⟩ := failed
      exact untouched
    | ok result =>
      obtain ⟨store, fileID⟩ := result
      obtain ⟨rfl, draft⟩ := unused.draft drafts
      obtain ⟨-, count, -, same⟩ := createFileDraft_ok drafts
      have tracks : Tracks { st with store := store } { st with store := store }
          st.store.nextFileID := by
        subst same
        exact ⟨⟨untouched.uploads, untouched.paired⟩, ⟨_, _, rfl⟩,
          fun row member own => absurd own (unused.deleteStates row member)⟩
      simp only [drafts] at failed
      cases filled : fillFile env io md5 faults now st.store.nextFileID size read r
          { st with store := store } with
      | mk outcome after =>
        rw [filled] at failed
        cases outcome with
        | ok done => cases failed
        | error other =>
          obtain ⟨-, -, rfl⟩ := failed
          rw [if_neg unused.positive.ne']
          exact (tracks.fill filled).discard draft discards

open BlockIO

/-- The first block is recorded and pending, the second one was deleted at once. -/
theorem secondPart_compensated :
    ∃ err r' st', createFile .plain (newMemBackend 2 8 1) (fun _ => [])
        { noFaults with record := (· = 1) } 0 3 Reader.read fourBytes emptyStorage =
        (.error err, r', st') ∧
      Compensated st' 1 ∧ st'.store.parts.map FilePart.filePartID = [0] ∧
        st'.deletes.length = 1 := by
  have failure : (createFile .plain (newMemBackend 2 8 1) (fun _ => [])
      { noFaults with record := (· = 1) } 0 3 Reader.read fourBytes emptyStorage).1 =
      .error .internal := by rfl
  exact ⟨_, _, _, Prod.ext failure rfl, createFile_compensates .plain _ _ 0 3 _ _
    unused_emptyStorage rfl rfl (Prod.ext failure rfl), rfl, rfl⟩

end TgFile.Storage
