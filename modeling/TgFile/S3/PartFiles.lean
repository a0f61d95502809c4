import TgFile.S3.Selection
import TgFile.System.Effects

/-! # The Files of parts

A part's File is a physical File that no entry maps and that no segment reads.  While the part is
active, it is the only reference to the File; when it goes, the File is handed over. -/

namespace TgFile.Store

open Go Go.Path Result WebDAV

variable {env : Env} {s s' : Store} {now : Int} {fileID : Nat} {hit : List Nat}

lemma mapped_iff (valid : s.dir.Valid) : s.mapped fileID = true ↔ s.dir.Maps fileID := by
  simp only [mapped, List.any_eq_true, decide_eq_true_eq]
  constructor
  · rintro ⟨e, member, holds⟩
    obtain ⟨cs, found⟩ := valid.mem_entries.mp member
    exact ⟨cs, _, Directory.view_eq_some.mpr ⟨e, found, rfl⟩, holds⟩
  · rintro ⟨q, e, shown, holds⟩
    obtain ⟨x, found, rfl⟩ := Directory.view_eq_some.mp shown
    exact ⟨x, valid.mem_entries.mpr ⟨q, found⟩, holds⟩

/-! ## Blocks -/

/-- The delete states of the blocks of a File. -/
def blockStates (s : Store) (fileID : Nat) : List DeleteState :=
  (s.filePartRows fileID).flatMap s.partDeleteStates

/-- All blocks of the File are in a state. -/
def BlocksIn (s : Store) (fileID : Nat) (state : BlockState) : Prop :=
  ∀ row ∈ s.blockStates fileID, row.state = state

lemma markRow_ids (hit : List Nat) (row : DeleteState) :
    (markRow now hit row).fileID = row.fileID ∧
      (markRow now hit row).filePartID = row.filePartID := by
  unfold markRow
  split_ifs <;> exact ⟨rfl, rfl⟩

/-- The delete states of a File after some Files were handed over. -/
lemma mem_blockStates_markRows {row : DeleteState} :
    row ∈ (s.markRows hit now).blockStates fileID ↔
      ∃ old ∈ s.blockStates fileID, old.fileID = fileID ∧ markRow now hit old = row := by
  have own : ∀ part ∈ s.filePartRows fileID, part.fileID = fileID := fun part member =>
    of_decide_eq_true (List.mem_filter.mp member).2
  simp only [blockStates, List.mem_flatMap, partDeleteStates, List.mem_filter, decide_eq_true_eq]
  constructor
  · rintro ⟨part, member, inRows, file, number⟩
    obtain ⟨old, inOld, rfl⟩ := List.mem_map.mp inRows
    rw [(markRow_ids hit old).1] at file
    rw [(markRow_ids hit old).2] at number
    exact ⟨old, ⟨part, member, inOld, file, number⟩, file.trans (own part member), rfl⟩
  · rintro ⟨old, ⟨part, member, inOld, file, number⟩, -, rfl⟩
    refine ⟨part, member, List.mem_map.mpr ⟨old, inOld, rfl⟩, ?_, ?_⟩
    · rw [(markRow_ids hit old).1, file]
    · rw [(markRow_ids hit old).2, number]

/-- Handing a File over makes its live blocks pending. -/
lemma BlocksIn.pending_of_hit (live : s.BlocksIn fileID .live) (inHit : fileID ∈ hit) :
    (s.markRows hit now).BlocksIn fileID .pending := by
  intro row member
  obtain ⟨old, inOld, own, rfl⟩ := mem_blockStates_markRows.mp member
  rw [markRow, if_pos ⟨by rwa [own], live old inOld⟩]

lemma BlocksIn.pending_markRows (pending : s.BlocksIn fileID .pending) :
    (s.markRows hit now).BlocksIn fileID .pending := by
  intro row member
  obtain ⟨old, inOld, -, rfl⟩ := mem_blockStates_markRows.mp member
  rw [markRow, if_neg]
  · exact pending old inOld
  · rw [pending old inOld]
    rintro ⟨-, live⟩
    cases live

/-- The blocks of a File that is not handed over stay as they are. -/
lemma BlocksIn.of_notMem {state : BlockState} (blocks : s.BlocksIn fileID state)
    (notHit : fileID ∉ hit) : (s.markRows hit now).BlocksIn fileID state := by
  intro row member
  obtain ⟨old, inOld, own, rfl⟩ := mem_blockStates_markRows.mp member
  rw [markRow, if_neg fun both => notHit (own ▸ both.1)]
  exact blocks old inOld

/-! ## Parts -/

/-- A ready physical File that no entry maps and no segment reads. -/
structure Apart (s : Store) (fileID : Nat) : Prop where
  stored : ∃ file, s.readStoredFile fileID = some file ∧ file.fileState = .ready ∧
    file.fileLayout = .physical
  unmapped : s.mapped fileID = false
  noSource : ∀ segment ∈ s.segments, segment.sourceFileID ≠ fileID

lemma Apart.layout (apart : s.Apart fileID) : s.layoutOf fileID = some .physical := by
  obtain ⟨file, found, -, physical⟩ := apart.stored
  rw [layoutOf, found, Option.map_some, physical]

lemma Apart.lt_next (apart : s.Apart fileID) (sound : Sound s) : fileID < s.nextFileID := by
  obtain ⟨file, found, -⟩ := apart.stored
  have own : file.fileID = fileID := by simpa using List.find?_some found
  rw [← own]
  exact sound.bounded file (List.mem_of_find?_eq_some found)

lemma Apart.of_same (apart : s.Apart fileID) (files : s'.files = s.files) (dir : s'.dir = s.dir)
    (segments : s'.segments = s.segments) : s'.Apart fileID where
  stored := by
    rw [readStoredFile, files]
    exact apart.stored
  unmapped := by
    rw [mapped, dir]
    exact apart.unmapped
  noSource := by
    rw [segments]
    exact apart.noSource

/-- The only reference to such a File can be an active part of an active upload. -/
lemma Apart.unreferenced (apart : s.Apart fileID) (unpinned : s.pins = [])
    (inactive : ∀ part ∈ s.uploadParts, part.fileID = fileID → part.state ≠ .active) :
    s.fileHasLiveReference fileID = false := by
  have noPin : (s.pins.any fun pin => pin.fileID = fileID) = false := by rw [unpinned]; rfl
  have noSegment : (s.segments.any fun segment => segment.sourceFileID = fileID ∧
      s.mapped segment.fileID) = false := List.any_eq_false.mpr fun segment member =>
    by simpa using fun same => absurd same (apart.noSource segment member)
  have noPart : (s.uploadParts.any fun part =>
      part.fileID = fileID ∧ part.state = .active ∧ s.uploadActive part.uploadID) = false :=
    List.any_eq_false.mpr fun part member => by
      simpa using fun same active => absurd active (inactive part member same)
  rw [fileHasLiveReference, noPin, apart.unmapped, noSegment, noPart]
  rfl

lemma fileHasLiveReference_of_part {part : MultipartPart} (member : part ∈ s.uploadParts)
    (active : part.state = .active) (upload : s.uploadActive part.uploadID = true) :
    s.fileHasLiveReference part.fileID = true := by
  have found : (s.uploadParts.any fun other =>
      other.fileID = part.fileID ∧ other.state = .active ∧ s.uploadActive other.uploadID) = true :=
    List.any_eq_true.mpr ⟨part, member, decide_eq_true ⟨rfl, active, upload⟩⟩
  rw [fileHasLiveReference, found, Bool.or_true]

/-- A File that no part holds any more and that waits for the worker. -/
structure Surrendered (s : Store) (fileID : Nat) : Prop where
  apart : s.Apart fileID
  pending : s.BlocksIn fileID .pending
  discarded : ∀ part ∈ s.uploadParts, part.fileID = fileID → part.state = .discarded

lemma Surrendered.unreferenced (surrendered : s.Surrendered fileID) (unpinned : s.pins = []) :
    s.fileHasLiveReference fileID = false :=
  surrendered.apart.unreferenced unpinned fun part member own => by
    rw [surrendered.discarded part member own]
    decide

end TgFile.Store
