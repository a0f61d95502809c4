import Mathlib.Data.List.Dedup
import TgFile.Store.References

/-! # The audit of references

`maintenance/audit.go`: the two counts that compare references with delete states.  The audit asks
for references in its own statements.  These know no export pins, and the second one takes a
segment of any composite File, mapped or not, for a reference. -/

namespace TgFile.Store

open Go

variable (s : Store)

/-- A segment of a mapped composite File has the File as its source. -/
def sourceOfMapped (fileID : Nat) : Bool :=
  s.segments.any fun segment => segment.sourceFileID = fileID ∧ s.mapped segment.fileID

/-- An active part of an active upload has the File. -/
def inActiveUpload (fileID : Nat) : Bool :=
  s.uploadParts.any fun part =>
    part.fileID = fileID ∧ part.state = .active ∧ s.uploadActive part.uploadID

/-- A segment of any composite File has the File as its source. -/
def sourceOfAny (fileID : Nat) : Bool :=
  s.segments.any fun segment => segment.sourceFileID = fileID

/-- A job pins the File. -/
def pinned (fileID : Nat) : Bool := s.pins.any fun pin => pin.fileID = fileID

/-- The references that the first count asks for. -/
def auditReferenced (fileID : Nat) : Bool :=
  s.mapped fileID || s.sourceOfMapped fileID || s.inActiveUpload fileID

/-- `NonLiveReferencedFileCount`: `COUNT(DISTINCT state.file_id)`. -/
def nonLiveReferencedFileCount : Nat :=
  ((s.deleteStates.filter fun row => row.state ≠ .live ∧ s.auditReferenced row.fileID).map
    DeleteState.fileID).dedup.length

/-- Some block of the File is live. -/
def hasLiveBlock (fileID : Nat) : Bool :=
  s.deleteStates.any fun row => row.fileID = fileID ∧ row.state = .live

/-- The Files of blocks that have a live one. -/
def livePhysicalFiles : List StoredFile :=
  s.files.filter fun file => file.fileLayout = .physical ∧ s.hasLiveBlock file.fileID

/-- `RetainedUnreferencedLiveFile`: `COUNT(*)` over the Files. -/
def retainedUnreferencedLiveFile : Nat :=
  s.livePhysicalFiles.countP fun file =>
    !(s.mapped file.fileID || s.sourceOfAny file.fileID || s.inActiveUpload file.fileID)

/-! ## What the counts stand for -/

/-- The Files with a block that is not live. -/
def nonLiveFiles : List Nat :=
  ((s.deleteStates.filter fun row => row.state ≠ .live).map DeleteState.fileID).dedup

/-- The table of Files has the File. -/
def recorded (fileID : Nat) : Bool := (s.readStoredFile fileID).isSome

/-- The count of referenced Files with a block that is not live. -/
def referencedNonLiveFiles : Nat :=
  s.nonLiveFiles.countP fun fileID => s.recorded fileID && s.fileHasLiveReference fileID

/-- The count of live Files that nothing refers to. -/
def unreferencedLiveFiles : Nat :=
  s.livePhysicalFiles.countP fun file => !s.fileHasLiveReference file.fileID

/-- Only a pin refers to the File. -/
def onlyPinned (fileID : Nat) : Bool := s.pinned fileID && !s.auditReferenced fileID

/-- Nothing refers to the File but the manifest of a composite File without a mapping. -/
def onlyInUnmapped (fileID : Nat) : Bool :=
  s.sourceOfAny fileID && !s.fileHasLiveReference fileID

variable {s} {α : Type}

lemma fileHasLiveReference_eq (fileID : Nat) :
    s.fileHasLiveReference fileID = (s.pinned fileID || s.auditReferenced fileID) := by
  simp only [fileHasLiveReference, pinned, auditReferenced, sourceOfMapped, inActiveUpload,
    Bool.or_assoc]

lemma sourceOfAny_of_mapped {fileID : Nat} (source : s.sourceOfMapped fileID = true) :
    s.sourceOfAny fileID = true := by
  simp only [sourceOfMapped, sourceOfAny, List.any_eq_true, decide_eq_true_eq] at source ⊢
  obtain ⟨segment, member, same, -⟩ := source
  exact ⟨segment, member, same⟩

/-- Two conditions hold equally often when each holds without the other equally often. -/
lemma countP_eq_iff (p q : α → Bool) (l : List α) :
    l.countP p = l.countP q ↔
      (l.countP fun x => p x && !q x) = l.countP fun x => q x && !p x := by
  have left := List.countP_eq_countP_filter_add l p q
  have right := List.countP_eq_countP_filter_add l q p
  simp only [List.countP_filter] at left right
  have both : (l.countP fun x => p x && q x) = l.countP fun x => q x && p x := by
    simp only [Bool.and_comm]
  omega

/-- The audit's distinct Files are those of the non-live blocks that it finds referenced. -/
lemma nonLiveReferencedFileCount_eq :
    s.nonLiveReferencedFileCount = s.nonLiveFiles.countP s.auditReferenced := by
  rw [nonLiveReferencedFileCount, List.countP_eq_length_filter]
  apply List.Perm.length_eq
  apply (List.perm_ext_iff_of_nodup (List.nodup_dedup _) ((List.nodup_dedup _).filter _)).mpr
  intro fileID
  simp only [List.mem_dedup, List.mem_filter, List.mem_map, decide_eq_true_eq]
  constructor
  · rintro ⟨row, ⟨member, other, referenced⟩, rfl⟩
    exact ⟨⟨row, ⟨member, other⟩, rfl⟩, referenced⟩
  · rintro ⟨⟨row, ⟨member, other⟩, rfl⟩, referenced⟩
    exact ⟨row, ⟨member, other, referenced⟩, rfl⟩

lemma referenced_eq_iff :
    s.nonLiveReferencedFileCount = s.referencedNonLiveFiles ↔
      (s.nonLiveFiles.countP fun fileID => s.auditReferenced fileID && !s.recorded fileID) =
        s.nonLiveFiles.countP fun fileID => s.recorded fileID && s.onlyPinned fileID := by
  rw [nonLiveReferencedFileCount_eq, referencedNonLiveFiles, countP_eq_iff]
  have more : ∀ fileID, (s.auditReferenced fileID &&
      !(s.recorded fileID && s.fileHasLiveReference fileID)) =
      (s.auditReferenced fileID && !s.recorded fileID) := by
    intro fileID
    rw [fileHasLiveReference_eq]
    cases s.auditReferenced fileID <;> simp
  have fewer : ∀ fileID, (s.recorded fileID && s.fileHasLiveReference fileID &&
      !s.auditReferenced fileID) = (s.recorded fileID && s.onlyPinned fileID) := by
    intro fileID
    rw [fileHasLiveReference_eq, onlyPinned]
    cases s.auditReferenced fileID <;> simp
  simp only [more, fewer]

lemma unreferenced_eq_iff :
    s.retainedUnreferencedLiveFile = s.unreferencedLiveFiles ↔
      (s.livePhysicalFiles.countP fun file =>
          s.onlyPinned file.fileID && !s.sourceOfAny file.fileID) =
        s.livePhysicalFiles.countP fun file => s.onlyInUnmapped file.fileID := by
  rw [retainedUnreferencedLiveFile, unreferencedLiveFiles, countP_eq_iff]
  have more : ∀ fileID, (!(s.mapped fileID || s.sourceOfAny fileID || s.inActiveUpload fileID) &&
      !!s.fileHasLiveReference fileID) = (s.onlyPinned fileID && !s.sourceOfAny fileID) := by
    intro fileID
    have source := @sourceOfAny_of_mapped s fileID
    rw [fileHasLiveReference_eq, onlyPinned, auditReferenced]
    revert source
    cases s.sourceOfMapped fileID <;> cases s.sourceOfAny fileID <;> cases s.mapped fileID <;>
      cases s.inActiveUpload fileID <;> simp
  have fewer : ∀ fileID, (!s.fileHasLiveReference fileID &&
      !!(s.mapped fileID || s.sourceOfAny fileID || s.inActiveUpload fileID)) =
      s.onlyInUnmapped fileID := by
    intro fileID
    rw [onlyInUnmapped, fileHasLiveReference_eq, auditReferenced]
    cases s.mapped fileID <;> cases s.inActiveUpload fileID <;> simp [Bool.and_comm]
  simp only [more, fewer]

/-- The audit reports what the references of the runtime say, exactly when as many Files without
a row are referenced as Files are only pinned, and when as many live Files are only pinned as are
left to unmapped composite Files. -/
theorem audit_agrees_iff (s : Store) :
    (s.nonLiveReferencedFileCount = s.referencedNonLiveFiles ∧
        s.retainedUnreferencedLiveFile = s.unreferencedLiveFiles) ↔
      ((s.nonLiveFiles.countP fun fileID => s.auditReferenced fileID && !s.recorded fileID) =
          s.nonLiveFiles.countP fun fileID => s.recorded fileID && s.onlyPinned fileID) ∧
        (s.livePhysicalFiles.countP fun file =>
            s.onlyPinned file.fileID && !s.sourceOfAny file.fileID) =
          s.livePhysicalFiles.countP fun file => s.onlyInUnmapped file.fileID :=
  and_congr referenced_eq_iff unreferenced_eq_iff

/-- A File that an export pinned before its name was removed. -/
def exportedAndRemoved : Store :=
  { empty with
    files := [⟨1, 1, 1, .ready, .physical, 0, 0⟩]
    deleteStates := [⟨1, 0, [], [], 0, .live, 0, 0, 0, 0, [], 0, 0, 0⟩]
    pins := [⟨['j'], 1, 0⟩] }

/-- The pinned File is reported as live without a reference. -/
theorem pinned_file_reported :
    exportedAndRemoved.fileHasLiveReference 1 = true ∧
      exportedAndRemoved.retainedUnreferencedLiveFile = 1 ∧
      exportedAndRemoved.unreferencedLiveFiles = 0 := by
  decide

end TgFile.Store
