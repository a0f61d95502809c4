import TgFile.Store.References

/-! # What the check before a link finds -/

namespace TgFile.Store

open Go Result

variable {s s' : Store}

lemma checkSegments_congr (files : s'.files = s.files)
    (parts : s'.parts = s.parts) (deleteStates : s'.deleteStates = s.deleteStates)
    (finalSize : Int) (segments : List Segment) (index : Nat) (total : Int) :
    s'.checkSegments finalSize index total segments =
      s.checkSegments finalSize index total segments := by
  cases s
  cases s'
  subst files parts deleteStates
  induction segments generalizing index total with
  | nil => rfl
  | cons segment rest ih =>
    simp only [checkSegments, ih]
    rfl

/-- The check reads the Files, their parts with delete states, and the segments. -/
lemma ensureFileTreeCanBeLinked_congr (files : s'.files = s.files) (parts : s'.parts = s.parts)
    (deleteStates : s'.deleteStates = s.deleteStates) (segments : s'.segments = s.segments)
    (fileID : Nat) : s'.ensureFileTreeCanBeLinked fileID = s.ensureFileTreeCanBeLinked fileID := by
  simp only [ensureFileTreeCanBeLinked, ensureCompositeFileLive, ensurePhysicalFileLive,
    readStoredFile, segmentsOf, files, deleteStates, segments,
    checkSegments_congr files parts deleteStates]

/-- Every delete state of the File is `live`. -/
def AllLive (s : Store) (fileID : Nat) : Prop :=
  ∀ row ∈ s.deleteStates, row.fileID = fileID → row.state = .live

/-- The File is ready, and no block of it or of its sources is handed to the worker. -/
structure Linkable (s : Store) (fileID : Nat) (record : StoredFile) : Prop where
  stored : s.readStoredFile fileID = some record
  ready : record.fileState = .ready
  own : record.fileLayout = .physical → s.AllLive fileID
  sources : record.fileLayout = .composite → ∀ segment ∈ s.segments, segment.fileID = fileID →
    s.AllLive segment.sourceFileID

lemma readStoredFile_ok {fileID : Nat} {record : StoredFile}
    (stored : s.readStoredFile fileID = some record) : record ∈ s.files ∧ record.fileID = fileID :=
  ⟨List.mem_of_find?_eq_some stored, by simpa using List.find?_some stored⟩

lemma checkSegments_live {finalSize : Int} {segments : List Segment} {index : Nat} {total : Int}
    {result : Nat × Int} (run : s.checkSegments finalSize index total segments = .ok result) :
    ∀ segment ∈ segments, s.AllLive segment.sourceFileID := by
  induction segments generalizing index total with
  | nil => exact fun segment member => nomatch member
  | cons first rest ih =>
    simp only [checkSegments, bind_ok, ensurePhysicalFileLive, require_ok] at run
    obtain ⟨_, -, _, live, _, -, later⟩ := run
    intro segment member
    rcases List.mem_cons.mp member with rfl | inRest
    · exact live
    · exact ih later segment inRest

lemma ensureFileTreeCanBeLinked_ok {fileID : Nat} {u : Unit}
    (run : s.ensureFileTreeCanBeLinked fileID = .ok u) : ∃ record, s.Linkable fileID record := by
  unfold ensureFileTreeCanBeLinked at run
  cases stored : s.readStoredFile fileID with
  | none =>
    rw [stored] at run
    cases run
  | some record =>
    simp only [stored, bind_ok, require_ok] at run
    obtain ⟨_, ready, rest⟩ := run
    refine ⟨record, stored, ready, fun physical => ?_, fun composite segment member same => ?_⟩
    · simp only [physical, ensurePhysicalFileLive, require_ok] at rest
      exact rest
    · simp only [composite, ensureCompositeFileLive, bind_ok] at rest
      obtain ⟨checked, walked, -⟩ := rest
      refine checkSegments_live walked segment ?_
      rw [(readStoredFile_ok stored).2, segmentsOf, Sqlite.mem_orderBy]
      simp [member, same]

end TgFile.Store
