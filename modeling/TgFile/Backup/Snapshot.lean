import TgFile.Backup.Export
import TgFile.Store.Linking

/-! # What a snapshot changes

Recording missing block sizes and pinning Files is all a snapshot does, and a File with blocks is
pinned only when none of them is handed to the worker. -/

namespace TgFile.Store

open Go Result

variable {env : Env} {s s' : Store} {now : Int} {fileID : Nat}

/-- Block sizes are recorded. -/
def Resizes (s s' : Store) : Prop :=
  ∃ f : FilePart → FilePart,
    (∀ row, (f row).fileID = row.fileID ∧ (f row).filePartID = row.filePartID) ∧
      s' = { s with parts := s.parts.map f }

lemma Resizes.refl (s : Store) : Resizes s s := ⟨id, fun _ => ⟨rfl, rfl⟩, by simp⟩

lemma Resizes.trans {s₁ : Store} (left : Resizes s s₁) (right : Resizes s₁ s') :
    Resizes s s' := by
  obtain ⟨f, keepsF, rfl⟩ := left
  obtain ⟨g, keepsG, rfl⟩ := right
  exact ⟨g ∘ f, fun row => ⟨(keepsG _).1.trans (keepsF row).1, (keepsG _).2.trans (keepsF row).2⟩,
    by simp⟩

lemma materializePartSize_resizes (s : Store) (fileID partID : Nat) (size : Int) :
    Resizes s (s.materializePartSize fileID partID size) :=
  ⟨_, fun row => by split_ifs <;> exact ⟨rfl, rfl⟩, rfl⟩

lemma scanBackupParts_resizes {file : StoredFile} {rows : List FilePart} {index : Nat}
    {total : Int} {result : Nat × Int}
    (run : scanBackupParts env file index total s rows = .ok (s', result)) : Resizes s s' := by
  induction rows generalizing index total s with
  | nil =>
    obtain ⟨rfl, -⟩ := Prod.mk.inj (Except.ok.inj run)
    exact .refl s
  | cons row rows ih =>
    simp only [scanBackupParts, bind_ok] at run
    obtain ⟨_, -, _, -, rest⟩ := run
    refine Resizes.trans ?_ (ih rest)
    split_ifs
    · exact materializePartSize_resizes _ _ _ _
    · exact .refl s

/-- The File has no block that is handed to the worker, as far as blocks have delete states. -/
def Exportable (s : Store) (fileID : Nat) : Prop :=
  ∀ part ∈ s.filePartRows fileID, ∀ row ∈ s.partDeleteStates part, row.state = .live

lemma ensureBackupPhysicalFileExportable_ok {u : Unit}
    (run : s.ensureBackupPhysicalFileExportable fileID = .ok u) : s.Exportable fileID := by
  intro part member row inRows
  have listed : row ∈ (s.filePartRows fileID).flatMap s.partDeleteStates :=
    List.mem_flatMap.mpr ⟨part, member, inRows⟩
  simp only [ensureBackupPhysicalFileExportable, List.ne_nil_of_mem listed, if_false,
    require_ok] at run
  exact (run.2 row listed).1

lemma Resizes.exportable (resizes : Resizes s s') :
    s'.Exportable fileID ↔ s.Exportable fileID := by
  obtain ⟨f, keeps, rfl⟩ := resizes
  have part : ∀ row, partDeleteStates { s with parts := s.parts.map f } (f row) =
      s.partDeleteStates row := fun row => by simp [partDeleteStates, keeps row]
  constructor
  · intro after row member
    have listed : f row ∈ filePartRows { s with parts := s.parts.map f } fileID := by
      simp only [filePartRows, List.mem_filter, decide_eq_true_eq] at member ⊢
      exact ⟨List.mem_map_of_mem member.1, by rw [(keeps row).1]; exact member.2⟩
    rw [← part]
    exact after (f row) listed
  · intro before row member
    simp only [filePartRows, List.mem_filter, List.mem_map, decide_eq_true_eq] at member
    obtain ⟨⟨x, listed, rfl⟩, same⟩ := member
    rw [part]
    refine before x ?_
    simp only [filePartRows, List.mem_filter, decide_eq_true_eq]
    exact ⟨listed, by rw [← (keeps x).1]; exact same⟩

lemma loadBackupPhysicalFile_ok {file : StoredFile}
    (run : s.loadBackupPhysicalFile env file = .ok s') :
    Resizes s s' ∧ s.Exportable file.fileID := by
  simp only [loadBackupPhysicalFile, bind_ok, pure_ok] at run
  obtain ⟨_, exportable, ⟨s₁, count, total⟩, scanned, _, -, rfl⟩ := run
  exact ⟨scanBackupParts_resizes scanned, ensureBackupPhysicalFileExportable_ok exportable⟩

/-- What loading Files has done: sizes are recorded, and every loaded File is ready, and when it
is physical it can be exported. -/
structure Loads (s s' : Store) (loaded : List Nat) : Prop where
  resizes : Resizes s s'
  ready : ∀ fileID ∈ loaded, ∃ file, s.readStoredFile fileID = some file ∧
    file.fileState = .ready ∧ (file.fileLayout = .physical → s.Exportable fileID)

lemma Resizes.readStoredFile (resizes : Resizes s s') :
    s'.readStoredFile fileID = s.readStoredFile fileID := by
  obtain ⟨f, -, rfl⟩ := resizes
  rfl

lemma loadTree_loads {depth : Nat} {t t' : Store} {loaded loaded' : List Nat}
    (before : Loads s t loaded) (run : loadTree env depth (t, loaded) fileID = .ok (t', loaded')) :
    Loads s t' loaded' := by
  induction depth generalizing fileID t t' loaded loaded' with
  | zero => cases run
  | succ depth ih =>
    rw [loadTree] at run
    split_ifs at run with present
    · obtain ⟨rfl, rfl⟩ := Prod.mk.inj (Except.ok.inj run)
      exact before
    · cases stored : t.readStoredFile fileID with
      | none =>
        rw [stored] at run
        cases run
      | some file =>
        simp only [stored, bind_ok, require_ok] at run
        obtain ⟨_, ready, rest⟩ := run
        have atStart : s.readStoredFile fileID = some file := by
          rw [← before.resizes.readStoredFile, stored]
        have same : file.fileID = fileID := (readStoredFile_ok stored).2
        cases layout : file.fileLayout with
        | physical =>
          simp only [layout, bind_ok, pure_ok] at rest
          obtain ⟨t₁, physical, result⟩ := rest
          obtain ⟨rfl, rfl⟩ := Prod.mk.inj result
          obtain ⟨resizes, exportable⟩ := loadBackupPhysicalFile_ok physical
          refine ⟨before.resizes.trans resizes, fun other member => ?_⟩
          rcases List.mem_append.mp member with early | last
          · exact before.ready other early
          · obtain rfl := List.mem_singleton.mp last
            rw [same] at exportable
            exact ⟨file, atStart, ready, fun _ => before.resizes.exportable.mp exportable⟩
        | composite =>
          simp only [layout, bind_ok] at rest
          obtain ⟨_, -, loop⟩ := rest
          have start : Loads s t (loaded ++ [fileID]) := by
            refine ⟨before.resizes, fun other member => ?_⟩
            rcases List.mem_append.mp member with early | last
            · exact before.ready other early
            · obtain rfl := List.mem_singleton.mp last
              refine ⟨file, atStart, ready, fun physical => ?_⟩
              rw [layout] at physical
              cases physical
          refine foldlM_ok (fun state : Store × List Nat => Loads s state.1 state.2) ?_ start loop
          intro source _ state state' holds pass
          exact ih holds pass

lemma foldlM_insertPin {jobID : Text} {fileIDs : List Nat} {pins pins' : List ExportPin}
    (run : fileIDs.foldlM (fun rows fileID => Sqlite.insertRow ExportPin.clash rows
      ⟨jobID, fileID, now⟩) pins = .ok pins') :
    pins' = pins ++ fileIDs.map fun fileID => ⟨jobID, fileID, now⟩ := by
  induction fileIDs generalizing pins with
  | nil =>
    obtain rfl := pure_ok.mp run
    simp
  | cons fileID fileIDs ih =>
    rw [List.foldlM_cons, bind_ok] at run
    obtain ⟨middle, first, rest⟩ := run
    rw [ih rest, (Sqlite.insertRow_ok.mp first).2]
    simp

/-- **A snapshot** records block sizes and pins Files that it may read. -/
lemma createBackupSnapshot_ok {jobID scope : Text}
    (run : s.createBackupSnapshot env now jobID scope = .ok s') :
    ∃ t loaded, Loads s t loaded ∧
      s' = { t with pins := t.pins ++ (Sqlite.orderBy id loaded).map fun fileID =>
        ⟨jobID, fileID, now⟩ } := by
  simp only [createBackupSnapshot, pinFiles, bind_ok, pure_ok] at run
  obtain ⟨_, -, selected, -, ⟨t, loaded⟩, loop, pins, pinned, rfl⟩ := run
  refine ⟨t, loaded, ?_, by rw [foldlM_insertPin pinned]⟩
  have start : Loads s s [] := ⟨.refl s, by simp⟩
  refine foldlM_ok (fun state : Store × List Nat => Loads s state.1 state.2) ?_ start loop
  intro entry _ state state' holds pass
  unfold loadMapping at pass
  cases ref : entry.refData with
  | none =>
    rw [ref] at pass
    cases pass
  | some fileID =>
    simp only [ref, bind_ok] at pass
    obtain ⟨_, -, loads⟩ := pass
    exact loadTree_loads holds loads

end TgFile.Store
