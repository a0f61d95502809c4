import TgFile.Store.Linking

/-! # What marking changes

The step that hands unreferenced Files to the worker turns `live` delete states into `pending` ones
and does nothing else.  The states it turns belong to Files without a live reference; of the Files
it is called with, it misses none. -/

namespace TgFile.Store

open Go Result

variable {s s' : Store} {now : Int} {hit : List Nat} {fileID : Nat}

variable (s)

/-- The layout of a File. -/
def layoutOf (fileID : Nat) : Option FileLayout :=
  (s.readStoredFile fileID).map StoredFile.fileLayout

/-- A delete state after the Files in `hit` were handed over. -/
def markRow (now : Int) (hit : List Nat) (row : DeleteState) : DeleteState :=
  if row.fileID ∈ hit ∧ row.state = .live then
    { row with state := .pending, nextAttemptAt := now, leaseUntil := 0, mtime := now }
  else row

/-- The store after the Files in `hit` were handed over. -/
def markRows (hit : List Nat) (now : Int) : Store :=
  { s with deleteStates := s.deleteStates.map (markRow now hit) }

lemma markRows_nil (now : Int) : s.markRows [] now = s := by
  have unchanged : markRow now [] = id := by
    funext row
    simp [markRow]
  simp [markRows, unchanged]

lemma markRow_markRow (first second : List Nat) (row : DeleteState) :
    markRow now second (markRow now first row) = markRow now (first ++ second) row := by
  unfold markRow
  by_cases live : row.state = .live
  · by_cases early : row.fileID ∈ first
    · simp [live, early]
    · simp [live, early]
  · simp [live]

lemma markRows_markRows (first second : List Nat) (now : Int) :
    (s.markRows first now).markRows second now = s.markRows (first ++ second) now := by
  simp [markRows, Function.comp_def, markRow_markRow]

lemma markPending_eq (fileID : Nat) (now : Int) :
    s.markPending fileID now = s.markRows [fileID] now := by
  have same : markRow now [fileID] = fun row =>
      if row.fileID = fileID ∧ row.state = .live then
        { row with state := .pending, nextAttemptAt := now, leaseUntil := 0, mtime := now }
      else row := by
    funext row
    simp only [markRow, List.mem_singleton]
  rw [markRows, same]
  rfl

@[simp]
lemma fileHasLiveReference_markRows (hit : List Nat) (now : Int) (fileID : Nat) :
    (s.markRows hit now).fileHasLiveReference fileID = s.fileHasLiveReference fileID := rfl

variable {s}

/-- What is handed over of a File without a live reference: its own blocks, or those of its
sources that have no live reference either. -/
structure Reaches (s : Store) (hit : List Nat) (fileID : Nat) : Prop where
  own : s.layoutOf fileID = some .physical → fileID ∈ hit
  sources : s.layoutOf fileID = some .composite → ∀ source ∈ s.compositeSourceFileIDs fileID,
    s.fileHasLiveReference source = false → s.layoutOf source = some .physical → source ∈ hit

lemma Reaches.mono {more : List Nat} (reaches : s.Reaches hit fileID) (subset : hit ⊆ more) :
    s.Reaches more fileID where
  own physical := subset (reaches.own physical)
  sources composite source member free physical :=
    subset (reaches.sources composite source member free physical)

/-- `hit` is what marking `fileIDs` hands over. -/
structure HandsOver (s : Store) (fileIDs hit : List Nat) : Prop where
  unreferenced : ∀ fileID ∈ hit, s.fileHasLiveReference fileID = false
  reached : ∀ fileID ∈ fileIDs, s.fileHasLiveReference fileID = false → s.Reaches hit fileID

lemma HandsOver.nil (s : Store) : s.HandsOver [] [] := ⟨by simp, by simp⟩

lemma HandsOver.append {first second more : List Nat} (left : s.HandsOver first hit)
    (right : s.HandsOver second more) : s.HandsOver (first ++ second) (hit ++ more) where
  unreferenced fileID member :=
    (List.mem_append.mp member).elim (left.unreferenced fileID) (right.unreferenced fileID)
  reached fileID member free := by
    rcases List.mem_append.mp member with early | late
    · exact (left.reached fileID early free).mono (List.subset_append_left _ _)
    · exact (right.reached fileID late free).mono (List.subset_append_right _ _)

/-- A loop whose passes hand Files over hands all of them over. -/
lemma foldlM_handsOver {pass : Store → Nat → Except Err Store} {fileIDs : List Nat}
    (each : ∀ fileID ∈ fileIDs, ∀ hit t, pass (s.markRows hit now) fileID = .ok t →
      ∃ more, t = s.markRows (hit ++ more) now ∧ s.HandsOver [fileID] more)
    (run : fileIDs.foldlM pass (s.markRows hit now) = .ok s') :
    ∃ more, s' = s.markRows (hit ++ more) now ∧ s.HandsOver fileIDs more := by
  induction fileIDs generalizing hit with
  | nil => exact ⟨[], by rw [List.append_nil]; exact (pure_ok.mp run).symm, .nil s⟩
  | cons fileID fileIDs ih =>
    rw [List.foldlM_cons, bind_ok] at run
    obtain ⟨t, first, rest⟩ := run
    obtain ⟨here, rfl, handed⟩ := each fileID List.mem_cons_self hit t first
    obtain ⟨later, rfl, handedLater⟩ :=
      ih (fun other member => each other (List.mem_cons_of_mem _ member)) rest
    exact ⟨here ++ later, by rw [List.append_assoc], handed.append handedLater⟩

/-- The recursion over a composite File marks a store that earlier calls have marked. -/
lemma markTree_ok {depth : Nat} (run : markTree now depth (s.markRows hit now) fileID = .ok s') :
    ∃ more, s' = s.markRows (hit ++ more) now ∧ s.HandsOver [fileID] more := by
  induction depth generalizing fileID hit s' with
  | zero => cases run
  | succ depth ih =>
    rw [markTree, fileHasLiveReference_markRows] at run
    by_cases referenced : s.fileHasLiveReference fileID = true
    · rw [if_pos referenced] at run
      refine ⟨[], by rw [List.append_nil]; exact (Except.ok.inj run).symm, by simp, ?_⟩
      intro other same free
      rw [List.mem_singleton.mp same, referenced] at free
      cases free
    · rw [if_neg referenced] at run
      have free : s.fileHasLiveReference fileID = false := by simpa using referenced
      have same : (s.markRows hit now).readStoredFile fileID = s.readStoredFile fileID := rfl
      rw [same] at run
      cases stored : s.readStoredFile fileID with
      | none =>
        rw [stored] at run
        cases run
      | some record =>
        rw [stored] at run
        have layout : s.layoutOf fileID = some record.fileLayout := by simp [layoutOf, stored]
        cases kind : record.fileLayout with
        | physical =>
          simp only [kind, markPending_eq, markRows_markRows, Except.ok.injEq] at run
          rw [kind] at layout
          refine ⟨[fileID], run.symm, ?_, ?_⟩
          · intro other same
            rwa [List.mem_singleton.mp same]
          · intro other same _
            rw [List.mem_singleton.mp same]
            refine ⟨fun _ => List.mem_cons_self, fun composite => ?_⟩
            rw [layout] at composite
            cases composite
        | composite =>
          simp only [kind] at run
          rw [kind] at layout
          obtain ⟨more, rfl, handed⟩ := foldlM_handsOver
            (fun source _ earlier t pass => ih pass) run
          refine ⟨more, rfl, handed.unreferenced, ?_⟩
          intro other same _
          rw [List.mem_singleton.mp same]
          refine ⟨fun physical => ?_, fun _ source member freeSource physical => ?_⟩
          · rw [layout] at physical
            cases physical
          · exact (handed.reached source member freeSource).own physical

lemma markFileTreePendingIfUnreferenced_ok
    (run : s.markFileTreePendingIfUnreferenced fileID now = .ok s') :
    ∃ hit, s' = s.markRows hit now ∧ s.HandsOver [fileID] hit := by
  have start := markRows_nil s now
  rw [markFileTreePendingIfUnreferenced, ← start] at run
  exact markTree_ok run

lemma markMappingFilesPending_ok {fileIDs : List Nat}
    (run : s.markMappingFilesPending fileIDs now = .ok s') :
    ∃ hit, s' = s.markRows hit now ∧ s.HandsOver fileIDs hit := by
  have start := markRows_nil s now
  have each : ∀ fileID ∈ fileIDs, ∀ hit t,
      (s.markRows hit now).markFileTreePendingIfUnreferenced fileID now = .ok t →
      ∃ more, t = s.markRows (hit ++ more) now ∧ s.HandsOver [fileID] more :=
    fun _ _ _ _ pass => markTree_ok pass
  rw [markMappingFilesPending, ← start] at run
  exact foldlM_handsOver each run

end TgFile.Store
