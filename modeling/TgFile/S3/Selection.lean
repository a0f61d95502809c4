import TgFile.S3.Effects

/-! # The parts that a completion selects

A completion reads the active part of every requested number, adds their sizes, makes them the
segments of the new File and marks their rows as selected.  A repeated request reads these rows
again. -/

namespace TgFile.Store

open Go Result S3

variable {env : Env} {s s' : Store} {now : Int} {uploadID : Text}

/-! ## Reading the parts -/

/-- The record of a requested part passed its checks. -/
structure Selected (s : Store) (uploadID : Text) (legacy : Bool) (requested : CompleteMultipartPart)
    (record : MultipartPart × StoredFile) : Prop where
  found : s.activePart uploadID requested.partNumber = some record
  etag : record.1.etag = requested.etag
  checksummed : legacy = true ∨ record.1.checksumValue ≠ []
  agrees : legacy = true ∨ requested.checksumValue = [] ∨
    requested.checksumValue = record.1.checksumValue
  ready : record.2.fileState = .ready ∧ record.2.fileLayout = .physical
  live : s.ensureMultipartStagingFileLive record.1.fileID record.2.filePartCount = .ok ()
  unmapped : s.mapped record.1.fileID = false

lemma validateCompletionPart_ok {legacy isLast : Bool} {requested : CompleteMultipartPart}
    {record : MultipartPart × StoredFile}
    (found : s.activePart uploadID requested.partNumber = some record)
    (run : s.validateCompletionPart legacy requested record isLast = .ok ()) :
    Selected s uploadID legacy requested record := by
  simp only [validateCompletionPart, bind_ok, require_ok] at run
  obtain ⟨_, etag, _, checksummed, _, agrees, _, ready, _, -, _, live, unmapped⟩ := run
  exact ⟨found, etag, checksummed, agrees, ready, live, unmapped⟩

/-- The loop reads one record for every requested part and adds them up. -/
lemma loadCompletionParts_ok {legacy : Bool} {selected records : List (MultipartPart × StoredFile)}
    {size count totalSize totalPartCount : Int} {parts : List CompleteMultipartPart}
    (run : s.loadCompletionParts uploadID legacy selected size count parts =
      .ok (records, totalSize, totalPartCount)) :
    ∃ more, records = selected ++ more ∧ List.Forall₂ (Selected s uploadID legacy) parts more ∧
      totalSize = size + (more.map fun record => record.1.partSize).sum ∧
      totalPartCount = count + (more.map fun record => record.2.filePartCount).sum := by
  induction parts generalizing selected size count with
  | nil =>
    obtain ⟨rfl, pair⟩ := Prod.mk.inj (Except.ok.inj run)
    obtain ⟨rfl, rfl⟩ := Prod.mk.inj pair
    exact ⟨[], by simp, .nil, by simp, by simp⟩
  | cons requested parts ih =>
    unfold loadCompletionParts at run
    cases found : s.activePart uploadID requested.partNumber with
    | none =>
      rw [found] at run
      cases run
    | some record =>
      simp only [found, bind_ok, require_ok] at run
      obtain ⟨_, checked, _, -, rest⟩ := run
      obtain ⟨more, rfl, later, sizes, counts⟩ := ih rest
      refine ⟨record :: more, by simp, .cons (validateCompletionPart_ok found checked) later,
        ?_, ?_⟩
      · rw [sizes, List.map_cons, List.sum_cons, Int.add_assoc]
      · rw [counts, List.map_cons, List.sum_cons, Int.add_assoc]

/-! ## Closing the parts -/

/-- The selected rows among the discarded ones. -/
def chooseRow (uploadID : Text) (now : Int) (selected : List MultipartPart) (row : MultipartPart) :
    MultipartPart :=
  if row.uploadID = uploadID ∧ row.state = .discarded ∧
      ∃ part ∈ selected, row.partNumber = part.partNumber ∧ row.fileID = part.fileID then
    { row with state := .selected, mtime := now }
  else row

lemma chooseRow_cons (part : MultipartPart) (selected : List MultipartPart)
    (row : MultipartPart) :
    chooseRow uploadID now selected
        (if row.uploadID = uploadID ∧ row.partNumber = part.partNumber ∧
            row.fileID = part.fileID ∧ row.state = .discarded then
          { row with state := .selected, mtime := now } else row) =
      chooseRow uploadID now (part :: selected) row := by
  by_cases first : row.uploadID = uploadID ∧ row.partNumber = part.partNumber ∧
      row.fileID = part.fileID ∧ row.state = .discarded
  · obtain ⟨upload, number, file, discarded⟩ := id first
    have here : ∃ p ∈ part :: selected, row.partNumber = p.partNumber ∧ row.fileID = p.fileID :=
      ⟨part, List.mem_cons_self, number, file⟩
    have chosen : chooseRow uploadID now (part :: selected) row =
        { row with state := .selected, mtime := now } := if_pos ⟨upload, discarded, here⟩
    rw [if_pos first, chosen, chooseRow, if_neg]
    rintro ⟨-, again, -⟩
    cases again
  · rw [if_neg first]
    refine if_congr ?_ rfl rfl
    refine and_congr_right fun upload => and_congr_right fun discarded => ?_
    rw [List.exists_mem_cons_iff]
    exact (or_iff_right fun ⟨number, file⟩ => first ⟨upload, number, file, discarded⟩).symm

lemma foldlM_selectPart_eq {selected : List MultipartPart}
    (run : selected.foldlM (selectPart uploadID now) s = .ok s') :
    s' = { s with uploadParts := s.uploadParts.map (chooseRow uploadID now selected) } := by
  induction selected generalizing s with
  | nil =>
    obtain rfl := pure_ok.mp run
    have unchanged : chooseRow uploadID now [] = id := by
      funext row
      simp [chooseRow]
    rw [unchanged, List.map_id]
  | cons part selected ih =>
    rw [List.foldlM_cons, bind_ok] at run
    obtain ⟨t, first, rest⟩ := run
    simp only [selectPart, bind_ok, pure_ok] at first
    obtain ⟨_, -, rfl⟩ := first
    rw [ih rest]
    simp only [List.map_map]
    congr 2
    funext row
    exact chooseRow_cons part selected row

/-- A part row after its upload was closed. -/
def closeRow (uploadID : Text) (now : Int) (selected : List MultipartPart) (row : MultipartPart) :
    MultipartPart :=
  chooseRow uploadID now selected
    (if row.uploadID = uploadID ∧ row.state = .active then
      { row with state := .discarded, mtime := now } else row)

/-- Closing an upload closes its rows, and hands over the Files of the rows it does not select. -/
lemma finalizeMultipartParts_eq {selected : List MultipartPart}
    (run : s.finalizeMultipartParts uploadID selected now = .ok s') :
    ∃ hit, s' = { s with
        uploadParts := s.uploadParts.map (closeRow uploadID now selected) }.markRows hit now ∧
      { s with uploadParts := s.uploadParts.map (closeRow uploadID now selected) }.HandsOver
        ((s.listMultipartPartFileIDs uploadID).filter
          fun fileID => fileID ∉ selected.map MultipartPart.fileID) hit := by
  simp only [finalizeMultipartParts, bind_ok] at run
  obtain ⟨s₁, loop, marked⟩ := run
  obtain rfl := foldlM_selectPart_eq loop
  have rows : (s.discardActiveParts uploadID now).uploadParts.map (chooseRow
    uploadID now selected) =
      s.uploadParts.map (closeRow uploadID now selected) := by
    rw [discardActiveParts, List.map_map]
    rfl
  obtain ⟨hit, rfl, handed⟩ := markMappingFilesPending_ok marked
  rw [rows] at handed ⊢
  exact ⟨hit, rfl, handed⟩

variable {row : MultipartPart} {selected : List MultipartPart}

lemma chooseRow_ids (uploadID : Text) (now : Int) (selected : List MultipartPart)
    (row : MultipartPart) : (chooseRow uploadID now selected row).uploadID = row.uploadID ∧
      (chooseRow uploadID now selected row).partNumber = row.partNumber ∧
      (chooseRow uploadID now selected row).fileID = row.fileID ∧
      (chooseRow uploadID now selected row).etag = row.etag ∧
      (chooseRow uploadID now selected row).checksumValue = row.checksumValue := by
  unfold chooseRow
  split_ifs <;> exact ⟨rfl, rfl, rfl, rfl, rfl⟩

/-- Closing an upload changes the state of rows only. -/
lemma closeRow_ids (uploadID : Text) (now : Int) (selected : List MultipartPart)
    (row : MultipartPart) : (closeRow uploadID now selected row).uploadID = row.uploadID ∧
      (closeRow uploadID now selected row).partNumber = row.partNumber ∧
      (closeRow uploadID now selected row).fileID = row.fileID ∧
      (closeRow uploadID now selected row).etag = row.etag ∧
      (closeRow uploadID now selected row).checksumValue = row.checksumValue := by
  obtain ⟨upload, number, file, etag, value⟩ := chooseRow_ids uploadID now selected
    (if row.uploadID = uploadID ∧ row.state = .active then
      { row with state := .discarded, mtime := now } else row)
  unfold closeRow
  rw [upload, number, file, etag, value]
  split_ifs <;> exact ⟨rfl, rfl, rfl, rfl, rfl⟩

lemma closeRow_other (other : row.uploadID ≠ uploadID) :
    closeRow uploadID now selected row = row := by
  rw [closeRow, if_neg fun own => other own.1, chooseRow, if_neg fun own => other own.1]

lemma closeRow_selected (own : row.uploadID = uploadID) (active : row.state = .active)
    (member : row ∈ selected) : (closeRow uploadID now selected row).state = .selected := by
  rw [closeRow, if_pos ⟨own, active⟩, chooseRow, if_pos ⟨own, rfl, row, member, rfl, rfl⟩]

lemma closeRow_discarded (own : row.uploadID = uploadID) (active : row.state = .active)
    (unselected : row.fileID ∉ selected.map MultipartPart.fileID) :
    (closeRow uploadID now selected row).state = .discarded := by
  rw [closeRow, if_pos ⟨own, active⟩, chooseRow, if_neg]
  rintro ⟨-, -, part, member, -, file⟩
  exact unselected (List.mem_map.mpr ⟨part, member, file.symm⟩)

/-- No row is active after its upload was closed. -/
lemma closeRow_state (own : row.uploadID = uploadID) :
    (closeRow uploadID now selected row).state ≠ .active := by
  by_cases active : row.state = .active
  · rw [closeRow, if_pos ⟨own, active⟩, chooseRow]
    split_ifs <;> exact fun again => by cases again
  · rw [closeRow, if_neg fun both => active both.2, chooseRow]
    split_ifs
    · exact fun again => by cases again
    · exact active

lemma closeRow_keeps (chosen : row.state = .selected) :
    closeRow uploadID now selected row = row := by
  have notActive : row.state ≠ .active := by
    rw [chosen]
    decide
  have notDiscarded : row.state ≠ .discarded := by
    rw [chosen]
    decide
  rw [closeRow, if_neg fun both => notActive both.2, chooseRow,
    if_neg fun both => notDiscarded both.2.1]

end TgFile.Store
