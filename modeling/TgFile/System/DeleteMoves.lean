import TgFile.System.DeleteRows

/-! # Moves of a delete state

Every statement of the worker moves a row from one state to another, and some statements wait for
a condition: a row is claimed before its deadline, it is repeated before its deadline, and it turns
from `deleting` to `live` because its File is referenced.  Only the recovery of rows whose lease is
over schedules a repetition at any time. -/

namespace TgFile.Store

open Go Result

variable {env : Env} {s s' : Store} {now : Int} {claiming : Prop}

/-! ## Moves -/

/-- The moves between states. -/
inductive BlockMove (referenced : Prop) : BlockState → BlockState → Prop
  | marked : BlockMove referenced .live .pending
  | claimed : BlockMove referenced .pending .deleting
  | overdue : BlockMove referenced .pending .expired
  | restored : BlockMove referenced .pending .live
  | deleted : BlockMove referenced .deleting .deleted
  | repeated : BlockMove referenced .deleting .pending
  | expired : BlockMove referenced .deleting .expired
  | failed : BlockMove referenced .deleting .failed
  | reused (needed : referenced) : BlockMove referenced .deleting .live

/-- The deletion of the block is settled. -/
def Final (state : BlockState) : Prop :=
  state = .deleted ∨ state = .expired ∨ state = .failed

lemma BlockMove.not_final {referenced : Prop} {source target : BlockState}
    (move : BlockMove referenced source target) : ¬Final source := by
  unfold Final
  cases move <;> simp

/-- The key of a row. -/
def rowKey (row : DeleteState) : Nat × Nat := (row.fileID, row.filePartID)

/-- The block of a piece of work. -/
def workKey (work : BlockDeleteWork) : Nat × Nat := (work.fileID, work.partID)

/-- The row keeps what names the block. -/
structure SameBlock (row row' : DeleteState) : Prop where
  key : rowKey row' = rowKey row
  backendKind : row'.backendKind = row.backendKind
  deleteRef : row'.deleteRef = row.deleteRef
  uploadedAt : row'.uploadedAt = row.uploadedAt

/-- What one statement does to a row.  `recovery` says that it is the recovery of expired leases. -/
structure RowMoves (now : Int) (referenced recovery : Prop) (row row' : DeleteState) : Prop where
  same : SameBlock row row'
  move : row' = row ∨ BlockMove referenced row.state row'.state
  attempts : (row'.attemptCount = row.attemptCount ∧
      ¬(row.state = .pending ∧ row'.state = .deleting)) ∨
    (row'.attemptCount = row.attemptCount + 1 ∧ row.state = .pending ∧ row'.state = .deleting ∧
      now < row.uploadedAt + deleteDeadline)
  repeats : row.state = .deleting → row'.state = .pending →
    row'.nextAttemptAt < row.uploadedAt + deleteDeadline ∨
      (recovery ∧ row.leaseUntil ≤ now ∧ row'.nextAttemptAt = now)

lemma RowMoves.refl (referenced recovery : Prop) (row : DeleteState) :
    RowMoves now referenced recovery row row where
  same := ⟨rfl, rfl, rfl, rfl⟩
  move := .inl rfl
  attempts := .inl ⟨rfl, fun ⟨pending, deleting⟩ => by rw [pending] at deleting; cases deleting⟩
  repeats deleting pending := by rw [deleting] at pending; cases pending

/-- A settled row does not move. -/
lemma RowMoves.eq_of_final {referenced recovery : Prop} {row row' : DeleteState}
    (moves : RowMoves now referenced recovery row row') (final : Final row.state) : row' = row :=
  moves.move.elim id fun move => absurd final move.not_final

/-- A statement on the delete states: every row moves at most once, and new rows wait.  A File that
is referenced matters to the transaction that claims, which also recovers expired leases. -/
def Statement (env : Env) (claiming : Prop) (now : Int) (s s' : Store) : Prop :=
  ∃ f fresh, s'.deleteStates = s.deleteStates.map f ++ fresh ∧
    (∀ row ∈ s.deleteStates, RowMoves now (claiming ∧ s.fileHasLiveReference row.fileID = true)
      (claiming ∧ s' = s.restoreExpiredDeleteLeases env now) row (f row)) ∧
    ∀ row ∈ fresh, row.attemptCount = 0 ∧ (row.state = .live ∨ row.state = .pending)

lemma Statement.of_update {condition : DeleteState → Bool} {f : DeleteState → DeleteState}
    (moves : ∀ row ∈ s.deleteStates, condition row = true →
      RowMoves now (claiming ∧ s.fileHasLiveReference row.fileID = true)
        (claiming ∧ s.updateDeleteStates condition f = s.restoreExpiredDeleteLeases env now)
        row (f row)) :
    Statement env claiming now s (s.updateDeleteStates condition f) := by
  refine ⟨fun row => if condition row then f row else row, [], (List.append_nil _).symm,
    fun row member => ?_, nofun⟩
  dsimp only
  split_ifs with hit
  · exact moves row member hit
  · exact .refl _ _ row

lemma Statement.of_marks (marks : Marks now s s') : Statement env claiming now s s' := by
  obtain ⟨hit, rows⟩ := marks
  refine ⟨markRow now hit, [], by rw [rows, List.append_nil], fun row _ => ?_, nofun⟩
  unfold markRow
  split_ifs with live
  · refine ⟨⟨rfl, rfl, rfl, rfl⟩, .inr ?_, .inl ⟨rfl, ?_⟩, ?_⟩
    · rw [live.2]
      exact .marked
    · rw [live.2]
      exact nofun
    · rw [live.2]
      exact nofun
  · exact .refl _ _ row

lemma Statement.of_inserts (inserts : Inserts s s') : Statement env claiming now s s' := by
  obtain ⟨row, none, waiting, -, rows⟩ := inserts
  refine ⟨id, [row], by rw [rows, List.map_id], fun row _ => .refl _ _ row, fun other member => ?_⟩
  rw [List.mem_singleton.mp member]
  exact ⟨none, waiting⟩

/-! ## Statements of the worker -/

lemma restoreExpiredDeleteLeases_statement (claims : claiming) :
    Statement env claiming now s (s.restoreExpiredDeleteLeases env now) := by
  refine .of_update fun row _ hit => ?_
  obtain ⟨-, deleting, expired⟩ := of_decide_eq_true hit
  refine ⟨⟨rfl, rfl, rfl, rfl⟩, .inr ?_, .inl ⟨rfl, ?_⟩,
    fun _ _ => .inr ⟨⟨claims, rfl⟩, expired, rfl⟩⟩
  · rw [deleting]
    exact .repeated
  · rw [deleting]
    exact nofun

lemma restoreFileDeleteState_statement {fileID : Nat} (claims : claiming)
    (referenced : s.fileHasLiveReference fileID = true) :
    Statement env claiming now s (s.restoreFileDeleteState fileID now) := by
  refine .of_update fun row _ hit => ?_
  obtain ⟨rfl, open_⟩ := of_decide_eq_true hit
  refine ⟨⟨rfl, rfl, rfl, rfl⟩, .inr ?_, .inl ⟨rfl, nofun⟩, nofun⟩
  rcases of_decide_eq_true open_ with pending | deleting
  · rw [pending]
    exact .restored
  · rw [deleting]
    exact .reused ⟨claims, referenced⟩

lemma expireBlockDelete_statement {work : BlockDeleteWork} :
    Statement env claiming now s (s.expireBlockDelete work now) := by
  refine .of_update fun row _ hit => ?_
  obtain ⟨-, open_⟩ := of_decide_eq_true hit
  refine ⟨⟨rfl, rfl, rfl, rfl⟩, .inr ?_, .inl ⟨rfl, nofun⟩, nofun⟩
  rcases of_decide_eq_true open_ with pending | deleting
  · rw [pending]
    exact .overdue
  · rw [deleting]
    exact .expired

/-- The row that a claim leaves. -/
def claimedRow (now : Int) (row : DeleteState) : DeleteState :=
  { row with
    state := .deleting, attemptCount := row.attemptCount + 1, lastAttemptAt := now
    leaseUntil := now + deleteLease, mtime := now }

lemma claim_statement {work : BlockDeleteWork} (early : now < work.uploadedAt + deleteDeadline)
    (known : ∀ row ∈ s.deleteStates, work.selects row = true → row.uploadedAt = work.uploadedAt) :
    Statement env claiming now s (s.updateDeleteStates work.claimable (claimedRow now)) := by
  refine .of_update fun row member hit => ?_
  obtain ⟨selected, pending⟩ := of_decide_eq_true hit
  refine ⟨⟨rfl, rfl, rfl, rfl⟩, .inr ?_, .inr ⟨rfl, pending, rfl, ?_⟩, nofun⟩
  · rw [pending]
    exact .claimed
  · rw [known row member selected]
    exact early

end TgFile.Store
