import TgFile.Store.References
import Mathlib.Data.Prod.Lex

/-! # The block-delete worker

`filemgr/block_delete_worker.go`: one worker claims pending blocks in a transaction, asks the
backend to delete them, and records the outcome. -/

namespace TgFile.Store

open Go

/-- `deleteLease`, in milliseconds. -/
def deleteLease : Int := 60000

/-- `deleteDeadline`, in milliseconds: 47 hours. -/
def deleteDeadline : Int := 169200000

/-- The largest batch. -/
def deleteBatchSize : Nat := 100

/-- `blockDeleteWork`. -/
structure BlockDeleteWork where
  fileID : Nat
  partID : Nat
  deleteRef : Text
  uploadedAt : Int
  attemptCount : Nat
  deriving DecidableEq, Repr

/-! ## Claiming -/

section
variable (s : Store)

/-- An update of the delete states that meet a condition. -/
def updateDeleteStates (condition : DeleteState → Bool) (f : DeleteState → DeleteState) : Store :=
  { s with deleteStates := s.deleteStates.map fun row => if condition row then f row else row }

/-- Rows whose lease is over are pending again. -/
def restoreExpiredDeleteLeases (env : Env) (s : Store) (now : Int) : Store :=
  s.updateDeleteStates
    (fun row => row.backendKind = env.backendName ∧ row.state = .deleting ∧ row.leaseUntil ≤ now)
    fun row => { row with state := .pending, nextAttemptAt := now, leaseUntil := 0, mtime := now }

/-- The work of a row. -/
def workOf (row : DeleteState) : BlockDeleteWork :=
  ⟨row.fileID, row.filePartID, row.deleteRef, row.uploadedAt, row.attemptCount⟩

/-- The rows that are due, oldest first. -/
def queryPendingDeleteCandidates (env : Env) (s : Store) (now : Int) : List BlockDeleteWork :=
  ((Sqlite.orderBy (fun row : DeleteState => toLex
    (row.uploadedAt, toLex (row.fileID, row.filePartID)))
    (s.deleteStates.filter fun row => row.backendKind = env.backendName ∧ row.state = .pending ∧
      row.nextAttemptAt ≤ now)).take deleteBatchSize).map workOf

/-- The row of a work. -/
def BlockDeleteWork.selects (work : BlockDeleteWork) (row : DeleteState) : Bool :=
  row.fileID = work.fileID ∧ row.filePartID = work.partID

/-- A block whose deletion is not yet settled. -/
def unsettled (state : BlockState) : Bool := state = .pending ∨ state = .deleting

/-- The blocks of a referenced File are live again. -/
def restoreFileDeleteState (fileID : Nat) (now : Int) : Store :=
  s.updateDeleteStates (fun row => row.fileID = fileID ∧ unsettled row.state = true)
    fun row => { row with state := .live, nextAttemptAt := 0, leaseUntil := 0, mtime := now }

/-- A block past its deadline is given up. -/
def expireBlockDelete (work : BlockDeleteWork) (now : Int) : Store :=
  s.updateDeleteStates (fun row => work.selects row ∧ unsettled row.state = true)
    fun row =>
      { row with
        state := .expired, lastErrorCode := "deadline".toList, leaseUntil := 0, mtime := now }

/-- The row is still waiting. -/
def BlockDeleteWork.claimable (work : BlockDeleteWork) (row : DeleteState) : Bool :=
  work.selects row ∧ row.state = .pending

/-- Claim a row, unless its File is referenced or it is too late. -/
def claimDeleteCandidate (work : BlockDeleteWork) (now : Int) : Store × Bool :=
  if s.fileHasLiveReference work.fileID then (s.restoreFileDeleteState work.fileID now, false)
  else if work.uploadedAt + deleteDeadline ≤ now then (s.expireBlockDelete work now, false)
  else
    (s.updateDeleteStates work.claimable fun row =>
      { row with
        state := .deleting, attemptCount := row.attemptCount + 1, lastAttemptAt := now
        leaseUntil := now + deleteLease, mtime := now },
      (s.deleteStates.filter work.claimable).length = 1)

end

/-- The loop over the candidates; returns the claimed work. -/
def claimCandidates (now : Int) : Store → List BlockDeleteWork → Store × List BlockDeleteWork
  | s, [] => (s, [])
  | s, work :: works =>
    let (s, claimed) := s.claimDeleteCandidate work now
    let (s, rest) := claimCandidates now s works
    (s, if claimed then { work with attemptCount := work.attemptCount + 1 } :: rest else rest)

/-- Claim a batch. -/
def claimBlockDeleteWork (env : Env) (s : Store) (now : Int) : Store × List BlockDeleteWork :=
  let s := s.restoreExpiredDeleteLeases env now
  claimCandidates now s (s.queryPendingDeleteCandidates env now)

/-! ## Outcomes -/

/-- How a call of the backend ends. -/
inductive DeleteOutcome
  | deleted
  /-- A `blockio.DeleteFailure` with its status code and its delay in milliseconds. -/
  | failure (status : Nat) (retryAfter : Int)
  | network
  | timeout
  | other
  deriving DecidableEq, Repr

/-- `deleteBackoff`, in milliseconds. -/
def deleteBackoff (attempt : Nat) : Int :=
  if attempt ≤ 1 then 1000 else min (1000 * 2 ^ min (attempt - 1) 4) 30000

/-- `classifyBlockDeleteError`: the code, and the delay when the call is to be repeated. -/
def classifyBlockDeleteError (outcome : DeleteOutcome) (attempt : Nat) : Text × Option Int :=
  match outcome with
  | .deleted => ([], none)
  | .failure status retryAfter =>
    if status = 429 then
      ("rate_limited".toList, some (if retryAfter ≤ 0 then 1000 else retryAfter))
    else if 500 ≤ status then ("server".toList, some (deleteBackoff attempt))
    else ("client".toList, none)
  | .network => ("network".toList, some (deleteBackoff attempt))
  | .timeout => ("timeout".toList, some (deleteBackoff attempt))
  | .other => ("invalid_reference".toList, none)

/-- One transaction of `finishBlockDeleteWork`. -/
structure Finish where
  works : List BlockDeleteWork
  state : BlockState
  errorCode : Text
  nextAttemptAt : Int
  deriving DecidableEq, Repr

/-- The transaction for a work that is to be repeated. -/
def retryFinish (next : Int) (code : Text) (work : BlockDeleteWork) : Finish :=
  if next < work.uploadedAt + deleteDeadline then ⟨[work], .pending, code, next⟩
  else ⟨[work], .expired, "deadline".toList, 0⟩

/-- What `executeBlockDeleteWork` does after its call: transactions, or a call for each block. -/
def afterDelete (now : Int) (works : List BlockDeleteWork) (outcome : DeleteOutcome) :
    List Finish × List (List BlockDeleteWork) :=
  if outcome = .deleted then ([⟨works, .deleted, [], 0⟩], [])
  else
    match classifyBlockDeleteError outcome
      ((works.head?.map BlockDeleteWork.attemptCount).getD 0) with
    | (code, some delay) => (works.map (retryFinish (now + delay) code), [])
    | (code, none) =>
      if 1 < works.length then ([], works.map fun work => [work])
      else ([⟨works, .failed, code, 0⟩], [])

/-- Record the outcome of claimed rows. -/
def finishBlockDeleteWork (s : Store) (now : Int) (finish : Finish) : Store :=
  s.updateDeleteStates
    (fun row => (∃ work ∈ finish.works, work.selects row = true) ∧ row.state = .deleting)
    fun row =>
      { row with
        state := finish.state, nextAttemptAt := finish.nextAttemptAt, leaseUntil := 0
        lastErrorCode := finish.errorCode
        deletedAt := if finish.state = .deleted then now else 0, mtime := now }

end TgFile.Store
