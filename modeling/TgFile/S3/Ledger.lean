import TgFile.S3.PartFiles

/-! # Runs of multipart calls

Calls on any number of uploads come in any order, at any clock values, and a call that fails is
rolled back.  Between them the handlers store the Files they stage.  A ledger keeps what the calls
returned: the Files that were staged, the uploads that were published and the answers of
completions, each as long as the upload's record is there. -/

namespace TgFile.Store

open Go Result S3

variable {env : Env} {s s' : Store} {now : Int}

/-! ## The ledger -/

/-- The record of an upload is there. -/
def hasUpload (s : Store) (uploadID : Text) : Bool :=
  s.uploads.any fun upload => upload.uploadID = uploadID

/-- What calls have returned. -/
structure Ledger where
  staged : List (Text × Nat)
  published : List Text
  completions : List (CompleteMultipartRequest × CompleteMultipartResult)
  files : List Nat
  deriving DecidableEq

namespace Ledger

/-- The ledger after a call returned. -/
def note (env : Env) (now : Int) (s : Store) (ledger : Ledger) : S3Request → Ledger
  | .putPart request =>
    match s.putMultipartPart env now request with
    | .ok (_, false) =>
      { ledger with
        staged := (request.uploadID, request.fileID) :: ledger.staged
        files := request.fileID :: ledger.files }
    | _ => ledger
  | .complete request _ _ =>
    match s.completeMultipartUpload env now request with
    | .ok (_, some result) =>
      { ledger with
        published := if s.uploadActive request.uploadID then
          request.uploadID :: ledger.published else ledger.published
        completions := (request, result) :: ledger.completions }
    | _ => ledger
  | _ => ledger

/-- The entries of uploads whose record is there. -/
def prune (s : Store) (ledger : Ledger) : Ledger where
  staged := ledger.staged.filter fun entry => s.hasUpload entry.1
  published := ledger.published.filter s.hasUpload
  completions := ledger.completions.filter fun entry => s.hasUpload entry.1.uploadID
  files := ledger.files

/-- Nothing has returned yet. -/
def empty : Ledger := ⟨[], [], [], []⟩

end Ledger

/-- A call with its rollback. -/
def call (env : Env) (now : Int) (s : Store) (request : S3Request) : Store :=
  match request.run env now s with
  | .ok s' => s'
  | .error _ => s

/-- A multipart call; a part is staged with a File of its own. -/
def OwnCall (s : Store) (ledger : Ledger) : S3Request → Prop
  | .publish _ _ _ _ _ | .copy _ _ _ _ _ | .delete _ _ => False
  | .putPart request => request.fileID ∉ ledger.files ∧
      ∀ segment ∈ s.segments, segment.sourceFileID ≠ request.fileID
  | _ => True

/-- What happens between the calls: Files are stored, and nothing else changes. -/
structure Elsewhere (files : List Nat) (s s' : Store) : Prop where
  sound : Sound s'
  dir : s'.dir = s.dir
  segments : s'.segments = s.segments
  uploads : s'.uploads = s.uploads
  uploadParts : s'.uploadParts = s.uploadParts
  pins : s'.pins = s.pins
  nextFileID : s.nextFileID ≤ s'.nextFileID
  kept : ∀ fileID file, s.readStoredFile fileID = some file →
    ∃ file', s'.readStoredFile fileID = some file' ∧ file'.fileSize = file.fileSize ∧
      (file.fileState = .ready → file' = file)
  blocks : ∀ fileID ∈ files, s'.blockStates fileID = s.blockStates fileID

/-- A store without uploads and exports. -/
structure Idle (s : Store) : Prop where
  sound : Sound s
  segments : ∀ segment ∈ s.segments, segment.fileID < s.nextFileID
  pins : s.pins = []
  uploads : s.uploads = []
  uploadParts : s.uploadParts = []

/-- The stores and ledgers of runs. -/
inductive MultipartRun (env : Env) : Store → Ledger → Prop
  | start {s : Store} (idle : Idle s) : MultipartRun env s .empty
  | call {s : Store} {ledger : Ledger} (before : MultipartRun env s ledger) (now : Int)
      (request : S3Request) (own : OwnCall s ledger request) :
      MultipartRun env (s.call env now request)
        ((ledger.note env now s request).prune (s.call env now request))
  | elsewhere {s s' : Store} {ledger : Ledger} (before : MultipartRun env s ledger)
      (other : Elsewhere ledger.files s s') : MultipartRun env s' ledger

end TgFile.Store
