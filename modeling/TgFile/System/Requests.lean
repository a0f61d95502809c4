import TgFile.Backup.Jobs
import TgFile.S3.Complete
import TgFile.Store.Purge
import TgFile.Store.Worker
import TgFile.WebDAV.Operations

/-! # Transactions

Every transaction of the file manager and the backup manager, with the arguments its callers give
it.  The handlers clean the paths of WebDAV requests, and the keys they accept make clean object
paths. -/

namespace TgFile

open Go Go.Path Result

/-- A clean absolute path. -/
structure Resource where
  text : Text
  abs : isAbs text = true
  canonical : clean text = text

/-- A clean absolute path other than the root. -/
structure ObjectPath extends Resource where
  notRoot : text ≠ ['/']

/-- The transactions of WebDAV requests. -/
inductive DavRequest
  | cleanup
  | mkcol (path : Resource)
  | put (path : Resource) (fileID : Nat) (size : Int)
  | delete (path : Resource)
  | copy (source destination : Resource) (overwrite recursive : Bool)
  | move (source destination : Resource) (overwrite : Bool)
  | proppatch (path : Resource) (patches : List Store.PropertyPatch)
  | lock (path : Resource) (depth : LockDepth) (ownerXML principal : Text) (timeout : Int)
      (unpublishedFileID : Nat) (uuid : Text)
  | refresh (path : Resource) (token principal : Text) (timeout : Int)
  | unlock (path : Resource) (token principal : Text)

variable (env : Env)

/-- The conditions and limits go to the requests that check them; a lock refresh reads the `If`
header alone, and the other lock requests read none of them. -/
def DavRequest.run (now : Int) (options : Store.MutationOptions) (s : Store) :
    DavRequest → Except Err Store
  | .cleanup => s.cleanupExpiredWebDAVLocks now
  | .mkcol path => s.createWebDAVCollection now path.text options
  | .put path fileID size => Prod.fst <$> s.publishWebDAVFile env now path.text fileID size options
  | .delete path => s.deleteWebDAVResource now path.text options
  | .copy source destination overwrite recursive =>
    Prod.fst <$> s.copyWebDAVResource now source.text destination.text overwrite recursive options
  | .move source destination overwrite =>
    Prod.fst <$> s.moveWebDAVResource now source.text destination.text overwrite options
  | .proppatch path patches => s.patchWebDAVProperties now path.text patches options
  | .lock path depth ownerXML principal timeout unpublishedFileID uuid =>
    Prod.fst <$> s.lockWebDAVResource now ⟨path.text, depth, ownerXML, principal, timeout⟩
      unpublishedFileID uuid
  | .refresh path token principal timeout =>
    s.refreshWebDAVLock now path.text token principal timeout
      (options.condition.bind WebDAV.Condition.ifHeader)
  | .unlock path token principal => s.unlockWebDAVResource now path.text token principal

/-- The transactions of S3 requests and of the multipart worker. -/
inductive S3Request
  | publish (path : ObjectPath) (fileID : Nat) (size : Int) (metadata : S3ObjectMetadata)
      (condition : Option Store.S3Condition)
  | copy (source destination : ObjectPath) (metadata : Option S3ObjectMetadata)
      (sourceCondition destinationCondition : Option Store.S3Condition)
  | delete (path : ObjectPath) (condition : Option Store.S3Condition)
  | createUpload (request : Store.CreateMultipartRequest) (uploadID : Text)
  | inspectUpload (uploadID bucket key : Text)
  | putPart (request : Store.PutMultipartPartRequest)
  | complete (request : Store.CompleteMultipartRequest) (path : ObjectPath)
      (located : path.text = Store.objectPath request.bucket request.key)
  | abort (uploadID bucket key : Text)
  | expire (limit : Nat)
  | purgeControl (limit : Nat)

/-- The transaction of a request. -/
def S3Request.run (now : Int) (s : Store) : S3Request → Except Err Store
  | .publish path fileID size metadata condition =>
    Prod.fst <$> s.publishS3ObjectTx env now path.text fileID size metadata condition
  | .copy source destination metadata sourceCondition destinationCondition =>
    s.copyS3Object env now source.text destination.text metadata sourceCondition
      destinationCondition
  | .delete path condition => Prod.fst <$> s.deleteS3Object env now path.text condition
  | .createUpload request uploadID => s.createMultipartUpload now request uploadID
  | .inspectUpload uploadID bucket key =>
    Prod.fst <$> s.ensureActiveMultipartUpload now uploadID bucket key
  | .putPart request => Prod.fst <$> s.putMultipartPart env now request
  | .complete request _ _ => Prod.fst <$> s.completeMultipartUpload env now request
  | .abort uploadID bucket key => s.abortMultipartUpload now uploadID bucket key
  | .expire limit => s.processExpiredMultipartUploads now limit
  | .purgeControl limit => .ok (s.purgeMultipartControlRows now limit)

/-- The transactions of backup jobs. -/
inductive JobRequest
  | createExport (jobID scope : Text)
  | createImport (jobID : Text) (dryRun : Bool) (policy : ConflictPolicy)
  | queueImport (jobID artifactPath : Text)
  | cancel (jobID : Text)
  | transition (jobID : Text) (source target : JobState)
  | snapshot (jobID scope : Text)
  | release (jobID : Text)
  | startBuilding (jobID : Text)
  | completeExport (jobID artifactPath : Text)
  | beginImport (jobID : Text)
  | finishFiles (jobID : Text)
  | importRoot
  | publish (jobID : Text) (policy : ConflictPolicy)
  | discardImport (jobID : Text)
  | finishJob (jobID : Text) (state : JobState)
  | finishSuccessfulJob (jobID : Text)
  | reset (jobID : Text) (state : JobState)
  | deleteJobFiles (jobID : Text)
  | requeue (jobID : Text)
  | cleanOrphanPins
  | releaseArtifact (jobID : Text)
  | cleanupRetained (cutoff : Int)

/-- The row of a new job. -/
def newJob (jobID : Text) (kind : JobKind) (state : JobState) (scope : Text) (dryRun : Bool)
    (policy : ConflictPolicy) : BackupJob where
  jobID := jobID
  kind := kind
  state := state
  scope := scope
  dryRun := dryRun
  conflictPolicy := policy
  artifactPath := []
  cancelRequested := false
  completedAt := 0

/-- An import job reads its verified manifest. -/
def JobRequest.run (archive : Backup.Archive) (now : Int) (s : Store) :
    JobRequest → Except Err Store
  | .createExport jobID scope => s.insertJob (newJob jobID .exportJob .queued scope false .fail)
  | .createImport jobID dryRun policy =>
    s.insertJob (newJob jobID .importJob .receiving ['/'] dryRun policy)
  | .queueImport jobID artifactPath => s.queueImport jobID artifactPath
  | .cancel jobID => s.cancel jobID
  | .transition jobID source target => s.transitionState jobID source target
  | .snapshot jobID scope => s.createBackupSnapshot env now jobID scope
  | .release jobID => .ok (s.releaseBackupSnapshot jobID)
  | .startBuilding jobID => .ok (s.startBuilding jobID)
  | .completeExport jobID artifactPath => s.completeExport now jobID artifactPath
  | .beginImport jobID => s.beginBackupImport now jobID (archive.manifest jobID)
  | .finishFiles jobID => s.finishBackupImportFiles now jobID (archive.manifest jobID)
  | .importRoot => s.prepareImportRoot now
  | .publish jobID policy => s.publishBackupImport now jobID (archive.manifest jobID) policy
  | .discardImport jobID => s.discardBackupImport now jobID
  | .finishJob jobID state => .ok (s.finishJob now jobID state)
  | .finishSuccessfulJob jobID => s.finishSuccessfulJob now jobID
  | .reset jobID state => .ok (s.resetState jobID state)
  | .deleteJobFiles jobID => .ok (s.deleteJobFiles jobID)
  | .requeue jobID => .ok (s.requeueJob jobID)
  | .cleanOrphanPins => .ok s.cleanOrphanPins
  | .releaseArtifact jobID => .ok (s.releaseArtifact jobID)
  | .cleanupRetained cutoff => .ok (s.cleanupRetainedJobs cutoff)

end TgFile
