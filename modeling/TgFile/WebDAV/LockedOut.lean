import TgFile.WebDAV.Protection

/-! # Requests of a lock's holder

The check of a path counts only the lists of the `If` header that are tagged with that path.  A
request is refused with `ErrWebDAVLocked` by this check alone: the lemmas before it say that no
other step of a transaction returns this error. -/

namespace TgFile

open Go Go.Path Result WebDAV Store

section
variable {α : Type} (clash : α → α → Bool) 

@[simp]
lemma insertRow_avoids (rows : List α) (row : α) :
    Avoids .webDAVLocked (Sqlite.insertRow clash rows row) := by simp [Sqlite.insertRow]

@[simp]
lemma updateRows_avoids (selected : α → Bool) (set : α → α) (done rows : List α) :
    Avoids .webDAVLocked (Sqlite.updateRows clash selected set done rows) := by
  induction rows generalizing done with
  | nil => simp [Sqlite.updateRows]
  | cons row rows ih =>
    unfold Sqlite.updateRows
    split <;> simp [ih]

end

namespace Directory

variable (d : Directory) (now : Int)

@[simp]
lemma txCreateEntry_avoids (pid : Nat) (ent : Entry) :
    Avoids .webDAVLocked (d.txCreateEntry pid ent) := by simp [txCreateEntry]

@[simp]
lemma txOnSelectDir_avoids (dir : Text) (allowCreate : Bool) :
    Avoids .webDAVLocked (d.txOnSelectDir now dir allowCreate) := by
  have items : ∀ items walked parentID d,
      Avoids Err.webDAVLocked (selectItems now allowCreate walked parentID d items) := by
    intro items
    induction items with
    | nil => simp [selectItems]
    | cons item items ih =>
      intro walked parentID d
      have component : ∀ name path, Avoids .webDAVLocked
          (d.txSelectDirComponent now parentID name path allowCreate) := by
        intro name path
        unfold txSelectDirComponent
        split <;> simp [txCreateDir]
      simp [selectItems, component, ih]
  simp [txOnSelectDir, rebuildDirItems, items]

@[simp]
lemma txGetEntryInfo_avoids (location : Text) :
    Avoids .webDAVLocked (d.txGetEntryInfo location) := by
  simp [txGetEntryInfo]

@[simp]
lemma txStat_avoids (location : Text) : Avoids .webDAVLocked (d.txStat location) := by
  have := d.txGetEntryInfo_avoids location
  unfold txStat
  split <;> simp_all

@[simp]
lemma touchParent_avoids (entryPath : Text) (mtime : Int) :
    Avoids .webDAVLocked (d.touchParent entryPath mtime) := by
  have := d.txGetEntryInfo_avoids (Path.dir (Path.clean entryPath))
  unfold touchParent
  split <;> simp_all

@[simp]
lemma mkdir_avoids (dirname : Text) : Avoids .webDAVLocked (d.mkdir now dirname) := by
  have : ∀ parent, Avoids .webDAVLocked (d.selectParent now parent) := by
    intro parent
    have := d.txOnSelectDir_avoids now parent false
    unfold selectParent
    split <;> simp_all
  simp [mkdir, this, txCreateDir]

@[simp]
lemma create_avoids (filename : Text) (size : Int) (refdata : Option Nat) :
    Avoids .webDAVLocked (d.create now filename size refdata) := by simp [create]

@[simp]
lemma replace_avoids (filename : Text) (size : Int) (refdata : Option Nat) (mtime : Int) :
    Avoids .webDAVLocked (d.replace filename size refdata now mtime) := by
  simp only [replace, avoids_bind, txGetEntryInfo_avoids, true_and]
  intro found _
  split <;> simp

@[simp]
lemma remove_avoids (filename : Text) : Avoids .webDAVLocked (d.remove now filename) := by
  simp only [remove, avoids_bind, txGetEntryInfo_avoids, true_and]
  intro found _
  split <;> simp

@[simp]
lemma touch_avoids (filename : Text) (mtime : Int) :
    Avoids .webDAVLocked (d.touch now filename mtime) := by
  simp only [touch, avoids_bind, txGetEntryInfo_avoids, true_and]
  intro found _
  split <;> simp

@[simp]
lemma recordTreeChanges_avoids (root : Text) (kind : ChangeKind) :
    Avoids .webDAVLocked (d.recordTreeChanges now root kind) := by
  simp only [recordTreeChanges, avoids_bind, txGetEntryInfo_avoids, true_and]
  intro found _
  split <;> simp

@[simp]
lemma requireEntry_avoids (location : Text) {missing : Err} (other : missing ≠ .webDAVLocked) :
    Avoids .webDAVLocked (d.requireEntry location missing) := by
  simp only [requireEntry, avoids_bind, txGetEntryInfo_avoids, true_and]
  intro found _
  split <;> simp [other]

@[simp]
lemma overwrittenBy_avoids (destination : Text) :
    Avoids .webDAVLocked (d.overwrittenBy destination) := by
  have := d.txGetEntryInfo_avoids destination
  unfold overwrittenBy
  split <;> simp_all

@[simp]
lemma clearDestination_avoids (dst : Text) (dinfo : Option Entry) (overwrite : Bool) :
    Avoids .webDAVLocked (d.clearDestination now dst dinfo overwrite) := by
  unfold clearDestination
  split <;> simp

@[simp]
lemma txDoIterAndCopy_avoids (depth : Nat) (srcinfo : Entry) (dstparent : Nat)
    (destination newname : Text) (recursive : Bool) : Avoids .webDAVLocked
      (txDoIterAndCopy now depth d srcinfo dstparent destination newname recursive) := by
  induction depth generalizing d srcinfo dstparent destination newname recursive with
  | zero => simp [txDoIterAndCopy]
  | succ depth ih => simp [txDoIterAndCopy, ih]

@[simp]
lemma collectCopyPairs_avoids (depth : Nat) (source destination : Entry) (recursive : Bool) :
    Avoids .webDAVLocked (d.collectCopyPairs depth source destination recursive) := by
  induction depth generalizing source destination recursive with
  | zero => simp [collectCopyPairs]
  | succ depth ih =>
    unfold collectCopyPairs
    split_ifs
    · simp
    · refine avoids_foldlM (fun pairs child => ?_) _ _
      split <;> simp [ih]

@[simp]
lemma precheckMoveCopy_avoids (src dst : Text) :
    Avoids .webDAVLocked (precheckMoveCopy src dst) := by
  simp [precheckMoveCopy, rebuildDirItems]

@[simp]
lemma copyDepth_avoids (source destination : Text) (overwrite recursive : Bool) :
    Avoids .webDAVLocked (d.copyDepth now source destination overwrite recursive) := by
  simp [copyDepth, txDoCopyDepth]

@[simp]
lemma move_avoids (source destination : Text) (overwrite : Bool) :
    Avoids .webDAVLocked (d.move now source destination overwrite) := by
  simp [move, txDoMove, txChangeParent]

end Directory

namespace Store

variable (s : Store) (now : Int)

@[simp]
lemma ensureFileTreeCanBeLinked_avoids (fileID : Nat) :
    Avoids .webDAVLocked (s.ensureFileTreeCanBeLinked fileID) := by
  have complete : ∀ fileID,
      Avoids .webDAVLocked (s.ensurePhysicalFileDeletionRefsComplete fileID) := by
    intro fileID
    unfold ensurePhysicalFileDeletionRefsComplete
    split <;> simp
  have segments : ∀ segments finalSize index total,
      Avoids .webDAVLocked (s.checkSegments finalSize index total segments) := by
    intro segments
    induction segments with
    | nil => simp [checkSegments]
    | cons segment segments ih => simp [checkSegments, ensurePhysicalFileLive, complete, ih]
  unfold ensureFileTreeCanBeLinked
  split
  · simp
  · rename_i record _
    cases record.fileLayout <;>
      simp [ensurePhysicalFileLive, ensureCompositeFileLive, segments]

@[simp]
lemma markMappingFilesPending_avoids (fileIDs : List Nat) :
    Avoids .webDAVLocked (s.markMappingFilesPending fileIDs now) := by
  have tree : ∀ depth s fileID, Avoids .webDAVLocked (markTree now depth s fileID) := by
    intro depth
    induction depth with
    | zero => simp [markTree]
    | succ depth ih =>
      intro s fileID
      unfold markTree
      split
      · simp
      · split
        · simp
        · split <;> simp [ih]
  simp [markMappingFilesPending, markFileTreePendingIfUnreferenced, tree]

@[simp]
lemma mappingEntryFileIDs_avoids (entries : List Entry) :
    Avoids .webDAVLocked (mappingEntryFileIDs entries) := by
  refine avoids_foldlM (fun fileIDs entry => ?_) _ _
  unfold collectFileID
  split
  · simp
  · split <;> simp

@[simp]
lemma entryFileID_avoids (entry : Entry) : Avoids .webDAVLocked (entryFileID entry) := by
  unfold entryFileID
  split
  · simp
  · split <;> simp

@[simp]
lemma statExisting_avoids (resourcePath : Text) :
    Avoids .webDAVLocked (s.statExisting resourcePath) := by
  simp only [statExisting, avoids_bind, Directory.txStat_avoids, true_and]
  intro entry _
  split <;> simp

@[simp]
lemma linkOf_avoids (resourcePath : Text) (entry : Option Entry) :
    Avoids .webDAVLocked (linkOf resourcePath entry) := by
  unfold linkOf
  split <;> simp [webDAVEntryToLink]

@[simp]
lemma evaluateWebDAVCondition_avoids (link : Option Link) (condition : Option Condition) :
    Avoids .webDAVLocked (evaluateWebDAVCondition link condition) := by
  unfold evaluateWebDAVCondition
  split
  · simp
  · cases link <;> simp [evaluateWebDAVETagCondition, evaluateWebDAVTimeCondition]

@[simp]
lemma ensureWebDAVParentTx_avoids (resourcePath : Text) :
    Avoids .webDAVLocked (s.ensureWebDAVParentTx resourcePath) := by
  simp only [ensureWebDAVParentTx, avoids_bind, Directory.txStat_avoids, true_and]
  intro entry _
  split <;> simp

@[simp]
lemma queryWebDAVRootEntryID_avoids (root : Text) :
    Avoids .webDAVLocked (s.queryWebDAVRootEntryID root) := by
  unfold queryWebDAVRootEntryID
  simp only
  split
  · split <;> simp
  · split <;> simp

@[simp]
lemma enforceWebDAVQuotaTx_avoids (root : Text) (limit : Int) (current : Option Link)
    (newFileID : Nat) (newSize : Int) : Avoids .webDAVLocked
      (s.enforceWebDAVQuotaTx root limit current newFileID newSize) := by
  have freed : Avoids .webDAVLocked (s.freedQuota root current newFileID) := by
    unfold freedQuota
    split <;> simp [webDAVFileReferenceCountUnderRoot]
  simp [enforceWebDAVQuotaTx, queryWebDAVQuotaUsed, webDAVFileReferenceCountUnderRoot, freed]

@[simp]
lemma storeWebDAVMappingTx_avoids (resourcePath : Text) (fileID : Nat) (size : Int)
    (exist : Bool) : Avoids .webDAVLocked
      (s.storeWebDAVMappingTx now resourcePath fileID size exist) := by
  simp [storeWebDAVMappingTx, replaceWebDAVMappingTx, markReplacedMapping]

@[simp]
lemma validateWebDAVCopies_avoids (copies : List (Entry × Entry)) :
    Avoids .webDAVLocked (s.validateWebDAVCopies copies) := by
  refine avoids_forM (fun copied => ?_) _
  split
  · simp
  · split <;> simp

@[simp]
lemma finalizeRemovedWebDAVEntries_avoids (entries : List Entry) :
    Avoids .webDAVLocked (s.finalizeRemovedWebDAVEntries entries now) := by
  simp [finalizeRemovedWebDAVEntries]

@[simp]
lemma copyWebDAVMetadata_avoids (copies : List (Entry × Entry)) :
    Avoids .webDAVLocked (s.copyWebDAVMetadata copies) := by
  simp [copyWebDAVMetadata, copyMappingMetadata]

@[simp]
lemma copyWebDAVProperties_avoids (copies : List (Entry × Entry)) :
    Avoids .webDAVLocked (s.copyWebDAVProperties copies now) := by
  simp [copyWebDAVProperties, copyEntryProperties]

@[simp]
lemma moveLocks_avoids (source destination : Text) :
    Avoids .webDAVLocked (s.moveLocks source destination) := by
  simp [moveLocks]

@[simp]
lemma queryWebDAVETagByPath_avoids (resourcePath : Text) :
    Avoids .webDAVLocked (s.queryWebDAVETagByPath resourcePath) := by
  unfold queryWebDAVETagByPath
  split
  · simp
  · split
    · split <;> simp
    · simp

end Store

/-- The requests that change resources. -/
def DavRequest.mutates : DavRequest → Bool
  | .mkcol _ | .put _ _ _ | .delete _ | .copy _ _ _ _ | .move _ _ _ | .proppatch _ _ => true
  | _ => false

/-- The steps of a request before its lock check. -/
def DavRequest.before (s : Store) (options : MutationOptions) : DavRequest → Except Err Unit
  | .mkcol path => s.evaluateFirstWebDAVConditionTx [path.text] options.condition
  | .put path _ _ => do
      let current ← s.dir.txStat path.text
      let link ← linkOf path.text current
      require (∀ entry ∈ current, entry.fileKind = .file) Err.entryNotFile
      evaluateWebDAVCondition link options.condition
  | .delete path => do
      let entry ← s.statExisting path.text
      let link ← webDAVEntryToLink path.text entry
      evaluateWebDAVCondition (some link) options.condition
      s.enforceWebDAVMutationLimitTx entry.entryID options.maxEntries
  | .copy source destination _ recursive => do
      let entry ← s.statExisting source.text
      let link ← webDAVEntryToLink source.text entry
      evaluateWebDAVCondition (some link) options.condition
      s.enforceCopyLimitTx recursive entry.entryID options.maxEntries
      s.ensureWebDAVParentTx destination.text
      let _ ← s.dir.txStat destination.text
      pure ()
  | .move source _ _ => do
      let entry ← s.statExisting source.text
      let link ← webDAVEntryToLink source.text entry
      evaluateWebDAVCondition (some link) options.condition
      s.enforceWebDAVMutationLimitTx entry.entryID options.maxEntries
  | .proppatch path _ => do
      let _ ← s.statExisting path.text
      s.evaluateFirstWebDAVConditionTx [path.text] options.condition
  | _ => .ok ()

/-- Every lock that was found for the path is let through, unless the path has no entity tag. -/
def Clear (s : Store) (condition : Option Condition) (path : Text) (found : List WebDAVLock) :
    Prop :=
  ∀ etag, s.queryWebDAVETagByPath path = .ok etag →
    ∀ lock ∈ found, webDAVIfHeaderAllows condition path etag [lock] = true

/-- The header has, for each lock that covers a path of the request, a list that is tagged with the
lock's root and whose only condition is the lock's token. -/
def HolderHeader (s : Store) (now : Int) (request : DavRequest) (condition : Option Condition) :
    Prop :=
  ∀ lock, request.Covered s now lock → lock.token ≠ [] ∧ ∃ list ∈ Condition.lists condition,
    list.resource ≠ [] ∧ clean list.resource = lock.rootPath ∧
      list.terms = [⟨false, lock.token, []⟩]

section
variable {env : Env} {s : Store} {now : Int} {options : MutationOptions}
  {condition : Option Condition} {request : DavRequest} {path : Text} {lock : WebDAVLock}

lemma assertWebDAVLocksAt_avoids (path : Text) :
    Avoids .webDAVLocked (s.assertWebDAVLocksAt now condition path) ↔
      Clear s condition path (s.queryApplicableWebDAVLocks now path) := by
  unfold assertWebDAVLocksAt Clear
  by_cases none : s.queryApplicableWebDAVLocks now path = []
  · simp [none]
  · simp [none]

lemma assertWebDAVTreeLocksAt_avoids (path : Text) :
    Avoids .webDAVLocked (s.assertWebDAVTreeLocksAt now condition path) ↔
      Clear s condition path (s.queryOverlappingWebDAVLocks now path) := by
  simp [assertWebDAVTreeLocksAt, Clear]

/-- What the lock checks of a request come to, path by path. -/
def DavRequest.Passes (s : Store) (now : Int) (condition : Option Condition)
    (request : DavRequest) (clear : Text → List WebDAVLock → Prop) : Prop :=
  ∀ front lookup rest, request.lookups s now = front ++ lookup :: rest →
    (∀ earlier ∈ front, s.assertWebDAVTreeLocksAt now condition earlier.1 = .ok ()) →
    clear lookup.1 lookup.2

lemma passes_of_single {found : List WebDAVLock} {clear : Text → List WebDAVLock → Prop}
    (single : request.lookups s now = [(path, found)]) :
    request.Passes s now condition clear ↔ clear path found := by
  unfold DavRequest.Passes
  rw [single]
  refine ⟨fun passes => passes [] _ [] rfl (by simp), ?_⟩
  rintro holds (_ | ⟨first, front⟩) lookup rest split _
  · obtain ⟨rfl, _⟩ := List.cons.inj split
    exact holds
  · simp at split

lemma passes_of_pair {first second : Text × List WebDAVLock}
    {clear : Text → List WebDAVLock → Prop} (pair : request.lookups s now = [first, second]) :
    request.Passes s now condition clear ↔ clear first.1 first.2 ∧
      (s.assertWebDAVTreeLocksAt now condition first.1 = .ok () → clear second.1 second.2) := by
  unfold DavRequest.Passes
  rw [pair]
  refine ⟨fun passes => ⟨passes [] _ _ rfl (by simp), fun passed =>
    passes [first] _ [] rfl (by simpa using passed)⟩, ?_⟩
  rintro ⟨one, two⟩ (_ | ⟨_, _ | ⟨_, front⟩⟩) lookup rest split passed
  · obtain ⟨rfl, _⟩ := List.cons.inj split
    exact one
  · obtain ⟨rfl, same⟩ := List.cons.inj split
    obtain ⟨rfl, _⟩ := List.cons.inj same
    exact two (passed _ List.mem_cons_self)
  · simp at split

lemma DavRequest.run_avoids (mutates : request.mutates = true) :
    Avoids .webDAVLocked (request.run env now options s) ↔
      (request.before s options = .ok () →
        request.Passes s now options.condition (Clear s options.condition)) := by
  cases request with
  | mkcol path =>
    rw [passes_of_single rfl]
    simp [DavRequest.run, createWebDAVCollection, assertWebDAVConditionsTx, DavRequest.before,
      assertWebDAVLocksTx, assertWebDAVLocksAt_avoids, evaluateFirstWebDAVConditionTx,
      Unique.forall_iff]
  | put path fileID size =>
    rw [passes_of_single rfl]
    simp [DavRequest.run, publishWebDAVFile, prepareWebDAVPublishTx, DavRequest.before,
      assertWebDAVLocksTx, assertWebDAVLocksAt_avoids, webDAVEntryToLink, insertS3Metadata,
      Unique.forall_iff]
  | delete path =>
    rw [passes_of_single rfl]
    simp [DavRequest.run, deleteWebDAVResource, DavRequest.before, webDAVEntryToLink,
      assertWebDAVTreeLocksTx, assertWebDAVTreeLocksAt_avoids, enforceWebDAVMutationLimitTx]
  | copy source destination overwrite recursive =>
    rw [passes_of_single rfl]
    cases found : s.dir.txStat destination.text with
    | error err =>
      have other := s.dir.txStat_avoids destination.text
      rw [found, avoids_error] at other
      simp [DavRequest.run, copyWebDAVResource, DavRequest.before, webDAVEntryToLink,
        enforceWebDAVMutationLimitTx, prepareWebDAVCopyDestinationTx, enforceCopyLimitTx, found,
        other]
    | ok entry =>
      cases entry <;>
        simp [DavRequest.run, copyWebDAVResource, DavRequest.before, webDAVEntryToLink,
          enforceWebDAVMutationLimitTx, prepareWebDAVCopyDestinationTx, enforceCopyLimitTx,
          assertDestinationLocksTx, assertWebDAVTreeLocksTx, assertWebDAVTreeLocksAt_avoids,
          assertWebDAVLocksTx, assertWebDAVLocksAt_avoids, Unique.forall_iff, found]
  | move source destination overwrite =>
    rw [passes_of_pair rfl]
    simp [DavRequest.run, moveWebDAVResource, DavRequest.before, webDAVEntryToLink,
      assertWebDAVTreeLocksTx, assertWebDAVTreeLocksAt_avoids, enforceWebDAVMutationLimitTx,
      Unique.forall_iff]
  | proppatch path patches =>
    have valid : Avoids .webDAVLocked (forM patches validateWebDAVDeadProperty) :=
      avoids_forM (by simp [validateWebDAVDeadProperty]) _
    rw [passes_of_single rfl]
    simp [DavRequest.run, patchWebDAVProperties, assertWebDAVConditionsTx, DavRequest.before,
      assertWebDAVLocksTx, assertWebDAVLocksAt_avoids, evaluateFirstWebDAVConditionTx, valid,
      Unique.forall_iff]
  | cleanup => cases mutates
  | lock => cases mutates
  | refresh => cases mutates
  | unlock => cases mutates

/-- The list of a lock's holder lets the lock through where the checked path is the lock's root. -/
lemma HolderHeader.allows (holder : HolderHeader s now request condition)
    (covered : request.Covered s now lock) (root : lock.rootPath = path)
    (canonical : clean path = path) (etag : Text) :
    webDAVIfHeaderAllows condition path etag [lock] = true := by
  obtain ⟨token, list, member, tagged, resource, terms⟩ := holder lock covered
  refine List.any_eq_true.mpr ⟨list, member, ?_⟩
  simp [webDAVIfListApplies, IfList.target, tagged, resource, root, canonical,
    webDAVIfListSatisfied, terms, webDAVIfTermSatisfied, token]

lemma mem_locks_of_found (found : lock ∈ s.queryApplicableWebDAVLocks now path ∨
      lock ∈ s.queryOverlappingWebDAVLocks now path) : lock ∈ s.locks ∧ now < lock.expiresAt := by
  unfold queryApplicableWebDAVLocks queryOverlappingWebDAVLocks at found
  simp only [Sqlite.mem_orderBy, List.mem_filter, decide_eq_true_eq] at found
  exact found.elim (fun row => ⟨row.1, row.2.1⟩) fun row => ⟨row.1, row.2.1⟩

/-- A lock that is found for its own root covers a path of the request. -/
lemma covered_of_lookup {lookup : Text × List WebDAVLock}
    (member : lookup ∈ request.lookups s now) (found : lock ∈ lookup.2)
    (root : lock.rootPath = lookup.1) : request.Covered s now lock ∧ clean lookup.1 = lookup.1 := by
  have covered : ∀ {path tree}, ⟨path, tree⟩ ∈ request.affected s → lock.rootPath = path →
      lock ∈ s.queryApplicableWebDAVLocks now path ∨ lock ∈ s.queryOverlappingWebDAVLocks now path →
      request.Covered s now lock := fun affected same found =>
    ⟨(mem_locks_of_found found).1, (mem_locks_of_found found).2, _, affected, .inl same⟩
  cases request with
  | mkcol path =>
    obtain rfl := List.mem_singleton.mp member
    exact ⟨covered List.mem_cons_self root (.inl found), path.canonical⟩
  | put path fileID size =>
    obtain rfl := List.mem_singleton.mp member
    exact ⟨covered List.mem_cons_self root (.inl found), path.canonical⟩
  | proppatch path patches =>
    obtain rfl := List.mem_singleton.mp member
    exact ⟨covered List.mem_cons_self root (.inl found), path.canonical⟩
  | delete path =>
    obtain rfl := List.mem_singleton.mp member
    exact ⟨covered List.mem_cons_self root (.inr found), path.canonical⟩
  | copy source destination overwrite recursive =>
    obtain rfl := List.mem_singleton.mp member
    refine ⟨covered List.mem_cons_self root ?_, destination.canonical⟩
    simp only at found
    split_ifs at found
    · exact .inl found
    · exact .inr found
  | move source destination overwrite =>
    rcases List.mem_cons.mp member with rfl | last
    · exact ⟨covered List.mem_cons_self root (.inr found), source.canonical⟩
    · obtain rfl := List.mem_singleton.mp last
      exact ⟨covered (List.mem_cons_of_mem _ List.mem_cons_self) root (.inr found),
        destination.canonical⟩
  | cleanup => cases member
  | lock => cases member
  | refresh => cases member
  | unlock => cases member

/-- **When the holder of the locks is not refused.**  Besides the locks whose root is a checked
path, the header has to let through every lock that was found for the path, by a list for that
path. -/
theorem lock_holder_admitted_iff (mutates : request.mutates = true)
    (holder : HolderHeader s now request options.condition) :
    request.run env now options s ≠ .error .webDAVLocked ↔
      (request.before s options = .ok () →
        request.Passes s now options.condition fun path found =>
          ∀ etag, s.queryWebDAVETagByPath path = .ok etag → ∀ lock ∈ found, lock.rootPath ≠ path →
            webDAVIfHeaderAllows options.condition path etag [lock] = true) := by
  refine (DavRequest.run_avoids mutates).trans (forall_congr' fun _ => ?_)
  refine forall_congr' fun front => forall_congr' fun lookup => forall_congr' fun rest =>
    forall_congr' fun split => forall_congr' fun _ => forall_congr' fun etag =>
      forall_congr' fun _ => forall_congr' fun lock => forall_congr' fun found => ?_
  refine ⟨fun allowed _ => allowed, fun allowed => ?_⟩
  by_cases root : lock.rootPath = lookup.1
  · have member : lookup ∈ request.lookups s now := by rw [split]; simp
    obtain ⟨covered, canonical⟩ := covered_of_lookup member found root
    exact holder.allows covered root canonical etag
  · exact allowed root

end

/-! ## The holder of a locked collection -/

/-- The header `</d> (<opaquelocktoken:u>)` of a request for the path. -/
def tagged (path : Text) : MutationOptions :=
  withLists path [⟨collectionD.text, [⟨false, "opaquelocktoken:u".toList, []⟩]⟩]

lemma tagged_holder (path : Text) (request : DavRequest) :
    HolderHeader lockedCollection.store 0 request (tagged path).condition := by
  have all : ∀ lock ∈ lockedCollection.store.locks,
      lock.token ≠ [] ∧ collectionD.text = lock.rootPath ∧
        lock.token = "opaquelocktoken:u".toList := by
    decide +kernel
  rintro lock ⟨member, _⟩
  obtain ⟨token, root, same⟩ := all lock member
  refine ⟨token, _, List.mem_cons_self, by decide, collectionD.canonical.trans root, ?_⟩
  rw [same]

/-- The holder may change the collection itself. -/
theorem holder_proppatch_admitted :
    (DavRequest.proppatch collectionD []).mutates = true ∧
      HolderHeader lockedCollection.store 0 (.proppatch collectionD [])
        (tagged collectionD.text).condition ∧
      (DavRequest.proppatch collectionD []).run .plain 0 (tagged collectionD.text)
        lockedCollection.store ≠ .error .webDAVLocked := by
  refine ⟨rfl, tagged_holder _ _, (lock_holder_admitted_iff rfl (tagged_holder _ _)).mpr ?_⟩
  intro _
  refine (passes_of_single rfl).mpr fun etag _ lock found other => absurd ?_ other
  have all : ∀ lock ∈ lockedCollection.store.locks, lock.rootPath = collectionD.text := by
    decide +kernel
  exact all lock (mem_locks_of_found (.inl found)).1

/-- The holder of the collection's lock may not put a file into it. -/
theorem holder_put_refused :
    System.Reachable .plain noArchive (fun _ _ => True) lockedCollection ∧
      HolderHeader lockedCollection.store lockedCollection.clock putDF
        (tagged fileDF.text).condition ∧
      putDF.run .plain lockedCollection.clock (tagged fileDF.text) lockedCollection.store =
        .error .webDAVLocked := by
  have clock : lockedCollection.clock = 0 := by decide +kernel
  rw [clock]
  refine ⟨(System.Reachable.init 0).run _, tagged_holder _ _, ?_⟩
  decide +kernel

end TgFile
