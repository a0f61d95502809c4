import TgFile.System.LockTable

/-! # Locks exclude each other

Two unexpired locks are not to overlap.  LOCK checks this on a path that exists, and MOVE takes the
locks of the moved tree along; this module says for which requests that is enough. -/

namespace TgFile

open Go Go.Path Result WebDAV Store

variable {env : Env} {archive : Backup.Archive} {s s' : Store} {now : Int} {a b a' : WebDAVLock}
  {target : List Text}

/-- Two locks with the same root, or an infinity lock above the other. -/
def Overlap (a b : WebDAVLock) : Prop :=
  a.rootPath = b.rootPath ∨ (a.depth = .infinity ∧ ProperAncestor a.rootPath b.rootPath) ∨
    (b.depth = .infinity ∧ ProperAncestor b.rootPath a.rootPath)

instance (a b : WebDAVLock) : Decidable (Overlap a b) := inferInstanceAs (Decidable (_ ∨ _))

lemma Overlap.symm (overlap : Overlap a b) : Overlap b a :=
  overlap.elim (fun same => .inl same.symm) fun above => .inr above.symm

/-- The locks may not both be unexpired. -/
def Excludes (now : Int) (a b : WebDAVLock) : Prop :=
  now < a.expiresAt → now < b.expiresAt → ¬Overlap a b

instance : Std.Symm (Excludes now) :=
  ⟨fun _ _ excludes left right overlap => excludes right left overlap.symm⟩

/-- No two unexpired locks overlap. -/
def Exclusive (now : Int) (rows : List WebDAVLock) : Prop := rows.Pairwise (Excludes now)

lemma Exclusive.later {rows : List WebDAVLock} {later : Int} (exclusive : Exclusive now rows)
    (order : now ≤ later) : Exclusive later rows :=
  exclusive.imp fun excludes left right =>
    excludes (order.trans_lt left) (order.trans_lt right)

lemma Excludes.congr {b' : WebDAVLock} (excludes : Excludes now a b)
    (timeA : now < a'.expiresAt → now < a.expiresAt)
    (timeB : now < b'.expiresAt → now < b.expiresAt) (overlap : Overlap a' b' → Overlap a b) :
    Excludes now a' b' :=
  fun left right both => excludes (timeA left) (timeB right) (overlap both)

lemma Exclusive.inherits {rows rows' : List WebDAVLock} (exclusive : Exclusive now rows)
    (inherits : Inherits rows rows') : Exclusive now rows' := by
  obtain ⟨f, kept, sub, rfl, same⟩ := inherits
  refine List.pairwise_map.mpr ((List.Pairwise.sublist sub exclusive).imp_of_mem ?_)
  intro a b inA inB excludes
  obtain ⟨pathA, depthA, timeA⟩ := same a inA
  obtain ⟨pathB, depthB, timeB⟩ := same b inB
  refine excludes.congr (timeA ▸ id) (timeB ▸ id) fun overlap => ?_
  simpa only [Overlap, pathA, pathB, depthA, depthB] using overlap

/-! ## A refreshed lock -/

lemma Exclusive.refresh (table : LockTable s) (exclusive : Exclusive now s.locks)
    {lock : WebDAVLock} (member : lock ∈ s.locks) (unexpired : now < lock.expiresAt)
      (deadline : Int) :
    Exclusive now (s.locks.map fun row =>
      if row.token = lock.token then { row with expiresAt := deadline } else row) := by
  -- the only row with the token is the lock itself
  have old : ∀ row ∈ s.locks, row.token = lock.token → now < row.expiresAt := by
    intro row inRows same
    rw [table.eq_of_token inRows member same]
    exact unexpired
  have time : ∀ row ∈ s.locks, now < (if row.token = lock.token then
      { row with expiresAt := deadline } else row).expiresAt → now < row.expiresAt := by
    intro row inRows later
    split_ifs at later with same
    · exact old row inRows same
    · exact later
  refine List.pairwise_map.mpr (exclusive.imp_of_mem fun {a b} inA inB excludes => ?_)
  refine excludes.congr (time a inA) (time b inB) fun overlap => ?_
  split_ifs at overlap <;> exact overlap

/-! ## A new lock -/

/-- The query finds the locks of a path and the infinity locks above it. -/
lemma lockApplies_of_above {lock : WebDAVLock} (abs : isAbs lock.rootPath = true)
    (canonical : clean lock.rootPath = lock.rootPath) (path : Resource)
    (infinite : lock.depth = .infinity)
    (above : ProperAncestor lock.rootPath path.text) : lockApplies lock path.text = true := by
  unfold lockApplies
  rw [decide_eq_true_eq]
  refine .inr ⟨infinite, ?_⟩
  by_cases root : elements lock.rootPath = []
  · refine .inl ⟨?_, ?_⟩
    · rw [← canonical, clean_eq_render abs, root, render_nil]
    · rw [path.text_eq]
      exact Sqlite.like_any_of_prefix ['/'] _
  · obtain ⟨rest, same⟩ := text_below (p := ⟨lock.rootPath, abs, canonical⟩) (q := path) root above
    rw [same]
    have split : lock.rootPath ++ ['/', '%'] = (lock.rootPath ++ ['/']) ++ ['%'] := by simp
    have glued : lock.rootPath ++ '/' :: rest = (lock.rootPath ++ ['/']) ++ rest := by simp
    rw [split, glued]
    exact .inr (Sqlite.like_any_of_prefix _ _)

/-- The query of an infinity lock finds the locks below its path, unless that is the root. -/
lemma lockInside_of_below {lock : WebDAVLock} (abs : isAbs lock.rootPath = true)
    (canonical : clean lock.rootPath = lock.rootPath) (path : Resource)
      (notRoot : elements path.text ≠ [])
    (below : ProperAncestor path.text lock.rootPath) : lockInside lock path.text = true := by
  obtain ⟨rest, same⟩ := text_below (p := path) (q := ⟨lock.rootPath, abs, canonical⟩) notRoot below
  rw [lockInside, Sqlite.like_escapeLike_any]
  refine Sqlite.foldCase_isPrefix ⟨rest, ?_⟩
  rw [List.append_assoc]
  exact same.symm

/-- Locks on a path that exists, where the check has found none that conflicts. -/
lemma excludes_of_free (table : LockTable s) (path : Resource) {depth : LockDepth}
    (free : s.assertNoConflictingWebDAVLockTx now path.text depth = .ok ())
    (root : path.text = ['/'] → depth = .infinity →
      ∀ lock ∈ s.locks, now < lock.expiresAt → lock.rootPath = ['/'])
    {new : WebDAVLock} (rootPath : new.rootPath = path.text) (sameDepth : new.depth = depth) :
    ∀ lock ∈ s.locks, Excludes now lock new := by
  intro lock member unexpired _ overlap
  have rooted := table.rooted lock member
  have applies : lockApplies lock path.text = false := by
    refine Bool.eq_false_iff.mpr fun found => ?_
    simp only [assertNoConflictingWebDAVLockTx, require_ok] at free
    cases depth with
    | zero =>
      have listed : lock ∈ s.queryApplicableWebDAVLocks now path.text := by
        rw [queryApplicableWebDAVLocks, Sqlite.mem_orderBy, path.canonical]
        simp [member, unexpired, found]
      simp only [free, List.not_mem_nil] at listed
    | infinity =>
      have listed : lock ∈ s.queryOverlappingWebDAVLocks now path.text := by
        rw [queryOverlappingWebDAVLocks, Sqlite.mem_orderBy, path.canonical]
        simp [member, unexpired, found]
      simp only [free, List.not_mem_nil] at listed
  rcases overlap with same | ⟨infinite, above⟩ | ⟨infinite, below⟩
  · rw [rootPath] at same
    simp [lockApplies, same] at applies
  · rw [rootPath] at above
    rw [lockApplies_of_above rooted.abs rooted.canonical path infinite above] at applies
    cases applies
  · rw [sameDepth] at infinite
    rw [rootPath] at below
    by_cases atRoot : elements path.text = []
    · have text : path.text = ['/'] := by rw [path.text_eq, atRoot, render_nil]
      rw [root text infinite lock member unexpired, text] at below
      exact below.2 rfl
    · have inside := lockInside_of_below rooted.abs rooted.canonical path atRoot below
      simp only [assertNoConflictingWebDAVLockTx, infinite, require_ok] at free
      have listed : lock ∈ s.queryOverlappingWebDAVLocks now path.text := by
        rw [queryOverlappingWebDAVLocks, Sqlite.mem_orderBy, path.canonical]
        simp [member, unexpired, inside]
      simp only [free, List.not_mem_nil] at listed

/-- Locks on a path that does not exist yet, below no infinity lock. -/
lemma excludes_of_missing (table : LockTable s) (path : Resource)
    (missing : s.dir.find (elements path.text) = none)
    (clear : ∀ lock ∈ s.locks, now < lock.expiresAt → lock.depth = .infinity →
      ¬ProperAncestor lock.rootPath path.text) {new : WebDAVLock}
    (rootPath : new.rootPath = path.text) : ∀ lock ∈ s.locks, Excludes now lock new := by
  intro lock member unexpired _ overlap
  obtain ⟨e, shown, -⟩ := (table.rooted lock member).shown
  obtain ⟨x, found, -⟩ := Directory.view_eq_some.mp shown
  rcases overlap with same | ⟨infinite, above⟩ | ⟨-, below⟩
  · rw [same, rootPath, missing] at found
    cases found
  · exact clear lock member unexpired infinite (rootPath ▸ above)
  · rw [rootPath] at below
    obtain ⟨rest, same⟩ := below.1
    rw [← same, Directory.find, Tree.Schema.find_none_append missing] at found
    cases found

/-! ## Moved locks -/

/-- No unexpired infinity lock is above the destination while an unexpired lock is in the source. -/
def MoveClear (s : Store) (now : Int) (source destination : Text) : Prop :=
  ∀ moved ∈ s.locks, now < moved.expiresAt → elements source <+: elements moved.rootPath →
    ∀ lock ∈ s.locks, now < lock.expiresAt → lock.depth = .infinity →
      ¬ProperAncestor lock.rootPath destination

instance (s : Store) (now : Int) (source destination : Text) :
    Decidable (MoveClear s now source destination) :=
  inferInstanceAs (Decidable (∀ moved ∈ s.locks, _ → _ → ∀ lock ∈ s.locks, _))

lemma properAncestor_append {ra rb : List Text} {a b : Text} (ofA : elements a = target ++ ra)
    (ofB : elements b = target ++ rb) : ProperAncestor a b ↔ ra <+: rb ∧ ra ≠ rb := by
  rw [ProperAncestor, ofA, ofB, List.prefix_append_right_inj, ne_eq, List.append_cancel_left_eq]

/-- Two locks of the moved tree stay as they are to each other. -/
lemma overlap_of_moved {source ra rb : List Text} {b' : WebDAVLock}
    (sameRoot : ra = rb → a.rootPath = b.rootPath) (ofA : elements a.rootPath = source ++ ra)
    (ofB : elements b.rootPath = source ++ rb) (toA : elements a'.rootPath = target ++ ra)
    (toB : elements b'.rootPath = target ++ rb) (depthA : a'.depth = a.depth)
    (depthB : b'.depth = b.depth) (overlap : Overlap a' b') : Overlap a b := by
  rcases overlap with same | ⟨infinite, above⟩ | ⟨infinite, above⟩
  · refine .inl (sameRoot ?_)
    rw [same, toB] at toA
    exact (List.append_cancel_left toA).symm
  · refine .inr (.inl ⟨depthA ▸ infinite, ?_⟩)
    rwa [properAncestor_append ofA ofB, ← properAncestor_append toA toB]
  · refine .inr (.inr ⟨depthB ▸ infinite, ?_⟩)
    rwa [properAncestor_append ofB ofA, ← properAncestor_append toB toA]

/-- A lock of the moved tree and one that stays overlap only when the latter is an infinity lock
above the destination. -/
lemma above_of_overlap {rest : List Text} {destination : Text}
    (toA : elements a'.rootPath = target ++ rest) (atTarget : elements destination = target)
    (apart : ¬target <+: elements b.rootPath) (overlap : Overlap a' b) :
    b.depth = .infinity ∧ ProperAncestor b.rootPath destination := by
  rcases overlap with same | ⟨-, above⟩ | ⟨infinite, above⟩
  · rw [same] at toA
    exact absurd ⟨rest, toA.symm⟩ apart
  · have front := above.1
    rw [toA] at front
    exact absurd ((List.prefix_append _ _).trans front) apart
  · have front := above.1
    rw [toA] at front
    rcases List.prefix_or_prefix_of_prefix front (List.prefix_append target rest) with low | high
    · refine ⟨infinite, atTarget ▸ low, fun same => apart ?_⟩
      rw [same, atTarget]
    · exact absurd high apart

lemma Exclusive.move {source destination : Resource} (table : LockTable s)
    (exclusive : Exclusive now s.locks) (clear : MoveClear s now source.text destination.text)
    {kept : List WebDAVLock} (sub : kept.Sublist s.locks)
    (relocated : ∀ lock ∈ kept, Relocated (elements source.text) (elements destination.text) lock
      (movedLock source.text destination.text lock)) :
    Exclusive now (kept.map (movedLock source.text destination.text)) := by
  have depth : ∀ lock, (movedLock source.text destination.text lock).depth = lock.depth :=
    fun lock => by unfold movedLock; split_ifs <;> rfl
  have time : ∀ lock, (movedLock source.text destination.text lock).expiresAt = lock.expiresAt :=
    fun lock => by unfold movedLock; split_ifs <;> rfl
  refine List.pairwise_map.mpr ((List.Pairwise.sublist sub exclusive).imp_of_mem ?_)
  intro a b inA inB excludes left right overlap
  rw [time] at left right
  refine excludes left right ?_
  have rootedA := table.rooted a (sub.subset inA)
  have rootedB := table.rooted b (sub.subset inB)
  cases relocated a inA with
  | moved ra ofA toA =>
    cases relocated b inB with
    | moved rb ofB toB =>
      refine overlap_of_moved (fun same => ?_) ofA ofB toA toB (depth a) (depth b) overlap
      exact eq_of_elements rootedA.abs rootedB.abs rootedA.canonical rootedB.canonical
        (by rw [ofA, ofB, same])
    | kept outside apart same =>
      obtain ⟨infinite, above⟩ := above_of_overlap toA rfl (same ▸ apart) overlap
      rw [depth] at infinite
      rw [same] at above
      exact absurd above (clear a (sub.subset inA) left ⟨ra, ofA.symm⟩ b (sub.subset inB) right
        infinite)
  | kept outside apart same =>
    cases relocated b inB with
    | moved rb ofB toB =>
      obtain ⟨infinite, above⟩ := above_of_overlap toB rfl (same ▸ apart) overlap.symm
      rw [depth] at infinite
      rw [same] at above
      exact absurd above (clear b (sub.subset inB) right ⟨rb, ofB.symm⟩ a (sub.subset inA) left
        infinite)
    | kept outside' apart' same' =>
      simpa only [Overlap, same, same', depth] using overlap

/-! ## Runs -/

/-- A LOCK request that creates its path is below no unexpired infinity lock, and one for the root
with its whole tree finds no unexpired lock elsewhere.  A MOVE request rewrites exactly the locks
of its source, and does not bring an unexpired one below an unexpired infinity lock. -/
def KeepsExclusive (σ : System) : Action → Prop
  | .dav (.lock path depth _ _ _ _ _) _ =>
    (σ.store.dir.find (elements path.text) = none → ∀ lock ∈ σ.store.locks,
      σ.clock < lock.expiresAt → lock.depth = .infinity →
        ¬ProperAncestor lock.rootPath path.text) ∧
    (path.text = ['/'] → depth = .infinity → ∀ lock ∈ σ.store.locks,
      σ.clock < lock.expiresAt → lock.rootPath = ['/'])
  | .dav (.move source destination _) _ =>
    MoveExact σ.store source.text ∧ MoveClear σ.store σ.clock source.text destination.text
  | _ => True

/-- The lock table is sound and no two unexpired locks overlap. -/
structure LocksExclusive (s : Store) (now : Int) : Prop where
  sound : Sound s
  table : LockTable s
  exclusive : Exclusive now s.locks

lemma LocksExclusive.quiet (before : LocksExclusive s now) (sound : Sound s')
    (quiet : Quiet s s') : LocksExclusive s' now :=
  ⟨sound, quiet.table, before.exclusive.inherits quiet.inherits⟩

lemma LocksExclusive.lock (before : LocksExclusive s now) (path : Resource)
    {request : LockRequest} (same : request.path = path.text) {fileID : Nat} {uuid : Text}
    {lock : WebDAVLock} {created : Bool} (sound : Sound s')
    (clear : s.dir.find (elements path.text) = none → ∀ lock ∈ s.locks, now < lock.expiresAt →
      lock.depth = .infinity → ¬ProperAncestor lock.rootPath path.text)
    (root : path.text = ['/'] → request.depth = .infinity → ∀ lock ∈ s.locks,
      now < lock.expiresAt → lock.rootPath = ['/'])
    (run : s.lockWebDAVResource now request fileID uuid = .ok (s', lock, created)) :
    LocksExclusive s' now := by
  obtain ⟨table, rows, rootPath, depth, -⟩ := before.table.locked before.sound path same run
  obtain ⟨s₁, entry, target, -, -, -, -⟩ := lockWebDAVResource_ok before.sound.tree path same run
  have excludes : ∀ other ∈ s.locks, Excludes now other lock := by
    cases target with
    | present found free =>
      rw [same] at free
      exact excludes_of_free before.table path free root rootPath depth
    | created missing notRoot prepared made =>
      rw [same] at missing
      exact excludes_of_missing before.table path missing (clear missing) rootPath
  refine ⟨sound, table, ?_⟩
  rw [rows]
  refine List.pairwise_append.mpr ⟨before.exclusive, List.pairwise_singleton _ _, ?_⟩
  intro a inA b inB
  rw [List.mem_singleton.mp inB]
  exact excludes a inA

lemma LocksExclusive.dav (before : LocksExclusive s now) {request : DavRequest}
    {options : MutationOptions} {σ : System} (atStore : σ.store = s) (atClock : σ.clock = now)
    (keeps : KeepsExclusive σ (.dav request options))
    (run : request.run env now options s = .ok s') : LocksExclusive s' now := by
  subst atStore atClock
  have sound := DavRequest.sound before.sound before.table.abs run
  by_cases still : request.relocks = false
  · exact before.quiet sound (DavRequest.quiet before.sound before.table still run)
  · cases request with
    | lock path depth ownerXML principal timeout unpublishedFileID uuid =>
      simp only [DavRequest.run, map_ok] at run
      obtain ⟨⟨_, lock, created⟩, run, rfl⟩ := run
      exact before.lock path rfl sound keeps.1 keeps.2 run
    | refresh path token principal timeout =>
      obtain ⟨lock, member, unexpired, rfl⟩ := refreshWebDAVLock_ok run
      exact ⟨sound, before.table.refresh lock _,
        before.exclusive.refresh before.table member unexpired _⟩
    | move source destination overwrite =>
      simp only [DavRequest.run, map_ok] at run
      obtain ⟨⟨_, created⟩, run, rfl⟩ := run
      obtain ⟨removed, lost, hit, moved, -, update⟩ :=
        moveWebDAVResource_effect before.sound.tree source destination run
      obtain ⟨table, rows, outcome⟩ :=
        before.table.move before.sound source destination keeps.1 moved update
      have sub : (σ.store.locksWithout removed).Sublist σ.store.locks := List.filter_sublist
      refine ⟨sound, table, ?_⟩
      rw [rows]
      rcases outcome with same | relocated
      · refine before.exclusive.inherits ⟨_, _, sub, rfl, fun lock member => ?_⟩
        refine ⟨same lock member, ?_, ?_⟩ <;> (unfold movedLock; split_ifs <;> rfl)
      · exact before.exclusive.move before.table keeps.2 sub relocated
    | _ => exact absurd rfl still

/-- An action that is allowed keeps locks apart. -/
lemma LocksExclusive.step {σ : System} (before : LocksExclusive σ.store σ.clock)
    (action : Action) (keeps : KeepsExclusive σ action) :
    LocksExclusive (σ.step env archive action).store (σ.step env archive action).clock := by
  suffices now : LocksExclusive (σ.step env archive action).store σ.clock from
    ⟨now.sound, now.table, now.exclusive.later (System.clock_le_step action)⟩
  cases beside : action.beside with
  | true =>
    have same : SamePlaces σ.store (σ.step env archive action).store := step_samePlaces beside
    exact before.quiet (same.sound before.sound) (before.table.samePlaces before.sound same)
  | false =>
    cases action with
    | dav request options =>
      rcases System.step_dav request options with same | ⟨-, run⟩
      · rw [same]
        exact before
      · exact before.dav rfl rfl keeps run
    | s3 request =>
      rcases System.step_s3 request with same | run
      · rw [same]
        exact before
      · exact before.quiet (S3Request.sound before.sound run)
          (S3Request.quiet before.sound before.table run)
    | job request =>
      rcases System.step_job request with same | run
      · rw [same]
        exact before
      · exact before.quiet (JobRequest.sound before.sound run)
          (JobRequest.quiet before.sound before.table run)
    | link path fileID size isDir =>
      rcases System.step_link path fileID size isDir with same | run
      · rw [same]
        exact before
      · obtain ⟨gained, kept, -, -, locks⟩ :=
          createFileLink_effect before.sound.tree path run
        exact before.quiet (createFileLink_sound before.sound run) (before.table.same kept locks)
    | _ => cases beside

/-- **Lock exclusivity.**  In every run whose LOCK and MOVE requests meet the condition, no two
unexpired locks overlap. -/
theorem reachable_locks_exclusive {σ : System}
    (reachable : System.Reachable env archive KeepsExclusive σ) :
    ∀ a ∈ σ.store.locks, ∀ b ∈ σ.store.locks, a ≠ b → σ.clock < a.expiresAt →
      σ.clock < b.expiresAt → ¬Overlap a b := by
  have holds : LocksExclusive σ.store σ.clock := by
    induction reachable with
    | init clock =>
      exact ⟨sound_empty, ⟨fun lock member => (nomatch member), .nil⟩, .nil⟩
    | step _ action keeps ih => exact ih.step action keeps
  intro a inA b inB different
  exact holds.exclusive.forall inA inB different

/-- A directory. -/
def collectionG : Resource := ⟨"/g".toList, by decide, by decide⟩

/-- A file in it. -/
def fileGF : Resource := ⟨"/g/f".toList, by decide, by decide⟩

/-- The lock of the collection `/d`, and then that of the missing `/g/f`, which is created. -/
def lockedApart : System :=
  lockedCollection.run .plain noArchive
    [.dav (.mkcol collectionG) noOptions, .createDraft 0 true, .finishCreate 0,
      .dav (.lock fileGF .zero [] "bob".toList 3600000 2 "v".toList) noOptions]

/-- The locks of `/d` and `/g/f` do not overlap. -/
theorem lockedApart_exclusive :
    ∃ a ∈ lockedApart.store.locks, ∃ b ∈ lockedApart.store.locks, a ≠ b ∧
      lockedApart.clock < a.expiresAt ∧ lockedApart.clock < b.expiresAt ∧ ¬Overlap a b := by
  have start : System.Reachable .plain noArchive KeepsExclusive (.init 0) := .init 0
  have first := ((start.step (.job .importRoot) trivial).step (.dav (.mkcol collectionD) noOptions)
    trivial).step (.dav (.lock collectionD .infinity [] "alice".toList 3600000 0 "u".toList)
      noOptions) ⟨by decide +kernel, by decide +kernel⟩
  have files := ((((first.step (.createDraft 0 false) trivial).step (.finishCreate 0) trivial).step
    (.dav (.mkcol collectionG) noOptions) trivial).step (.createDraft 0 true) trivial).step
      (.finishCreate 0) trivial
  -- the path of the second lock is missing, and the first lock is on no collection above it
  have second := files.step (.dav (.lock fileGF .zero [] "bob".toList 3600000 2 "v".toList)
    noOptions) ⟨by decide +kernel, by decide +kernel⟩
  obtain ⟨a, inA, b, inB, different, heldA, heldB⟩ : ∃ a ∈ lockedApart.store.locks,
      ∃ b ∈ lockedApart.store.locks, a ≠ b ∧ lockedApart.clock < a.expiresAt ∧
        lockedApart.clock < b.expiresAt := by decide +kernel
  exact ⟨a, inA, b, inB, different, heldA, heldB,
    reachable_locks_exclusive second a inA b inB different heldA heldB⟩

/-- A LOCK request below the locked collection `/d` creates `/d/f` with a lock of its own. -/
def lockBelowLock : System :=
  lockedCollection.run .plain noArchive
    [.createDraft 0 true, .finishCreate 0,
      .dav (.lock fileDF .zero [] "bob".toList 3600000 2 "v".toList) noOptions]

/-- The lock on `/d` and the one on `/d/f` overlap. -/
theorem lock_below_infinity_lock :
    System.Reachable .plain noArchive (fun _ _ => True) lockBelowLock ∧
      ∃ a ∈ lockBelowLock.store.locks, ∃ b ∈ lockBelowLock.store.locks, a ≠ b ∧
        lockBelowLock.clock < a.expiresAt ∧ lockBelowLock.clock < b.expiresAt ∧ Overlap a b := by
  refine ⟨((System.Reachable.init 0).run _).run _, ?_⟩
  decide +kernel

end TgFile
