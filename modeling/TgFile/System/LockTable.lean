import TgFile.System.Effects
import TgFile.WebDAV.Protection
import Mathlib.Data.List.Pairwise

/-! # The lock table

Every lock names the entry at its root.  Requests other than LOCK, a refresh and MOVE leave each
lock they keep on its path. -/

namespace TgFile

open Go Go.Path Result WebDAV Store

variable {env : Env} {archive : Backup.Archive} {s s' : Store} {now : Int} {d : Directory}
  {removed : List Entry} {lock : WebDAVLock} {entry : Entry} {fileID : Nat}

/-- The lock names the entry at its root. -/
structure Rooted (d : Directory) (lock : WebDAVLock) : Prop where
  abs : isAbs lock.rootPath = true
  canonical : clean lock.rootPath = lock.rootPath
  shown : ∃ e, d.view (elements lock.rootPath) = some e ∧ e.entryID = lock.rootEntryID

/-- The invariant of the lock table. -/
structure LockTable (s : Store) : Prop where
  rooted : ∀ lock ∈ s.locks, Rooted s.dir lock
  apart : s.locks.Pairwise fun a b => a.clash b = false

lemma clash_comm (a b : WebDAVLock) : a.clash b = b.clash a := by
  simp [WebDAVLock.clash, eq_comm]

instance : Std.Symm fun a b : WebDAVLock => a.clash b = false :=
  ⟨fun a b free => (clash_comm b a).trans free⟩

lemma LockTable.eq_of_token (table : LockTable s) {a b : WebDAVLock} (inA : a ∈ s.locks)
    (inB : b ∈ s.locks) (same : a.token = b.token) : a = b := by
  by_contra different
  have free := table.apart.forall inA inB different
  simp [WebDAVLock.clash, same] at free

lemma LockTable.abs (table : LockTable s) : ∀ lock ∈ s.locks, isAbs lock.rootPath = true :=
  fun lock member => (table.rooted lock member).abs

lemma Rooted.kept {d' : Directory} (rooted : Rooted d lock) (keeps : Directory.Keeps d d' removed)
    (clear : lock.rootEntryID ∉ removed.map Entry.entryID) : Rooted d' lock := by
  obtain ⟨e, shown, id⟩ := rooted.shown
  obtain ⟨e', shown', id', -⟩ := keeps.kept _ e shown (by rw [id]; exact clear)
  exact ⟨rooted.abs, rooted.canonical, e', shown', id'.trans id⟩

lemma properAncestor_iff {p q : Resource} : ProperAncestor p.text q.text ↔
    ∃ rest, rest ≠ [] ∧ elements q.text = elements p.text ++ rest := by
  constructor
  · rintro ⟨⟨rest, same⟩, proper⟩
    refine ⟨rest, fun empty => proper ?_, same.symm⟩
    rw [← same, empty, List.append_nil]
  · rintro ⟨rest, proper, same⟩
    exact ⟨⟨rest, same.symm⟩, fun equal => proper (by simpa [equal] using same)⟩

lemma Resource.text_eq (path : Resource) : path.text = render (elements path.text) := by
  rw [← clean_eq_render path.abs, path.canonical]

/-- The text of a path below another one. -/
lemma text_below {p q : Resource} (notRoot : elements p.text ≠ [])
    (above : ProperAncestor p.text q.text) : ∃ rest, q.text = p.text ++ '/' :: rest := by
  obtain ⟨rest, proper, same⟩ := properAncestor_iff.mp above
  obtain ⟨first, rest, rfl⟩ := List.exists_cons_of_ne_nil proper
  refine ⟨first ++ rest.flatMap ('/' :: ·), ?_⟩
  rw [q.text_eq, same, render_append notRoot, ← p.text_eq]
  rfl

/-- A lock as a resource. -/
def Rooted.resource {d : Directory} {lock : WebDAVLock} (rooted : Rooted d lock) : Resource :=
  ⟨lock.rootPath, rooted.abs, rooted.canonical⟩

/-- The rows of a table that were kept, with their roots, depths and times. -/
def Inherits (rows rows' : List WebDAVLock) : Prop :=
  ∃ (f : WebDAVLock → WebDAVLock) (kept : List WebDAVLock), kept.Sublist rows ∧
    rows' = kept.map f ∧ ∀ lock ∈ kept, (f lock).rootPath = lock.rootPath ∧
      (f lock).depth = lock.depth ∧ (f lock).expiresAt = lock.expiresAt

lemma Inherits.of_sublist {rows rows' : List WebDAVLock} (sub : rows'.Sublist rows) :
    Inherits rows rows' := ⟨id, rows', sub, by simp, fun _ _ => ⟨rfl, rfl, rfl⟩⟩

lemma Inherits.trans {rows rows₁ rows₂ : List WebDAVLock} (left : Inherits rows rows₁)
    (right : Inherits rows₁ rows₂) : Inherits rows rows₂ := by
  obtain ⟨f, kept, sub, rfl, same⟩ := left
  obtain ⟨g, later, sub', rfl, same'⟩ := right
  obtain ⟨first, subFirst, rfl⟩ := List.sublist_map_iff.mp sub'
  refine ⟨g ∘ f, first, subFirst.trans sub, by simp, fun lock member => ?_⟩
  obtain ⟨path, depth, time⟩ := same lock (subFirst.subset member)
  obtain ⟨path', depth', time'⟩ := same' (f lock) (List.mem_map_of_mem member)
  exact ⟨path'.trans path, depth'.trans depth, time'.trans time⟩

/-- What requests other than LOCK, a refresh and MOVE do to the locks. -/
structure Quiet (s s' : Store) : Prop where
  table : LockTable s'
  inherits : Inherits s.locks s'.locks

lemma Quiet.trans {s₁ : Store} (left : Quiet s s₁) (right : Quiet s₁ s') : Quiet s s' :=
  ⟨right.table, left.inherits.trans right.inherits⟩

section
variable (table : LockTable s)
include table

lemma LockTable.kept (keeps : Directory.Keeps s.dir s'.dir removed)
    (sub : s'.locks.Sublist s.locks)
    (clear : ∀ lock ∈ s'.locks, lock.rootEntryID ∉ removed.map Entry.entryID) : Quiet s s' where
  table :=
    { rooted := fun lock member =>
        (table.rooted lock (sub.subset member)).kept keeps (clear lock member)
      apart := table.apart.sublist sub }
  inherits := .of_sublist sub

lemma LockTable.without (keeps : Directory.Keeps s.dir s'.dir removed)
    (locks : s'.locks = s.locksWithout removed) : Quiet s s' := by
  refine table.kept keeps (locks ▸ List.filter_sublist) fun lock member => ?_
  rw [locks] at member
  simpa using (List.mem_filter.mp member).2

lemma LockTable.same (keeps : Directory.Keeps s.dir s'.dir [])
    (locks : s'.locks = s.locks) : Quiet s s' :=
  table.kept keeps (locks ▸ List.Sublist.refl _) (by simp)

lemma LockTable.samePlaces (sound : Sound s) (same : SamePlaces s s') : Quiet s s' :=
  table.same (.of_view (same.dir ▸ sound.tree.valid) fun _ => by rw [same.dir]) same.locks

lemma LockTable.unlocked (unlocked : Unlocked now s s' lock removed) : Quiet s s' := by
  have sub : s'.locks.Sublist s.locks := by
    rw [unlocked.locks]
    exact List.filter_sublist.trans List.filter_sublist
  refine table.kept unlocked.keeps sub fun row member => ?_
  rw [unlocked.locks] at member
  simpa using (List.mem_filter.mp member).2

lemma LockTable.published {path : Resource} {e : Entry}
    (keeps : Directory.Keeps s.dir s'.dir []) (shown : s'.dir.view (elements path.text) = some e)
    (locks : s'.locks = (s.publishLockNull e.entryID path.text).locks) : Quiet s s' where
  table := by
    constructor
    · intro lock member
      rw [locks] at member
      obtain ⟨row, inRows, rfl⟩ := List.mem_map.mp member
      split_ifs with here
      · exact ⟨(table.rooted row inRows).abs, (table.rooted row inRows).canonical, e,
          by rw [← here] at shown; exact shown, rfl⟩
      · exact (table.rooted row inRows).kept keeps (by simp)
    · rw [locks]
      refine List.pairwise_map.mpr (table.apart.imp fun {a b} free => ?_)
      split_ifs <;> exact free
  inherits :=
    ⟨_, s.locks, List.Sublist.refl _, locks, fun lock _ => by split_ifs <;> exact ⟨rfl, rfl, rfl⟩⟩

lemma LockTable.rebound (sound : Sound s) (path : ObjectPath)
    (keeps : Directory.Keeps s.dir s'.dir removed)
    (shown : s'.dir.view (elements path.text) = some entry.untimed)
    (rebinds : Rebinds s s' path.text entry removed) : Quiet s s' := by
  cases rebinds with
  | fresh missing locks => exact table.same keeps locks
  | @replaced old _ found file only moved =>
    have rows := Sqlite.updateRows_ok moved
    rw [List.nil_append, path.canonical] at rows
    -- the rows of the replaced entry are those with its path as their root
    have atPath : ∀ lock ∈ s.locks, lock.rootEntryID = old.entryID → lock.rootPath = path.text := by
      intro lock member same
      obtain ⟨e, there, id⟩ := (table.rooted lock member).shown
      have rooted := table.rooted lock member
      refine eq_of_elements rooted.abs path.abs rooted.canonical path.canonical ?_
      exact sound.tree.valid.path_unique_of_view there
        (Directory.view_eq_some.mpr ⟨old, found, rfl⟩) (id.trans same)
    refine ⟨⟨fun lock member => ?_, ?_⟩, _, s.locks, List.Sublist.refl _, rows,
      fun lock member => ?_⟩
    · rw [rows] at member
      obtain ⟨row, inRows, rfl⟩ := List.mem_map.mp member
      split_ifs with here
      · exact ⟨path.abs, path.canonical, _, shown, rfl⟩
      · refine (table.rooted row inRows).kept keeps fun gone => here ?_
        obtain ⟨x, inRemoved, id⟩ := List.mem_map.mp gone
        rw [only x inRemoved] at id
        simpa using id.symm
    · exact Sqlite.updateRows_pairwise clash_comm (by simpa using table.apart) moved
    · split_ifs with here
      · exact ⟨(atPath lock member (by simpa using here)).symm, rfl, rfl⟩
      · exact ⟨rfl, rfl, rfl⟩

/-! ## Requests -/

end

/-- The request may put a lock on a path where it was not. -/
def DavRequest.relocks : DavRequest → Bool
  | .lock .. | .refresh .. | .move .. => true
  | _ => false

lemma DavRequest.quiet {request : DavRequest} {options : MutationOptions} (sound : Sound s)
    (table : LockTable s) (still : request.relocks = false)
    (run : request.run env now options s = .ok s') : Quiet s s' := by
  cases request with
  | lock => cases still
  | refresh => cases still
  | move => cases still
  | cleanup =>
    refine (cleanup_rule (Quiet s) sound table.abs ?_ ⟨table, .of_sublist (List.Sublist.refl _)⟩
      run).2
    intro t t' lock member _ sound before pass
    obtain ⟨removed, unlocked, -⟩ := expireLock_ok sound.tree (table.abs lock member) pass
    exact before.trans (before.table.unlocked unlocked)
  | mkcol path =>
    obtain ⟨keeps, -, locks⟩ := createWebDAVCollection_effect sound.tree path run
    exact table.same keeps locks
  | put path fileID size =>
    simp only [DavRequest.run, map_ok] at run
    obtain ⟨⟨_, created⟩, run, rfl⟩ := run
    obtain ⟨lost, hit, e, keeps, -, -, shown, -, locks, -⟩ :=
      publishWebDAVFile_effect sound.tree path run
    exact table.published keeps shown locks
  | delete path =>
    obtain ⟨removed, lost, hit, keeps, -, locks⟩ :=
      deleteWebDAVResource_effect sound.tree path run
    exact table.without keeps locks
  | copy source destination overwrite recursive =>
    simp only [DavRequest.run, map_ok] at run
    obtain ⟨⟨_, created⟩, run, rfl⟩ := run
    obtain ⟨removed, lost, hit, keeps, -, locks⟩ :=
      copyWebDAVResource_effect sound.tree source destination run
    exact table.without keeps locks
  | proppatch path patches =>
    obtain ⟨keeps, -, locks⟩ := patchWebDAVProperties_effect sound.tree path run
    exact table.same keeps locks
  | unlock path token principal =>
    obtain ⟨lock, -, -, removed, unlocked⟩ := unlockWebDAVResource_ok sound.tree path run
    exact table.unlocked unlocked

lemma LockTable.publishS3 (table : LockTable s) (sound : Sound s) (path : ObjectPath) {size : Int}
    {metadata : S3ObjectMetadata} {condition : Option S3Condition}
    (run : s.publishS3ObjectTx env now path.text fileID size metadata condition =
      .ok (s', entry)) : Quiet s s' := by
  obtain ⟨removed, lost, hit, keeps, -, -, shown, -, rebinds⟩ :=
    publishS3ObjectTx_effect sound.tree path run
  exact table.rebound sound path keeps shown rebinds

lemma S3Request.quiet {request : S3Request} (sound : Sound s) (table : LockTable s)
    (run : request.run env now s = .ok s') : Quiet s s' := by
  by_cases still : request.publishes = false
  · exact table.samePlaces sound (S3Request.samePlaces still run)
  · cases request with
    | publish path fileID size metadata condition =>
      simp only [S3Request.run, map_ok] at run
      obtain ⟨⟨_, entry⟩, run, rfl⟩ := run
      exact table.publishS3 sound path run
    | copy source destination metadata sourceCondition destinationCondition =>
      obtain ⟨removed, gained, lost, hit, keeps, -, -, locks⟩ :=
        copyS3Object_effect sound.tree source destination run
      exact table.without keeps locks
    | delete path condition =>
      simp only [S3Request.run, map_ok] at run
      obtain ⟨⟨_, deleted⟩, run, rfl⟩ := run
      obtain ⟨removed, lost, hit, keeps, -, locks⟩ := deleteS3Object_effect sound.tree path run
      exact table.without keeps locks
    | complete request path located =>
      simp only [S3Request.run, map_ok] at run
      obtain ⟨⟨_, result⟩, run, rfl⟩ := run
      rcases complete_publishes run with same | ⟨t, published, _, _, _, _, same, linked, later⟩
      · exact table.samePlaces sound same
      · have extended := same.sound sound
        have before := table.samePlaces sound same
        rw [← located] at linked
        have first := before.table.publishS3 extended path linked
        have after := (publishS3ObjectTx_refStep extended.tree path linked).sound id extended
        have second := first.table.samePlaces after later
        exact ⟨second.table, (before.inherits.trans first.inherits).trans second.inherits⟩
    | _ => exact absurd rfl still

lemma JobRequest.quiet {request : JobRequest} (sound : Sound s) (table : LockTable s)
    (run : request.run env archive now s = .ok s') : Quiet s s' := by
  by_cases root : request = .importRoot
  · subst root
    simp only [JobRequest.run, prepareImportRoot, bind_ok, pure_ok] at run
    obtain ⟨d', made, rfl⟩ := run
    exact table.same (dbMkdir_effect sound.tree (by decide) made).1 rfl
  · by_cases publish : ∃ jobID policy, request = .publish jobID policy
    · obtain ⟨jobID, policy, rfl⟩ := publish
      obtain ⟨gained, lost, hit, keeps, -, -, locks⟩ :=
        publishBackupImport_effect sound.tree sound.positive (archive.valid jobID) run
      exact table.same keeps locks
    · refine table.samePlaces sound (JobRequest.samePlaces run root fun jobID policy same => ?_)
      exact publish ⟨jobID, policy, same⟩

/-! ## LOCK and refresh -/

lemma LockTable.refresh (table : LockTable s) (lock : WebDAVLock) (deadline : Int) :
    LockTable { s with
      locks := s.locks.map fun row =>
        if row.token = lock.token then { row with expiresAt := deadline } else row } where
  rooted row member := by
    obtain ⟨old, inRows, rfl⟩ := List.mem_map.mp member
    have rooted := table.rooted old inRows
    split_ifs
    · exact ⟨rooted.abs, rooted.canonical, rooted.shown⟩
    · exact rooted
  apart := by
    refine List.pairwise_map.mpr (table.apart.imp fun {a b} free => ?_)
    split_ifs <;> exact free

lemma lockTarget_shown (sound : Sound s) (path : Resource) {request : LockRequest}
    (same : request.path = path.text) {created : Bool}
    (target : LockTarget now s request fileID s' entry created) :
    s'.dir.view (elements path.text) = some entry.untimed ∧ s'.locks = s.locks := by
  rw [← same]
  have abs : isAbs request.path = true := by
    rw [same]
    exact path.abs
  cases target with
  | present found => exact ⟨Directory.view_eq_some.mpr ⟨entry, found, rfl⟩, rfl⟩
  | created missing notRoot prepared made =>
    obtain ⟨grown, absent, -⟩ := sound.tree.valid.create_grown abs notRoot made
    obtain ⟨y, there, -, -, whole⟩ := grown.made _ absent List.prefix_rfl
    rw [whole rfl] at there
    exact ⟨there, rfl⟩

/-- The row of a new lock names the entry at its path. -/
lemma LockTable.locked (table : LockTable s) (sound : Sound s) (path : Resource)
    {request : LockRequest} (same : request.path = path.text) {uuid : Text} {created : Bool}
    (run : s.lockWebDAVResource now request fileID uuid = .ok (s', lock, created)) :
    LockTable s' ∧ s'.locks = s.locks ++ [lock] ∧ lock.rootPath = path.text ∧
      lock.depth = request.depth ∧ lock.lockNull = created := by
  obtain ⟨keeps, -⟩ := lockWebDAVResource_effect sound.tree path same run
  obtain ⟨s₁, entry, target, isNew, -, free, result⟩ :=
    lockWebDAVResource_ok sound.tree path same run
  obtain ⟨shown, locks⟩ := lockTarget_shown sound path same target
  clear run target
  subst isNew result
  have root : (newLock now request uuid entry.entryID created).rootPath = path.text := by
    change clean request.path = path.text
    rw [same, path.canonical]
  rw [locks] at free
  refine ⟨⟨fun row member => ?_, ?_⟩, by rw [locks], root, rfl, rfl⟩
  · rw [locks] at member
    rcases List.mem_append.mp member with old | new
    · exact (table.rooted row old).kept keeps (by simp)
    · rw [List.mem_singleton.mp new]
      exact ⟨by rw [root]; exact path.abs, by rw [root]; exact path.canonical, entry.untimed,
        by rw [root]; exact shown, rfl⟩
  · rw [locks]
    refine List.pairwise_append.mpr ⟨table.apart, List.pairwise_singleton _ _, ?_⟩
    intro a inA b inB
    rw [List.mem_singleton.mp inB, clash_comm]
    exact free a inA

/-! ## MOVE -/

/-- MOVE selects only locks of the moved tree, and cuts their roots at the right place. -/
def MoveExact (s : Store) (source : Text) : Prop :=
  ∀ lock ∈ s.locks, moveSelectsLock source lock = true → lock.rootPath = source ∨
    (source ++ ['/'] <+: lock.rootPath ∧ byteLength source = source.length)

instance (s : Store) (source : Text) : Decidable (MoveExact s source) :=
  inferInstanceAs (Decidable (∀ lock ∈ s.locks, _ → _))

lemma moveLockRoot_rootPath {source destination : Text} :
    (moveLockRoot source destination lock).rootPath =
      destination ++ lock.rootPath.drop (byteLength source) := rfl

/-- The elements of a rewritten root. -/
lemma moveLockRoot_elements (rooted : Rooted d lock) (source destination : Resource)
    (properSource : elements source.text ≠ []) (properTarget : elements destination.text ≠ [])
    (exact : lock.rootPath = source.text ∨
      (source.text ++ ['/'] <+: lock.rootPath ∧ byteLength source.text = source.text.length)) :
    ∃ rest, elements lock.rootPath = elements source.text ++ rest ∧
      (moveLockRoot source.text destination.text lock).rootPath =
        render (elements destination.text ++ rest) := by
  have textL : lock.rootPath = render (elements lock.rootPath) := rooted.resource.text_eq
  rcases exact with same | ⟨front, plain⟩
  · refine ⟨[], by rw [same, List.append_nil], ?_⟩
    rw [moveLockRoot_rootPath, same, List.drop_eq_nil_of_le (length_le_byteLength _),
      List.append_nil, List.append_nil, ← destination.text_eq]
  · rw [source.text_eq, textL] at front
    obtain ⟨rest, -, split⟩ := prefix_of_render properSource (names_elements source.abs)
      (names_elements rooted.abs) front
    have root : lock.rootPath = source.text ++ rest.flatMap ('/' :: ·) := by
      rw [textL, split, render_append properSource, ← source.text_eq]
    refine ⟨rest, split, ?_⟩
    rw [moveLockRoot_rootPath, root, plain, List.drop_left, render_append properTarget,
      ← destination.text_eq]

/-- MOVE selects every lock of the moved tree. -/
lemma moveSelectsLock_of_isPrefix (rooted : Rooted d lock) (source : Resource)
    (proper : elements source.text ≠ []) (front : elements source.text <+: elements lock.rootPath) :
    moveSelectsLock source.text lock = true := by
  unfold moveSelectsLock
  rw [decide_eq_true_eq]
  by_cases same : elements source.text = elements lock.rootPath
  · exact .inl (eq_of_elements rooted.abs source.abs rooted.canonical source.canonical same.symm)
  · obtain ⟨rest, text⟩ := text_below (p := source) (q := rooted.resource) proper ⟨front, same⟩
    refine .inr (Sqlite.like_escapeLike_any _ _ |>.mpr (Sqlite.foldCase_isPrefix ⟨rest, ?_⟩))
    rw [List.append_assoc]
    exact text.symm

/-- A lock after a move: the locks of the source are at the destination, the others neither at
the source nor at the destination. -/
inductive Relocated (source target : List Text) (lock lock' : WebDAVLock) : Prop
  | moved (rest : List Text) (before : elements lock.rootPath = source ++ rest)
      (after : elements lock'.rootPath = target ++ rest)
  | kept (outside : ¬source <+: elements lock.rootPath)
      (apart : ¬target <+: elements lock.rootPath) (same : lock'.rootPath = lock.rootPath)

lemma relocated_of_moved {d' : Directory} (rooted : Rooted d lock) (source destination : Resource)
    (moved : Directory.Moved d d' (elements source.text)
      (elements destination.text))
    (exact : moveSelectsLock source.text lock = true → lock.rootPath = source.text ∨
      (source.text ++ ['/'] <+: lock.rootPath ∧ byteLength source.text = source.text.length))
    (clear : ¬elements destination.text <+: elements lock.rootPath) :
    Relocated (elements source.text) (elements destination.text) lock
        (movedLock source.text destination.text lock) ∧
      Rooted d' (movedLock source.text destination.text lock) := by
  have properSource : elements source.text ≠ [] := fun root => moved.outside (by simp [root])
  have properTarget : elements destination.text ≠ [] := fun root => moved.inside (by simp [root])
  obtain ⟨e, shown, id⟩ := rooted.shown
  unfold movedLock
  split_ifs with selected
  · obtain ⟨rest, before, after⟩ := moveLockRoot_elements rooted source destination properSource
      properTarget (exact selected)
    have names : Names (elements destination.text ++ rest) := by
      refine names_append.mpr ⟨names_elements destination.abs, ?_⟩
      exact (names_append.mp (before ▸ names_elements rooted.abs)).2
    have elementsAfter : elements (moveLockRoot source.text destination.text lock).rootPath =
        elements destination.text ++ rest := by rw [after, elements_render names]
    refine ⟨.moved rest before elementsAfter, ?_⟩
    obtain ⟨parentID, n, view⟩ := moved.moved
    refine ⟨by rw [after]; rfl, by rw [after, clean_render names], ?_⟩
    rw [elementsAfter, view rest, ← before, shown]
    refine ⟨_, rfl, ?_⟩
    split_ifs <;> exact id
  · have outside : ¬elements source.text <+: elements lock.rootPath := fun front =>
      selected (moveSelectsLock_of_isPrefix rooted source properSource front)
    refine ⟨.kept outside clear rfl, rooted.abs, rooted.canonical, e, ?_, id⟩
    rw [moved.kept _ outside clear]
    exact shown

/-- MOVE takes the locks of the moved tree along. -/
lemma LockTable.move (table : LockTable s) (sound : Sound s) (source destination : Resource)
    (exact : MoveExact s source.text) {overwrite : Bool}
    (moved : s.dir.move now source.text destination.text overwrite = .ok (s'.dir, removed))
    (update : Sqlite.updateRows WebDAVLock.clash (moveSelectsLock source.text)
      (moveLockRoot source.text destination.text) [] (s.locksWithout removed) = .ok s'.locks) :
    LockTable s' ∧
      s'.locks = (s.locksWithout removed).map (movedLock source.text destination.text) ∧
      ((∀ lock ∈ s.locksWithout removed,
          (movedLock source.text destination.text lock).rootPath = lock.rootPath) ∨
        ∀ lock ∈ s.locksWithout removed, Relocated (elements source.text)
          (elements destination.text) lock (movedLock source.text destination.text lock)) := by
  have rows : s'.locks = (s.locksWithout removed).map (movedLock source.text destination.text) :=
    (Sqlite.updateRows_ok update).trans (List.nil_append _)
  have sub : (s.locksWithout removed).Sublist s.locks := List.filter_sublist
  have apart := Sqlite.updateRows_pairwise clash_comm
    (by simpa using table.apart.sublist sub) update
  rcases sound.tree.valid.move_spec source.abs destination.abs moved with
    ⟨sameDir, rfl, sameElements⟩ | ⟨after, listed⟩
  · have same := eq_of_elements source.abs destination.abs source.canonical destination.canonical
      sameElements
    have roots : ∀ lock ∈ s.locks,
        (movedLock source.text destination.text lock).rootPath = lock.rootPath := by
      intro lock member
      unfold movedLock
      split_ifs with selected
      · rw [moveLockRoot_rootPath, ← same]
        rcases exact lock member selected with root | ⟨front, plain⟩
        · rw [root, List.drop_eq_nil_of_le (length_le_byteLength _), List.append_nil]
        · rw [plain]
          exact (List.prefix_append_drop ((List.prefix_append _ _).trans front)).symm
      · rfl
    refine ⟨⟨fun lock member => ?_, apart⟩, rows, .inl fun lock member => roots lock (sub.subset
      member)⟩
    rw [rows] at member
    obtain ⟨old, inRows, rfl⟩ := List.mem_map.mp member
    have rooted := table.rooted old (sub.subset inRows)
    have root := roots old (sub.subset inRows)
    refine ⟨by rw [root]; exact rooted.abs, by rw [root]; exact rooted.canonical, ?_⟩
    rw [root, sameDir]
    obtain ⟨e, shown, id⟩ := rooted.shown
    refine ⟨e, shown, ?_⟩
    unfold movedLock
    split_ifs <;> exact id
  · have each : ∀ lock ∈ s.locksWithout removed, _ := fun lock member =>
      relocated_of_moved (table.rooted lock (sub.subset member)) source destination after
        (exact lock (sub.subset member)) fun front => by
          obtain ⟨e, shown, id⟩ := (table.rooted lock (sub.subset member)).shown
          have gone := Directory.mem_ids_of_view listed front shown
          rw [id] at gone
          exact of_decide_eq_true (List.mem_filter.mp member).2 gone
    refine ⟨⟨fun lock member => ?_, apart⟩, rows, .inr fun lock member => (each lock member).1⟩
    rw [rows] at member
    obtain ⟨old, inRows, rfl⟩ := List.mem_map.mp member
    exact (each old inRows).2

end TgFile
