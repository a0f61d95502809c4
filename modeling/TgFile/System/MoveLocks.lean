import TgFile.System.Attached
import TgFile.System.LockTable

/-! # The locks after a MOVE

MOVE deletes the locks of the overwritten entries and rewrites the roots of the locks that its
pattern selects.  The pattern ignores the case of ASCII letters, and the rewriting cuts as many
characters as the source has bytes. -/

namespace TgFile

open Go Go.Path Result WebDAV Store

variable {s s' : Store} {now : Int} {lock : WebDAVLock}

/-- A root at a path or below it. -/
def Under (path root : Text) : Prop := root = path ∨ path ++ ['/'] <+: root

/-- The locks of the source have gone to the destination, and the others have stayed. -/
structure MovesLocks (s s' : Store) (source destination : Text) : Prop where
  moved : ∀ lock ∈ s.locks, ∀ suffix, lock.rootPath = source ++ suffix →
    suffix = [] ∨ ['/'] <+: suffix → { lock with rootPath := destination ++ suffix } ∈ s'.locks
  kept : ∀ lock ∈ s.locks, ¬Under source lock.rootPath → ¬Under destination lock.rootPath →
    lock ∈ s'.locks

/-- The entry is at the destination or below it, and is overwritten. -/
def Overwritten (s : Store) (source destination : Text) (entryID : Nat) : Prop :=
  elements source ≠ elements destination ∧
    ∃ q e, elements destination <+: q ∧ s.dir.find q = some e ∧ e.entryID = entryID

/-- MOVE treats the lock by the place of its root. -/
structure PlacedWell (s : Store) (source destination : Text) (lock : WebDAVLock) : Prop where
  stays : Under source lock.rootPath ∨ ¬Under destination lock.rootPath →
    ¬Overwritten s source destination lock.rootEntryID
  cut : source ++ ['/'] <+: lock.rootPath → byteLength source = source.length
  others : ¬Under source lock.rootPath → ¬Under destination lock.rootPath →
    moveSelectsLock source lock = true →
    destination ++ lock.rootPath.drop (byteLength source) = lock.rootPath

lemma moveSelectsLock_of_under {source : Text} (under : Under source lock.rootPath) :
    moveSelectsLock source lock = true := by
  unfold moveSelectsLock
  rw [decide_eq_true_eq]
  exact under.imp_right fun front =>
    (Sqlite.like_escapeLike_any _ _).mpr (Sqlite.foldCase_isPrefix front)

lemma movedLock_token (source destination : Text) (lock : WebDAVLock) :
    (movedLock source destination lock).token = lock.token := by
  unfold movedLock
  split_ifs <;> rfl

/-- The row with the token of a lock after a MOVE. -/
lemma mem_locks_moved (tree : SoundTree s.dir)
    (unique : s.locks.Pairwise fun a b => a.clash b = false) (source destination : Resource)
    {overwrite : Bool} {options : MutationOptions} {created : Bool}
    (run : s.moveWebDAVResource now source.text destination.text overwrite options =
      .ok (s', created)) (member : lock ∈ s.locks) {row : WebDAVLock}
    (same : row.token = lock.token) :
    row ∈ s'.locks ↔ ¬Overwritten s source.text destination.text lock.rootEntryID ∧
      movedLock source.text destination.text lock = row := by
  obtain ⟨removed, lost, hit, moved, -, update⟩ :=
    moveWebDAVResource_effect tree source destination run
  have gone : lock.rootEntryID ∈ removed.map Entry.entryID ↔
      Overwritten s source.text destination.text lock.rootEntryID := by
    rcases tree.valid.move_spec source.abs destination.abs moved with
      ⟨-, rfl, equal⟩ | ⟨after, listed⟩
    · exact ⟨fun none => absurd none List.not_mem_nil, fun both => absurd equal both.1⟩
    · rw [List.mem_map]
      constructor
      · rintro ⟨e, inRows, id⟩
        obtain ⟨q, below, found⟩ := (listed e).mp inRows
        exact ⟨fun equal => after.outside (equal ▸ List.prefix_rfl), q, e, below, found, id⟩
      · rintro ⟨-, q, e, below, found, id⟩
        exact ⟨e, (listed e).mpr ⟨q, below, found⟩, id⟩
  have rows : s'.locks = (s.locksWithout removed).map (movedLock source.text destination.text) :=
    (Sqlite.updateRows_ok update).trans (List.nil_append _)
  rw [← gone, rows, List.mem_map, locksWithout]
  constructor
  · rintro ⟨old, inRows, rfl⟩
    obtain ⟨inLocks, stays⟩ := List.mem_filter.mp inRows
    rw [movedLock_token] at same
    have equal : old = lock := by
      by_contra different
      have free := unique.forall inLocks member different
      simp [WebDAVLock.clash, same] at free
    subst equal
    exact ⟨of_decide_eq_true stays, rfl⟩
  · rintro ⟨stays, rfl⟩
    exact ⟨lock, List.mem_filter.mpr ⟨member, decide_eq_true stays⟩, rfl⟩

/-- **MOVE relocates the locks of the source and nothing else** exactly when it treats every lock
by the place of its root. -/
theorem move_relocates_locks_iff (tree : SoundTree s.dir)
    (unique : s.locks.Pairwise fun a b => a.clash b = false) (source destination : Resource)
    {overwrite : Bool} {options : MutationOptions} {created : Bool}
    (run : s.moveWebDAVResource now source.text destination.text overwrite options =
      .ok (s', created)) :
    MovesLocks s s' source.text destination.text ↔
      ∀ lock ∈ s.locks, PlacedWell s source.text destination.text lock := by
  have ahead : ∀ {lock row : WebDAVLock}, lock ∈ s.locks → row ∈ s'.locks →
      row.token = lock.token → ¬Overwritten s source.text destination.text lock.rootEntryID ∧
        movedLock source.text destination.text lock = row := fun member found same =>
    (mem_locks_moved tree unique source destination run member same).mp found
  have back : ∀ {lock : WebDAVLock}, lock ∈ s.locks →
      ¬Overwritten s source.text destination.text lock.rootEntryID →
        movedLock source.text destination.text lock ∈ s'.locks := fun member stays =>
    (mem_locks_moved tree unique source destination run member (movedLock_token _ _ _)).mpr
      ⟨stays, rfl⟩
  constructor
  · rintro ⟨moved, kept⟩ lock member
    have split : Under source.text lock.rootPath → ∃ suffix,
        lock.rootPath = source.text ++ suffix ∧ (suffix = [] ∨ ['/'] <+: suffix) := by
      rintro (same | ⟨rest, same⟩)
      · exact ⟨[], by rw [same, List.append_nil], .inl rfl⟩
      · exact ⟨'/' :: rest, by rw [← same, List.append_assoc]; rfl, .inr ⟨rest, rfl⟩⟩
    refine ⟨fun place => ?_, fun front => ?_, fun outside apart selected => ?_⟩
    · by_cases under : Under source.text lock.rootPath
      · obtain ⟨suffix, root, shape⟩ := split under
        exact (ahead member (moved lock member suffix root shape) rfl).1
      · exact (ahead member (kept lock member under (place.resolve_left under)) rfl).1
    · obtain ⟨rest, root⟩ := front
      rw [List.append_assoc, List.singleton_append] at root
      have row := (ahead member (moved lock member _ root.symm (.inr ⟨rest, rfl⟩)) rfl).2
      have path := congrArg WebDAVLock.rootPath row
      rw [movedLock, if_pos (moveSelectsLock_of_under (.inr ⟨rest, by simp [← root]⟩)),
        moveLockRoot_rootPath] at path
      have lengths := congrArg List.length (List.append_cancel_left path)
      rw [← root, List.length_drop, List.length_append, List.length_cons] at lengths
      have bytes := length_le_byteLength source.text
      omega
    · have row := (ahead member (kept lock member outside apart) rfl).2
      rw [movedLock, if_pos selected] at row
      exact congrArg WebDAVLock.rootPath row
  · intro well
    refine ⟨fun lock member suffix root shape => ?_, fun lock member outside apart => ?_⟩
    · have under : Under source.text lock.rootPath := by
        rcases shape with rfl | ⟨rest, rfl⟩
        · exact .inl (by rw [root, List.append_nil])
        · exact .inr ⟨rest, by rw [root, List.append_assoc]⟩
      have found := back member ((well lock member).stays (.inl under))
      have dropped : lock.rootPath.drop (byteLength source.text) = suffix := by
        rcases shape with rfl | ⟨rest, rfl⟩
        · rw [root, List.append_nil, List.drop_eq_nil_of_le (length_le_byteLength _)]
        · rw [(well lock member).cut ⟨rest, by rw [root, List.append_assoc]⟩, root, List.drop_left]
      rw [movedLock, if_pos (moveSelectsLock_of_under under), moveLockRoot] at found
      change { lock with rootPath :=
        destination.text ++ lock.rootPath.drop (byteLength source.text) } ∈ s'.locks at found
      rwa [dropped] at found
    · have found := back member ((well lock member).stays (.inr apart))
      rw [movedLock] at found
      split_ifs at found with selected
      · change { lock with rootPath :=
          destination.text ++ lock.rootPath.drop (byteLength source.text) } ∈ s'.locks at found
        rwa [(well lock member).others outside apart selected] at found
      · exact found

/-- A collection with a locked member. -/
def lockedMember (collection member : Resource) : System :=
  (System.init 0).run .plain noArchive
    [.job .importRoot, .dav (.mkcol collection) noOptions, .dav (.mkcol member) noOptions,
      .dav (.lock member .zero [] "alice".toList 3600000 0 "u".toList) noOptions]

/-- A directory whose name is longer in bytes than in characters. -/
def collectionE : Resource := ⟨"/é".toList, by decide, by decide⟩

/-- A file in it. -/
def memberE : Resource := ⟨"/é/b".toList, by decide, by decide⟩

/-- Where it is moved. -/
def collectionX : Resource := ⟨"/x".toList, by decide, by decide⟩

lemma tree_lockedMember (collection member : Resource) :
    SoundTree (lockedMember collection member).store.dir :=
  (System.protocolSound ((System.Reachable.init 0).run _ :
    System.Reachable .plain noArchive (fun _ _ => True)
      (lockedMember collection member))).sound.tree

/-- A MOVE of the collection by the holder of the lock. -/
def movesCollection (collection member : Resource) : Except Err (Store × Bool) :=
  (lockedMember collection member).store.moveWebDAVResource 0 collection.text collectionX.text false
    (oneTerm collection.text ⟨false, "opaquelocktoken:u".toList, []⟩)

/-- The lock of `/é/b` goes to `/xb`. -/
theorem accented_lock_misplaced :
    System.Reachable .plain noArchive (fun _ _ => True) (lockedMember collectionE memberE) ∧
      (lockedMember collectionE memberE).store.locks.map WebDAVLock.rootPath = ["/é/b".toList] ∧
      (movesCollection collectionE memberE).toOption.map (fun result =>
        result.1.locks.map WebDAVLock.rootPath) = some ["/xb".toList] :=
  ⟨(System.Reachable.init 0).run _, by decide +kernel⟩

/-- The lock of `/d/f` goes to `/x/f`. -/
theorem plain_lock_moved : ∃ s' created, movesCollection collectionD fileDF = .ok (s', created) ∧
    MovesLocks (lockedMember collectionD fileDF).store s' collectionD.text collectionX.text := by
  have runs : (movesCollection collectionD fileDF).isOk = true := by decide +kernel
  cases run : movesCollection collectionD fileDF with
  | error err =>
    rw [run] at runs
    cases runs
  | ok result =>
    have roots : ∀ lock ∈ (lockedMember collectionD fileDF).store.locks,
        lock.rootPath = fileDF.text := by decide +kernel
    have free : ¬(((lockedMember collectionD fileDF).store.dir.find
      (elements collectionX.text)).isSome = true) := by decide +kernel
    refine ⟨result.1, result.2, rfl, (move_relocates_locks_iff (tree_lockedMember _ _)
      (by decide +kernel) collectionD collectionX run).mpr fun lock member => ?_⟩
    refine ⟨fun _ => ?_, fun _ => by decide, fun outside => absurd (.inr ?_) outside⟩
    · rintro ⟨-, q, e, below, found, -⟩
      exact free (Directory.front_mem_paths below (Option.isSome_iff_exists.mpr ⟨e, found⟩))
    · rw [roots lock member]
      decide

end TgFile
