import TgFile.System.Exclusivity

/-! # What the lock lookups return

The two queries compare paths with `LIKE`: the stored root is read as a pattern, so that `_` and `%`
in it are wildcards, letters match whatever their case, and the pattern of the root directory has
two separators. -/

namespace TgFile

open Go Go.Path Result WebDAV Store

variable {s : Store} {now : Int} {lock : WebDAVLock}

/-- `LIKE` tells the place of the lock relative to a path. -/
structure Told (lock : WebDAVLock) (path : Text) : Prop where
  above : lock.depth = .infinity → Sqlite.like none (lock.rootPath ++ ['/', '%']) path = true →
    Covers lock ⟨path, false⟩
  below : Sqlite.foldCase (path ++ ['/']) <+: Sqlite.foldCase lock.rootPath →
    Covers lock ⟨path, true⟩
  root : path = ['/'] → lock.rootPath = ['/']

lemma lockApplies_root (abs : isAbs lock.rootPath = true)
    (applies : lockApplies lock ['/'] = true) : lock.rootPath = ['/'] := by
  simp only [lockApplies, decide_eq_true_eq] at applies
  rcases applies with same | ⟨-, ⟨same, -⟩ | matched⟩
  · exact same
  · exact same
  · obtain ⟨rest, text⟩ : ∃ rest, lock.rootPath = '/' :: rest := by
      cases text : lock.rootPath with
      | nil =>
        rw [text] at abs
        cases abs
      | cons c rest =>
        rw [text] at abs
        obtain rfl : c = '/' := by simpa [isAbs] using abs
        exact ⟨rest, rfl⟩
    rw [text, Sqlite.like_slash] at matched
    cases matched

lemma lockInside_root (root : Resource) (same : lock.rootPath = root.text) :
    lockInside lock ['/'] = false := by
  refine Bool.eq_false_iff.mpr fun inside => ?_
  rw [lockInside, Sqlite.like_escapeLike_any, same, root.text_eq] at inside
  have names := names_elements root.abs
  cases parts : elements root.text with
  | nil =>
    rw [parts, render_nil] at inside
    exact absurd inside (by decide)
  | cons first rest =>
    rw [parts] at names inside
    obtain ⟨filled, -, -, plain⟩ := names first List.mem_cons_self
    obtain ⟨c, tail, rfl⟩ := List.exists_cons_of_ne_nil filled
    obtain ⟨more, rendered⟩ : ∃ more, render ((c :: tail) :: rest) = '/' :: c :: more :=
      ⟨['/'].intercalate (tail :: rest), by simp [render]⟩
    rw [rendered] at inside
    simp only [Sqlite.foldCase, List.cons_append, List.nil_append, List.map_cons,
      List.cons_prefix_cons] at inside
    exact plain (by rw [Sqlite.toLower_slash inside.2.1.symm]; exact List.mem_cons_self)

lemma told_iff (root : Resource) (same : lock.rootPath = root.text) (path : Resource) :
    ((lockApplies lock path.text = true ↔ Covers lock ⟨path.text, false⟩) ∧
      ((lockApplies lock path.text = true ∨ lockInside lock path.text = true) ↔
        Covers lock ⟨path.text, true⟩)) ↔ Told lock path.text := by
  have abs : isAbs lock.rootPath = true := same ▸ root.abs
  have canonical : clean lock.rootPath = lock.rootPath := by rw [same, root.canonical]
  have isRoot : ∀ p : Resource, elements p.text = [] → p.text = ['/'] := fun p empty => by
    rw [p.text_eq, empty, render_nil]
  constructor
  · rintro ⟨applicable, overlapping⟩
    refine ⟨fun infinite matched => applicable.mp ?_, fun front => overlapping.mp (.inr ?_), ?_⟩
    · simp [lockApplies, infinite, matched]
    · rw [lockInside, Sqlite.like_escapeLike_any]
      exact front
    · intro atRoot
      by_contra other
      have below : ProperAncestor path.text lock.rootPath := by
        rw [atRoot, same]
        refine ⟨List.nil_prefix, fun empty => other ?_⟩
        rw [same]
        exact isRoot root empty.symm
      rcases overlapping.mpr (.inr (.inr ⟨rfl, below⟩)) with applies | inside
      · exact other (lockApplies_root abs (atRoot ▸ applies))
      · rw [atRoot, lockInside_root root same] at inside
        cases inside
  · intro told
    have applies : Covers lock ⟨path.text, false⟩ → lockApplies lock path.text = true := by
      rintro (equal | ⟨infinite, above⟩ | ⟨never, -⟩)
      · simp [lockApplies, equal]
      · exact lockApplies_of_above abs canonical path infinite above
      · cases never
    have covers : lockApplies lock path.text = true → Covers lock ⟨path.text, false⟩ := by
      intro found
      simp only [lockApplies, decide_eq_true_eq] at found
      rcases found with equal | ⟨infinite, ⟨atRoot, -⟩ | matched⟩
      · exact .inl equal
      · by_cases empty : elements path.text = []
        · exact .inl (by rw [atRoot, isRoot path empty])
        · refine .inr (.inl ⟨infinite, ?_⟩)
          rw [atRoot]
          exact ⟨List.nil_prefix, fun nil => empty nil.symm⟩
      · exact told.above infinite matched
    refine ⟨⟨covers, applies⟩, ?_, ?_⟩
    · rintro (found | inside)
      · exact (covers found).imp_right fun both => .inl (both.resolve_right (by simp))
      · rw [lockInside, Sqlite.like_escapeLike_any] at inside
        exact told.below inside
    · rintro (equal | above | ⟨-, below⟩)
      · exact .inl (applies (.inl equal))
      · exact .inl (applies (.inr (.inl above)))
      · refine .inr (lockInside_of_below abs canonical path (fun empty => ?_) below)
        have atRoot := isRoot path empty
        rw [told.root atRoot, atRoot] at below
        exact below.2 rfl

/-- **The lookups are exact** where `LIKE` tells the place of every unexpired lock, and only
there. -/
theorem lock_lookups_exact_iff (s : Store) (now : Int) (path : Text) (abs : isAbs path = true)
    (roots : ∀ lock ∈ s.locks, isAbs lock.rootPath = true ∧
      clean lock.rootPath = lock.rootPath) :
    ((∀ lock, lock ∈ s.queryApplicableWebDAVLocks now path ↔
        lock ∈ s.locks ∧ now < lock.expiresAt ∧ Covers lock ⟨clean path, false⟩) ∧
      ∀ lock, lock ∈ s.queryOverlappingWebDAVLocks now path ↔
        lock ∈ s.locks ∧ now < lock.expiresAt ∧ Covers lock ⟨clean path, true⟩) ↔
    ∀ lock ∈ s.locks, now < lock.expiresAt → Told lock (clean path) := by
  have told := fun (lock : WebDAVLock) (member : lock ∈ s.locks) =>
    told_iff ⟨lock.rootPath, (roots lock member).1, (roots lock member).2⟩ rfl
      ⟨clean path, isAbs_clean abs, clean_clean abs⟩
  simp only [queryApplicableWebDAVLocks, queryOverlappingWebDAVLocks, Sqlite.mem_orderBy,
    List.mem_filter, decide_eq_true_eq]
  constructor
  · rintro ⟨applicable, overlapping⟩ lock member unexpired
    refine (told lock member).mp ⟨?_, ?_⟩
    · simpa [member, unexpired] using applicable lock
    · simpa [member, unexpired] using overlapping lock
  · intro all
    refine ⟨fun lock => and_congr_right fun member => and_congr_right fun unexpired => ?_,
      fun lock => and_congr_right fun member => and_congr_right fun unexpired => ?_⟩
    · exact ((told lock member).mpr (all lock member unexpired)).1
    · exact ((told lock member).mpr (all lock member unexpired)).2

/-- An infinity lock on a path with a wildcard. -/
def wildcardLock : WebDAVLock :=
  ⟨['t'], "/a_b".toList, 1, .infinity, [], [], 0, 9, false⟩

/-- A store with this lock. -/
def wildcardStore : Store := { Store.empty with locks := [wildcardLock] }

/-- The lock of `/a_b` is returned for `/axb/c`. -/
theorem wildcardLock_misplaced :
    wildcardLock ∈ wildcardStore.queryApplicableWebDAVLocks 1 "/axb/c".toList ∧
      ¬Covers wildcardLock ⟨"/axb/c".toList, false⟩ := by
  decide +kernel

/-- The lock covers a path whose front matches it literally. -/
theorem wildcardLock_found :
    wildcardLock ∈ wildcardStore.queryApplicableWebDAVLocks 1 "/a_b/c".toList := by
  have lookups := lock_lookups_exact_iff wildcardStore 1 "/a_b/c".toList rfl (by decide +kernel)
  refine ((lookups.mpr fun lock member _ => ?_).1 wildcardLock).mpr (by decide +kernel)
  obtain rfl := List.mem_singleton.mp member
  exact ⟨fun _ _ => by decide +kernel, fun front => absurd front (by decide +kernel),
    fun root => absurd root (by decide)⟩

end TgFile
