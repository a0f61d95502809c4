import TgFile.Directory.Move

/-! # The change journal mirrors the tree

Whatever sequence of directory operations commits or rolls back, the paths whose latest record is
not a deletion are exactly the paths that exist. -/

namespace TgFile

open Go Go.Path Result

/-- An absolute path other than the root, in any spelling. -/
structure NonRootPath where
  text : Text
  abs : isAbs text = true
  notRoot : clean text ≠ ['/']

lemma NonRootPath.elements_ne_nil (p : NonRootPath) : elements p.text ≠ [] := fun empty =>
  p.notRoot (by rw [clean_eq_render p.abs, empty, render_nil])

/-- A call of a directory operation. -/
inductive DirectoryCall
  | create (filename : NonRootPath) (size : Int) (refdata : Option Nat)
  | mkdir (dirname : NonRootPath)
  | replace (filename : NonRootPath) (size : Int) (refdata : Option Nat) (mtime : Int)
  | remove (filename : NonRootPath)
  | copyDepth (source destination : NonRootPath) (overwrite recursive : Bool)
  | move (source destination : NonRootPath) (overwrite : Bool)
  | touch (filename : NonRootPath) (mtime : Int)

/-- The state the call's transaction ends with, if it succeeds. -/
def DirectoryCall.run (call : DirectoryCall) (now : Int) (d : Directory) : Except Err Directory :=
  match call with
  | .create filename size refdata => Prod.fst <$> d.create now filename.text size refdata
  | .mkdir dirname => Prod.fst <$> d.mkdir now dirname.text
  | .replace filename size refdata mtime =>
    Prod.fst <$> d.replace filename.text size refdata now mtime
  | .remove filename => Prod.fst <$> d.remove now filename.text
  | .copyDepth source destination overwrite recursive =>
    Prod.fst <$> d.copyDepth now source.text destination.text overwrite recursive
  | .move source destination overwrite =>
    Prod.fst <$> d.move now source.text destination.text overwrite
  | .touch filename mtime => d.touch now filename.text mtime

/-- A successful transaction commits, a failed one rolls back. -/
def DirectoryCall.commit (d : Directory) (call : Int × DirectoryCall) : Directory :=
  match call.2.run call.1 d with
  | .ok d' => d'
  | .error _ => d

namespace Directory

variable {d d' d₁ : Directory}

/-- Below the root, the recorded paths are the existing paths. -/
structure Journaled (d : Directory) : Prop where
  valid : d.Valid
  synced : ∀ q, q ≠ [] → (q ∈ d.live ↔ q ∈ d.paths)

lemma journaled_empty : Journaled empty where
  valid := valid_empty
  synced q _ := by
    constructor
    · rintro ⟨-, kind, latest, -⟩
      cases latest
    · intro present
      cases present

namespace Journaled

variable {target : List Text} {now : Int} {p : Text}

variable (journaled : d.Journaled)
include journaled

lemma sameView (same : SameView d d') : d'.Journaled where
  valid := same.valid
  synced q notRoot := by
    rw [same.live, mem_paths, same.view, ← mem_paths]
    exact journaled.synced q notRoot

lemma grown {final : Entry → Prop} (grown : Grown d d' target final) : d'.Journaled where
  valid := grown.valid
  synced q notRoot := by
    rw [grown.live q notRoot, grown.mem_paths, journaled.synced q notRoot]
    tauto

lemma pruned {gone : List Text → Prop} {removed : List Entry}
    (pruned : Pruned d d' gone removed) : d'.Journaled where
  valid := pruned.valid
  synced q notRoot := by
    rw [pruned.live, pruned.mem_paths, journaled.synced q notRoot]
    tauto

lemma copied {source : List Text} {recursive : Bool}
    (copied : CopiedOver d d' source target recursive) : d'.Journaled where
  valid := copied.valid
  synced q notRoot := by
    rw [copied.live, journaled.synced q notRoot]
    by_cases inside : target <+: q
    · simp [inside]
    · rw [mem_paths (d := d'), copied.kept q inside, ← mem_paths]
      simp [inside]

lemma moved {source : List Text} (moved : Moved d d' source target) : d'.Journaled where
  valid := moved.valid
  synced q notRoot := by
    rw [moved.live, journaled.synced q notRoot]
    by_cases inside : target <+: q
    · tauto
    · by_cases vacated : source <+: q
      · have absent : q ∉ d'.paths := notMem_paths.mpr (moved.cut q vacated)
        simp [inside, vacated, absent]
      · rw [mem_paths (d := d'), moved.kept q vacated inside, ← mem_paths]
        simp [inside, vacated]

/-- An update in place records a path that exists. -/
lemma updated {cs : List Text} (valid : d'.Valid) (present : cs ∈ d.paths)
    (samePaths : d'.paths = d.paths) (recorded : d'.live = insert cs d.live) : d'.Journaled where
  valid := valid
  synced q notRoot := by
    rw [recorded, samePaths, Set.mem_insert_iff, journaled.synced q notRoot]
    exact or_iff_right_of_imp fun same => same ▸ present

/-! ## Each operation -/

lemma create {size : Int} {refdata : Option Nat} {e : Entry} (abs : isAbs p)
    (notRoot : elements p ≠ []) (run : d.create now p size refdata = .ok (d', e)) : d'.Journaled :=
  journaled.grown (journaled.valid.create_grown abs notRoot run).1

lemma mkdir {e : Entry} (abs : isAbs p) (notRoot : elements p ≠ [])
    (run : d.mkdir now p = .ok (d', e)) : d'.Journaled :=
  journaled.grown (journaled.valid.mkdir_grown abs notRoot run).1

lemma replace {size mtime : Int} {refdata : Option Nat} {old : Entry}
    (abs : isAbs p) (run : d.replace p size refdata now mtime = .ok (d', old)) : d'.Journaled := by
  obtain ⟨valid, found, -, view, recorded, -⟩ := journaled.valid.replace_spec abs run
  have present : elements p ∈ d.paths := Option.isSome_iff_exists.mpr ⟨old, found⟩
  refine journaled.updated valid present ?_ recorded
  ext q
  rw [mem_paths, mem_paths, view]
  split_ifs with here
  · rw [here]
    simpa using mem_paths.mp present
  · rfl

lemma touch {mtime : Int} (abs : isAbs p)
    (run : d.touch now p mtime = .ok d') : d'.Journaled := by
  obtain ⟨valid, present, view, recorded, -⟩ := journaled.valid.touch_spec abs run
  refine journaled.updated valid present ?_ recorded
  ext q
  rw [mem_paths, mem_paths, view]

lemma remove {removed : List Entry} (abs : isAbs p)
    (run : d.remove now p = .ok (d', removed)) : d'.Journaled := by
  obtain ⟨d₁, pruned, same, -⟩ := journaled.valid.remove_pruned abs run
  exact (journaled.pruned pruned).sameView same

lemma copyDepth {src dst : Text} {overwrite recursive : Bool} {pairs : List (Entry × Entry)}
    {overwritten : List Entry} (absSrc : isAbs src) (absDst : isAbs dst)
    (run : d.copyDepth now src dst overwrite recursive = .ok (d', pairs, overwritten)) :
    d'.Journaled := by
  rcases journaled.valid.copyDepth_spec absSrc absDst run with ⟨rfl, -⟩ | ⟨copied, -⟩
  · exact journaled
  · exact journaled.copied copied

lemma move {src dst : Text} {overwrite : Bool} {overwritten : List Entry} (absSrc : isAbs src)
    (absDst : isAbs dst)
    (run : d.move now src dst overwrite = .ok (d', overwritten)) : d'.Journaled := by
  rcases journaled.valid.move_spec absSrc absDst run with ⟨rfl, -⟩ | ⟨moved, -⟩
  · exact journaled
  · exact journaled.moved moved

/-- One committed call keeps journal and tree in step. -/
lemma run {call : DirectoryCall} (run : call.run now d = .ok d') : d'.Journaled := by
  cases call with
  | create filename size refdata =>
    obtain ⟨⟨_, _⟩, call, rfl⟩ := map_ok.mp run
    exact journaled.create filename.abs filename.elements_ne_nil call
  | mkdir dirname =>
    obtain ⟨⟨_, _⟩, call, rfl⟩ := map_ok.mp run
    exact journaled.mkdir dirname.abs dirname.elements_ne_nil call
  | replace filename size refdata mtime =>
    obtain ⟨⟨_, _⟩, call, rfl⟩ := map_ok.mp run
    exact journaled.replace filename.abs call
  | remove filename =>
    obtain ⟨⟨_, _⟩, call, rfl⟩ := map_ok.mp run
    exact journaled.remove filename.abs call
  | copyDepth source destination overwrite recursive =>
    obtain ⟨⟨_, _, _⟩, call, rfl⟩ := map_ok.mp run
    exact journaled.copyDepth source.abs destination.abs call
  | move source destination overwrite =>
    obtain ⟨⟨_, _⟩, call, rfl⟩ := map_ok.mp run
    exact journaled.move source.abs destination.abs call
  | touch filename mtime => exact journaled.touch filename.abs run

lemma commit (call : Int × DirectoryCall) : (DirectoryCall.commit d call).Journaled := by
  unfold DirectoryCall.commit
  split
  · rename_i run
    exact journaled.run run
  · exact journaled

/-- Every sequence of calls keeps journal and tree in step. -/
lemma commits (calls : List (Int × DirectoryCall)) :
    (calls.foldl DirectoryCall.commit d).Journaled := by
  induction calls generalizing d with
  | nil => exact journaled
  | cons call calls ih => exact ih (journaled.commit call)

end Journaled

/-- The non-root absolute paths whose latest record is not a deletion. -/
def recordedPaths (d : Directory) : Set Text :=
  {p | isAbs p = true ∧ p ≠ ['/'] ∧ ∃ kind, latestKind d.changes p = some kind ∧ kind ≠ .deleted}

/-- The non-root paths, in their clean spelling, that `Stat` finds. -/
def existingPaths (d : Directory) : Set Text :=
  {p | isAbs p = true ∧ p ≠ ['/'] ∧ clean p = p ∧ ∃ e, d.stat p = .ok e}

lemma exists_change_of_latestKind {changes : List Change} {p : Text} {kind : ChangeKind}
    (latest : latestKind changes p = some kind) : ∃ c ∈ changes, c.path = p ∧ c.kind = kind := by
  obtain ⟨c, found, rfl⟩ := Option.map_eq_some_iff.mp latest
  exact ⟨c, List.mem_reverse.mp (List.mem_of_find?_eq_some found),
    by simpa using List.find?_some found, rfl⟩

/-- In a valid directory whose journal is in step, the two sets of texts agree. -/
lemma Journaled.recorded_eq_existing (journaled : d.Journaled) :
    d.recordedPaths = d.existingPaths := by
  ext p
  constructor
  · rintro ⟨abs, notRoot, kind, latest, kept⟩
    obtain ⟨c, member, rfl, -⟩ := exists_change_of_latestKind latest
    obtain ⟨cs, names, path⟩ := journaled.valid.log.paths c member
    rw [path] at latest notRoot ⊢
    have nonempty : cs ≠ [] := fun empty => notRoot (empty ▸ rfl)
    have present := (journaled.synced cs nonempty).mp ⟨names, kind, latest, kept⟩
    obtain ⟨e, found⟩ := Option.isSome_iff_exists.mp present
    refine ⟨isAbs_render cs, notRoot, clean_render names, e, ?_⟩
    rw [journaled.valid.stat_eq_ok (isAbs_render cs), elements_render names, found]
  · rintro ⟨abs, notRoot, cleaned, e, found⟩
    rw [journaled.valid.stat_eq_ok abs] at found
    have path : p = render (elements p) := by rw [← clean_eq_render abs, cleaned]
    have nonempty : elements p ≠ [] := fun empty => notRoot (by rw [path, empty, render_nil])
    obtain ⟨-, kind, latest, kept⟩ := (journaled.synced _ nonempty).mpr
      (Option.isSome_iff_exists.mpr ⟨e, found⟩)
    rw [← path] at latest
    exact ⟨abs, notRoot, kind, latest, kept⟩

/-- **Journal completeness.** After any sequence of calls on an empty directory the recorded
paths are the existing paths; so an existing path has a record, and a path recorded last as
deleted does not exist. -/
theorem journal_complete (calls : List (Int × DirectoryCall)) :
    let d := calls.foldl DirectoryCall.commit empty
    d.recordedPaths = d.existingPaths ∧
      (∀ p ∈ d.existingPaths, ∃ c ∈ d.changes, c.path = p) ∧
      ∀ p, latestKind d.changes p = some .deleted → p ∉ d.existingPaths := by
  intro d
  have same := (journaled_empty.commits calls).recorded_eq_existing
  refine ⟨same, ?_, ?_⟩
  · intro p present
    rw [← same] at present
    obtain ⟨-, -, kind, latest, -⟩ := present
    obtain ⟨c, member, path, -⟩ := exists_change_of_latestKind latest
    exact ⟨c, member, path⟩
  · intro p deleted present
    rw [← same] at present
    obtain ⟨-, -, kind, latest, kept⟩ := present
    exact kept (Option.some.inj (latest.symm.trans deleted))

end Directory

end TgFile
