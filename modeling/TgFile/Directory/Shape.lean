import TgFile.Directory.Journal

/-! # The shape of the directory

Operations called with any absolute path, in any spelling, keep the mapping rows a tree in which
every row is found again under its own path.  One spelling is an exception: `Create` and the
transactional `Mkdir` cut the trailing slash of `/` before they test for the root, and what is
left, the empty text, is not the root. -/

namespace TgFile

open Go Go.Path Result

/-- An absolute path in any spelling, the root included. -/
structure AbsPath where
  text : Text
  abs : isAbs text = true

/-- A call of a directory operation with any absolute path. -/
inductive PathCall
  | create (filename : AbsPath) (size : Int) (refdata : Option Nat)
  | mkdir (dirname : AbsPath)
  | dbMkdir (dir : AbsPath)
  | replace (filename : AbsPath) (size : Int) (refdata : Option Nat) (mtime : Int)
  | remove (filename : AbsPath)
  | copyDepth (source destination : AbsPath) (overwrite recursive : Bool)
  | move (source destination : AbsPath) (overwrite : Bool)
  | touch (filename : AbsPath) (mtime : Int)

namespace PathCall

/-- The state the call's transaction ends with, if it succeeds. -/
def run (call : PathCall) (now : Int) (d : Directory) : Except Err Directory :=
  match call with
  | create filename size refdata => Prod.fst <$> d.create now filename.text size refdata
  | mkdir dirname => Prod.fst <$> d.mkdir now dirname.text
  | dbMkdir dir => d.dbMkdir now dir.text
  | replace filename size refdata mtime =>
    Prod.fst <$> d.replace filename.text size refdata now mtime
  | remove filename => Prod.fst <$> d.remove now filename.text
  | copyDepth source destination overwrite recursive =>
    Prod.fst <$> d.copyDepth now source.text destination.text overwrite recursive
  | move source destination overwrite =>
    Prod.fst <$> d.move now source.text destination.text overwrite
  | touch filename mtime => d.touch now filename.text mtime

/-- A successful transaction commits, a failed one rolls back. -/
def commit (d : Directory) (call : Int × PathCall) : Directory :=
  match call.2.run call.1 d with
  | .ok d' => d'
  | .error _ => d

/-- The paths a call names. -/
def named : PathCall → List AbsPath
  | create filename _ _ => [filename]
  | mkdir dirname => [dirname]
  | dbMkdir dir => [dir]
  | replace filename _ _ _ => [filename]
  | remove filename => [filename]
  | copyDepth source destination _ _ => [source, destination]
  | move source destination _ => [source, destination]
  | touch filename _ => [filename]

/-- No path of the call denotes the root. -/
def NonRoot (call : PathCall) : Prop := ∀ p ∈ call.named, clean p.text ≠ ['/']

/-- The path that `Create` or the transactional `Mkdir` is called with. -/
def target : PathCall → Option AbsPath
  | create filename _ _ => some filename
  | mkdir dirname => some dirname
  | _ => none

/-- The call does not create the path written `/`. -/
def Spelled (call : PathCall) : Prop := ∀ p ∈ call.target, p.text ≠ ['/']

lemma NonRoot.spelled {call : PathCall} (nonRoot : call.NonRoot) : call.Spelled := by
  intro p target slash
  have member : p ∈ call.named := by
    cases call <;> simp_all [PathCall.target, named]
  refine nonRoot p member ?_
  rw [slash, clean_eq_render rfl, elements_slash, render_nil]

end PathCall

namespace Directory

variable {d d' : Directory} {p q : AbsPath}

/-! ## Creating the root -/

/-- In any spelling but `/`, the root is seen as the root. -/
lemma splitFilename_trimSlash_root {p : Text} (abs : isAbs p) (root : elements p = [])
    (spelled : p ≠ ['/']) : splitFilename (trimSlash p) = ([], ['/'], true) := by
  obtain ⟨absTrimmed, same⟩ := trimSlash_abs abs spelled
  exact splitFilename_root absTrimmed (same.trans root)

lemma create_root {p : Text} (abs : isAbs p) (root : elements p = []) (spelled : p ≠ ['/'])
    (d : Directory) (now size : Int) (refdata : Option Nat) :
    d.create now p size refdata = .error .entryMustNotBeRoot := by
  simp only [create, splitFilename_trimSlash_root abs root spelled]
  rfl

lemma mkdir_root {p : Text} (abs : isAbs p) (root : elements p = []) (spelled : p ≠ ['/'])
    (d : Directory) (now : Int) : d.mkdir now p = .error .entryMustNotBeRoot := by
  simp only [mkdir, splitFilename_trimSlash_root abs root spelled]
  rfl

/-! ## Runs -/

namespace Valid

lemma call {call : PathCall} {now : Int} (valid : d.Valid) (spelled : call.Spelled)
    (run : call.run now d = .ok d') : d'.Valid := by
  cases call with
  | create filename size refdata =>
    obtain ⟨⟨_, _⟩, call, rfl⟩ := map_ok.mp run
    by_cases root : elements filename.text = []
    · rw [create_root filename.abs root (spelled filename rfl)] at call
      cases call
    · exact (valid.create_grown filename.abs root call).1.valid
  | mkdir dirname =>
    obtain ⟨⟨_, _⟩, call, rfl⟩ := map_ok.mp run
    by_cases root : elements dirname.text = []
    · rw [mkdir_root dirname.abs root (spelled dirname rfl)] at call
      cases call
    · exact (valid.mkdir_grown dirname.abs root call).1.valid
  | dbMkdir dir => exact (valid.dbMkdir_grown dir.abs run).valid
  | replace filename size refdata mtime =>
    obtain ⟨⟨_, _⟩, call, rfl⟩ := map_ok.mp run
    exact (valid.replace_spec filename.abs call).1
  | remove filename =>
    obtain ⟨⟨_, _⟩, call, rfl⟩ := map_ok.mp run
    obtain ⟨_, -, same, -⟩ := valid.remove_pruned filename.abs call
    exact same.valid
  | copyDepth source destination overwrite recursive =>
    obtain ⟨⟨_, _, _⟩, call, rfl⟩ := map_ok.mp run
    rcases valid.copyDepth_spec source.abs destination.abs call with ⟨rfl, -⟩ | ⟨copied, -⟩
    · exact valid
    · exact copied.valid
  | move source destination overwrite =>
    obtain ⟨⟨_, _⟩, call, rfl⟩ := map_ok.mp run
    rcases valid.move_spec source.abs destination.abs call with ⟨rfl, -⟩ | ⟨moved, -⟩
    · exact valid
    · exact moved.valid
  | touch filename mtime => exact (valid.touch_spec filename.abs run).1

lemma pathCommit (valid : d.Valid) {call : Int × PathCall} (spelled : call.2.Spelled) :
    (PathCall.commit d call).Valid := by
  unfold PathCall.commit
  split
  · rename_i run
    exact valid.call spelled run
  · exact valid

lemma pathCommits (valid : d.Valid) (calls : List (Int × PathCall))
    (spelled : ∀ call ∈ calls, call.2.Spelled) : (calls.foldl PathCall.commit d).Valid := by
  induction calls generalizing d with
  | nil => exact valid
  | cons call calls ih =>
    exact ih (valid.pathCommit (spelled call List.mem_cons_self)) fun later member =>
      spelled later (List.mem_cons_of_mem call member)

end Valid

/-! ## The tree -/

/-- The mapping rows are a finite tree with one root. -/
structure IsTree (d : Directory) : Prop where
  ids : (d.entries.map Entry.entryID).Nodup
  places : (d.entries.map fun e => (e.parentEntryID, e.fileName)).Nodup
  oneRoot : ∀ e ∈ d.entries, ∃ root ∈ d.entries, root.parentEntryID = 0 ∧
    root.fileName = ['/'] ∧ root.fileKind = .dir ∧ ∀ r ∈ d.entries, r.parentEntryID = 0 → r = root
  parents : ∀ e ∈ d.entries, e.parentEntryID ≠ 0 →
    ∃ parent ∈ d.entries, parent.entryID = e.parentEntryID ∧ parent.fileKind = .dir
  climbs : ∀ e ∈ d.entries, ∃ path, Entry.schema.Climbs d.entries e path

lemma Valid.isTree (valid : d.Valid) : d.IsTree where
  ids := valid.tree.ids
  places := valid.tree.places
  oneRoot e member := by
    obtain ⟨path, found⟩ := valid.tree.reached e member
    have front : Entry.schema.find d.entries ([] ++ path) = some e := found
    obtain ⟨root, atRoot⟩ := Tree.Schema.find_front front
    obtain ⟨top, name⟩ := Tree.Schema.find_nil_some atRoot
    refine ⟨root, Tree.Schema.find_mem atRoot, top, name, valid.find_root_kind atRoot, ?_⟩
    intro r present parent
    obtain ⟨other, foundR⟩ := valid.tree.reached r present
    rw [valid.tree.path_eq_nil foundR parent] at foundR
    exact Option.some.inj (foundR.symm.trans atRoot)
  parents e member below := by
    obtain ⟨path, found⟩ := valid.tree.reached e member
    rcases List.eq_nil_or_concat' path with rfl | ⟨front, n, rfl⟩
    · exact absurd (Tree.Schema.find_nil_some found).1 below
    · obtain ⟨parent, atFront, link, -⟩ := Tree.Schema.find_concat_some found
      have dir := valid.tree.isDir_of_find_concat found atFront
      exact ⟨parent, Tree.Schema.find_mem atFront, link.symm, (isDir_iff parent).mp dir⟩
  climbs e member := by
    obtain ⟨path, found⟩ := valid.tree.reached e member
    exact ⟨path, valid.tree.climbs_iff.mpr found⟩

/-- One of two paths is properly inside the other. -/
def Nested (p q : AbsPath) : Prop :=
  elements p.text ≠ elements q.text ∧
    (elements p.text <+: elements q.text ∨ elements q.text <+: elements p.text)

lemma precheckMoveCopy_nested (nested : Nested p q) :
    ∃ err, precheckMoveCopy p.text q.text = .error err := by
  cases run : precheckMoveCopy p.text q.text with
  | error err => exact ⟨err, rfl⟩
  | ok next =>
    have checked := precheckMoveCopy_ok p.abs q.abs run
    cases next with
    | true => exact absurd nested.2 (not_or.mpr checked)
    | false => exact absurd checked nested.1

lemma commit_of_error {call : PathCall} {now : Int} {err : Err}
    (failed : call.run now d = .error err) : PathCall.commit d (now, call) = d := by
  simp only [PathCall.commit, failed]

lemma copyDepth_nested (nested : Nested p q) (d : Directory) (now : Int)
    (overwrite recursive : Bool) :
    ∃ err, (PathCall.copyDepth p q overwrite recursive).run now d = .error err := by
  obtain ⟨err, failed⟩ := precheckMoveCopy_nested nested
  refine ⟨err, ?_⟩
  simp only [PathCall.run, copyDepth, failed]
  rfl

lemma move_nested (nested : Nested p q) (d : Directory) (now : Int) (overwrite : Bool) :
    ∃ err, (PathCall.move p q overwrite).run now d = .error err := by
  obtain ⟨err, failed⟩ := precheckMoveCopy_nested nested
  refine ⟨err, ?_⟩
  simp only [PathCall.run, move, failed]
  rfl

/-- **The directory is a tree.** After any sequence of calls with non-root paths the rows form a
tree, and a copy or move between paths one inside the other is rejected. -/
theorem entries_form_tree (calls : List (Int × PathCall))
    (nonRoot : ∀ call ∈ calls, call.2.NonRoot) :
    let d := calls.foldl PathCall.commit empty
    d.IsTree ∧
      ∀ p q, Nested p q → ∀ now overwrite,
        (∀ recursive,
          (∃ err, (PathCall.copyDepth p q overwrite recursive).run now d = .error err) ∧
            PathCall.commit d (now, .copyDepth p q overwrite recursive) = d) ∧
        (∃ err, (PathCall.move p q overwrite).run now d = .error err) ∧
          PathCall.commit d (now, .move p q overwrite) = d := by
  intro d
  have valid : d.Valid := valid_empty.pathCommits calls fun call member =>
    (nonRoot call member).spelled
  refine ⟨valid.isTree, fun p q nested now overwrite => ⟨fun recursive => ?_, ?_⟩⟩
  · obtain ⟨err, failed⟩ := copyDepth_nested nested d now overwrite recursive
    exact ⟨⟨err, failed⟩, commit_of_error failed⟩
  · obtain ⟨err, failed⟩ := move_nested nested d now overwrite
    exact ⟨⟨err, failed⟩, commit_of_error failed⟩

/-- A file, a directory beside it, and the file moved into the directory. -/
def moveRun : List (Int × PathCall) :=
  [(0, .create ⟨"/a/x".toList, rfl⟩ 1 (some 7)), (0, .mkdir ⟨"/b/".toList, rfl⟩),
    (0, .move ⟨"//a".toList, rfl⟩ ⟨"/b/./c".toList, rfl⟩ true)]

/-- A directory moved below another one. -/
theorem moveRun_forms_tree :
    (moveRun.foldl PathCall.commit empty).entries.length = 4 ∧
      (moveRun.foldl PathCall.commit empty).IsTree := by
  refine ⟨by decide +kernel, (entries_form_tree moveRun ?_).1⟩
  unfold PathCall.NonRoot
  decide +kernel

/-! ## Resolution -/

/-- Every row has a path, its names are path elements, and its path resolves to it. -/
structure Resolves (d : Directory) : Prop where
  names : ∀ e ∈ d.entries, ¬(e.parentEntryID = 0 ∧ e.fileName = ['/']) →
    e.fileName ≠ [] ∧ e.fileName ≠ ['.'] ∧ e.fileName ≠ ['.', '.'] ∧ '/' ∉ e.fileName
  climbs : ∀ e ∈ d.entries, ∃ path, Entry.schema.Climbs d.entries e path
  resolved : ∀ e path, Entry.schema.Climbs d.entries e path → d.txStat (render path) = .ok (some e)

lemma Valid.resolves (valid : d.Valid) : d.Resolves where
  names e member notRoot := by
    refine valid.names e member fun top => notRoot ⟨top, ?_⟩
    obtain ⟨path, found⟩ := valid.tree.reached e member
    rw [valid.tree.path_eq_nil found top] at found
    exact (Tree.Schema.find_nil_some found).2
  climbs := valid.isTree.climbs
  resolved e path climbs := by
    have found : d.find path = some e := valid.tree.climbs_iff.mp climbs
    have names := valid.names_of_find found
    rw [← elements_render names] at found
    obtain ⟨parentID, lookup⟩ := valid.txGetEntryInfo_of_find (isAbs_render path) found
    simp only [txStat, lookup]

/-- **Resolution law.** After any sequence of calls in which no `Create` and no transactional
`Mkdir` is given the text `/`, every row is found under its own path, and creating the root in
any other spelling is rejected. -/
theorem paths_resolve (calls : List (Int × PathCall)) (spelled : ∀ call ∈ calls, call.2.Spelled) :
    let d := calls.foldl PathCall.commit empty
    d.Resolves ∧
      ∀ call : PathCall, call.Spelled → ∀ p ∈ call.target, clean p.text = ['/'] →
        ∀ now, call.run now d = .error .entryMustNotBeRoot ∧ PathCall.commit d (now, call) = d := by
  intro d
  refine ⟨(valid_empty.pathCommits calls spelled).resolves, ?_⟩
  intro call written p target cleaned now
  have root : elements p.text = [] := by
    rw [clean_eq_render p.abs] at cleaned
    exact (render_eq_slash (names_elements p.abs)).mp cleaned
  have failed : call.run now d = .error .entryMustNotBeRoot := by
    cases call <;> cases target
    · simp only [PathCall.run, create_root p.abs root (written p rfl)]
      rfl
    · simp only [PathCall.run, mkdir_root p.abs root (written p rfl)]
      rfl
  exact ⟨failed, commit_of_error failed⟩

/-- Odd spellings, the root among them. -/
def spelledRun : List (Int × PathCall) :=
  [(0, .create ⟨"//a/../b//c/".toList, rfl⟩ 1 (some 7)), (0, .create ⟨"//".toList, rfl⟩ 1 (some 8)),
    (0, .mkdir ⟨"/./".toList, rfl⟩), (0, .touch ⟨"/".toList, rfl⟩ 5)]

/-- Spellings of `/b/c` and of the root. -/
theorem spelledRun_resolves :
    (spelledRun.foldl PathCall.commit empty).entries.map Entry.fileName =
        ["/".toList, "b".toList, "c".toList] ∧
      (spelledRun.foldl PathCall.commit empty).Resolves := by
  refine ⟨by decide +kernel, (paths_resolve spelledRun ?_).1⟩
  unfold PathCall.Spelled
  decide +kernel

/-- `Create` of `/` succeeds: it makes an entry named `.` whose own path denotes the root. -/
theorem create_slash_makes_dot :
    ∃ d e, empty.create 0 ['/'] 0 (some 7) = .ok (d, e) ∧ e ∈ d.entries ∧ e.parentEntryID ≠ 0 ∧
      e.fileName = ['.'] ∧ Entry.schema.Climbs d.entries e [['.']] ∧
      d.txStat (render [['.']]) = .ok d.txGetRoot ∧ d.txGetRoot ≠ some e := by
  refine ⟨_, _, rfl, by decide, by decide, by decide, ?_, by decide, by decide⟩
  exact .child (.root (r := _) List.mem_cons_self rfl) (by decide) rfl

end Directory

end TgFile
