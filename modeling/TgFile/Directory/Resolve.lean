import TgFile.Directory.Operations

/-! # Path resolution

On a valid directory the code's component loop agrees with the tree reading of the mapping table:
an absolute text denotes the row of its elements, and the only ways to fail are a missing
component and a component that is a file. -/

namespace TgFile.Directory

open Go Go.Path Result
open Tree.Schema

/-- The row denoted by a list of elements. -/
def find (d : Directory) (cs : List Text) : Option Entry := Entry.schema.find d.entries cs

/-- The journal holds clean absolute paths and numbers its records from one. -/
structure ProperLog (changes : List Change) : Prop where
  paths : ∀ c ∈ changes, ∃ cs, Names cs ∧ c.path = render cs
  numbered : ∀ i c, changes[i]? = some c → c.revision = i + 1

/-- The invariant of the directory: the mapping rows form a tree whose proper names are path
elements, the id generator is ahead of every id, and the journal is proper. -/
structure Valid (d : Directory) : Prop where
  tree : Entry.schema.WellFormed d.entries
  names : ∀ e ∈ d.entries, e.parentEntryID ≠ 0 → IsName e.fileName
  fresh : ∀ e ∈ d.entries, e.entryID < d.nextID
  positive : 0 < d.nextID
  log : ProperLog d.changes

lemma valid_empty : Valid empty where
  tree := Tree.Schema.wellFormed_nil
  names _ member := nomatch member
  fresh _ member := nomatch member
  positive := Nat.one_pos
  log := ⟨fun _ member => (nomatch member), fun _ _ absent => (nomatch absent)⟩

lemma isDir_iff (e : Entry) : Entry.schema.isDir e = true ↔ e.fileKind = .dir := by
  simp [Entry.schema]

variable {d : Directory} {cs : List Text} {p : Text}

namespace Valid

variable {e : Entry}

lemma names_of_find (valid : d.Valid) {cs : List Text} (found : d.find cs = some e) :
    Names cs := by
  induction cs using List.reverseRecOn generalizing e with
  | nil => exact names_nil
  | append_singleton cs n ih =>
    obtain ⟨p, front, below, name⟩ := find_concat_some found
    have member := find_mem found
    have notRoot : e.parentEntryID ≠ 0 := by
      intro root
      exact valid.tree.above p (find_mem front) (below.symm.trans root)
    exact (ih front).concat (name ▸ valid.names e member notRoot)

/-- The rows of the table are the rows denoted by some path. -/
lemma mem_entries (valid : d.Valid) : e ∈ d.entries ↔ ∃ cs, d.find cs = some e :=
  ⟨valid.tree.reached e, fun ⟨_, found⟩ => find_mem found⟩

lemma isDir_above (valid : d.Valid) {cs rest : List Text} {p : Entry} (proper : rest ≠ [])
    (front : d.find cs = some p) (found : d.find (cs ++ rest) = some e) : p.fileKind = .dir := by
  obtain ⟨n, tail, rfl⟩ := List.exists_cons_of_ne_nil proper
  have split : cs ++ n :: tail = cs ++ [n] ++ tail := by simp
  rw [split] at found
  obtain ⟨c, child⟩ := find_front found
  exact (isDir_iff p).mp (valid.tree.isDir_of_find_concat child front)

lemma find_root_kind (valid : d.Valid) (found : d.find [] = some e) : e.fileKind = .dir :=
  (isDir_iff e).mp (valid.tree.rootDir e (find_mem found) (find_nil_some found).1)

end Valid

/-! ## The component loop without creation -/

/-- A path runs through a file when one of its fronts denotes a file. -/
def ThroughFile (d : Directory) (cs : List Text) : Prop :=
  ∃ front e, front <+: cs ∧ d.find front = some e ∧ e.fileKind = .file

lemma find_snoc (d : Directory) (cs : List Text) (n : Text) :
    d.find (cs ++ [n]) = (d.find cs).bind fun p => d.txSearchEntry p.entryID n :=
  find_concat cs n

/-- The outcome of resolving a directory path. -/
inductive Selected (d : Directory) (cs : List Text) : Except Err (Directory × Nat) → Prop
  | found {e : Entry} (entry : d.find cs = some e) (dir : e.fileKind = .dir) :
      Selected d cs (.ok (d, e.entryID))
  | missing (none : d.find cs = none) (clear : ¬d.ThroughFile cs) :
      Selected d cs (.error .notExist)
  | blocked (file : d.ThroughFile cs) : Selected d cs (.error .pathComponentNotDirectory)

lemma Valid.not_throughFile_of_dir (valid : d.Valid) {e : Entry} (found : d.find cs = some e)
    (dir : e.fileKind = .dir) : ¬d.ThroughFile cs := by
  rintro ⟨front, f, ⟨rest, rfl⟩, atFront, file⟩
  by_cases proper : rest = []
  · rw [proper, List.append_nil, atFront] at found
    rw [Option.some.inj found, dir] at file
    cases file
  · rw [valid.isDir_above proper atFront found] at file
    cases file

lemma Valid.selectItems_selected (valid : d.Valid) (now : Int) (walked rest cs : List Text)
    {e : Entry} (found : d.find cs = some e) (dir : e.fileKind = .dir) :
    Selected d (cs ++ rest) (selectItems now false walked e.entryID d rest) := by
  induction rest generalizing walked cs e with
  | nil =>
    rw [List.append_nil]
    exact .found found dir
  | cons item rest ih =>
    have split : cs ++ item :: rest = cs ++ [item] ++ rest := by simp
    have component : d.find (cs ++ [item]) = d.txSearchEntry e.entryID item := by
      rw [find_snoc, found, Option.bind_some]
    cases next : d.txSearchEntry e.entryID item with
    | none =>
      have absent : d.find (cs ++ item :: rest) = none := by
        rw [split]
        exact find_none_append (component.trans next) rest
      have clear : ¬d.ThroughFile (cs ++ item :: rest) := by
        rintro ⟨front, f, inside, atFront, file⟩
        rw [split] at inside
        rcases List.prefix_or_prefix_of_prefix inside (List.prefix_append (cs ++ [item]) rest)
          with short | ⟨tail, long⟩
        · rcases List.prefix_concat_iff.mp short with same | shorter
          · rw [same, component, next] at atFront
            cases atFront
          · exact valid.not_throughFile_of_dir found dir ⟨front, f, shorter, atFront, file⟩
        · rw [← long] at atFront
          have gone : d.find (cs ++ [item] ++ tail) = none :=
            find_none_append (component.trans next) tail
          rw [gone] at atFront
          cases atFront
      have run : selectItems now false walked e.entryID d (item :: rest) = .error .notExist := by
        simp only [selectItems, txSelectDirComponent, next]
        rfl
      rw [run]
      exact .missing absent clear
    | some c =>
      have atChild : d.find (cs ++ [item]) = some c := component.trans next
      have run : selectItems now false walked e.entryID d (item :: rest) =
          (require (c.fileKind = .dir) Err.pathComponentNotDirectory >>= fun _ =>
            selectItems now false (walked ++ [item]) c.entryID d rest) := by
        simp only [selectItems, txSelectDirComponent, next]
        rfl
      rw [run, split]
      cases kind : c.fileKind with
      | dir =>
        have passed : (require (FileKind.dir = .dir) Err.pathComponentNotDirectory >>=
            fun _ => selectItems now false (walked ++ [item]) c.entryID d rest) =
            selectItems now false (walked ++ [item]) c.entryID d rest := rfl
        rw [passed]
        exact ih (walked ++ [item]) (cs ++ [item]) atChild kind
      | file =>
        exact .blocked ⟨cs ++ [item], c, List.prefix_append _ rest, atChild, kind⟩

/-! ## Texts and elements -/

lemma rebuildDirItems_render (names : Names cs) :
    rebuildDirItems (render cs) = .ok (['/'] :: cs) := by
  have kept : ∀ ds : List Text, Names ds → ds.filter
    (fun item => item ≠ [] ∧ item ≠ ['.']) = ds := by
    intro ds dsNames
    refine List.filter_eq_self.mpr fun c member => ?_
    have name := dsNames c member
    simp [name.1, name.2.1]
  have items : ((render cs).splitOn '/').filter (fun item => item ≠ [] ∧ item ≠ ['.']) = cs := by
    cases cs with
    | nil => decide
    | cons c cs =>
      have pieces : (['/'].intercalate (c :: cs)).splitOn '/' = c :: cs :=
        List.splitOn_intercalate '/' (fun l member => (names l member).2.2.2)
          (List.cons_ne_nil c cs)
      have split : (render (c :: cs)).splitOn '/' = [] :: c :: cs := by
        have whole := splitOn_append_slash [] (['/'].intercalate (c :: cs))
        rw [pieces] at whole
        exact whole
      rw [split, List.filter_cons_of_neg (by simp)]
      exact kept (c :: cs) names
  have noDots : ['.', '.'] ∉ cs := fun member => (names _ member).2.2.1 rfl
  simp only [rebuildDirItems, items, noDots, ↓reduceIte]

lemma splitFilename_root (abs : isAbs p) (root : elements p = []) :
    splitFilename p = ([], ['/'], true) := by
  rw [splitFilename, clean_eq_render abs, root]
  rfl

lemma trimSlash_render_concat {n : Text} (name : IsName n) :
    trimSlash (render (cs ++ [n])) = render (cs ++ [n]) := by
  obtain ⟨front, rendered, -⟩ := render_concat_split cs n
  obtain ⟨body, final, rfl⟩ := (List.eq_nil_or_concat' n).resolve_left name.1
  have different : final ≠ '/' := fun same => name.2.2.2 (by simp [same])
  have last : (render (cs ++ [body ++ [final]])).getLast? = some final := by
    rw [rendered, ← List.cons_append, ← List.append_assoc]
    exact List.getLast?_concat
  rw [trimSlash, last, if_neg fun same => different (Option.some.inj same)]

lemma splitFilename_concat (abs : isAbs p) {n : Text} (split : elements p = cs ++ [n]) :
    splitFilename p = (render cs, n, false) := by
  have names : Names (cs ++ [n]) := split ▸ names_elements abs
  have name : IsName n := names n (by simp)
  have notRoot : render (cs ++ [n]) ≠ ['/'] := by
    rw [Ne, render_eq_slash names]
    simp
  simp only [splitFilename, clean_eq_render abs, split, notRoot, ↓reduceIte,
    trimSlash_render_concat name, dir_render_concat names, base_render_concat name]

lemma Valid.txOnSelectDir_selected (valid : d.Valid) (now : Int) (names : Names cs) :
    Selected d cs (d.txOnSelectDir now (render cs) false) := by
  have run : d.txOnSelectDir now (render cs) false =
      selectItems now false [] 0 d (['/'] :: cs) := by
    rw [txOnSelectDir, rebuildDirItems_render names]
    rfl
  rw [run]
  have rootRow : d.find [] = d.txSearchEntry 0 ['/'] := find_nil
  cases root : d.txSearchEntry 0 ['/'] with
  | none =>
    have gone : ∀ ds, d.find ds = none := fun ds =>
      find_none_append (rootRow.trans root) ds
    have stop : selectItems now false [] 0 d (['/'] :: cs) = .error .notExist := by
      simp only [selectItems, txSelectDirComponent, root]
      rfl
    rw [stop]
    refine .missing (gone cs) ?_
    rintro ⟨front, e, -, found, -⟩
    rw [gone front] at found
    cases found
  | some r =>
    have found : d.find [] = some r := rootRow.trans root
    have dir : r.fileKind = .dir := valid.find_root_kind found
    have step : selectItems now false [] 0 d (['/'] :: cs) =
        (require (r.fileKind = .dir) Err.pathComponentNotDirectory >>= fun _ =>
          selectItems now false [['/']] r.entryID d cs) := by
      simp only [selectItems, txSelectDirComponent, root]
      rfl
    have passed : (require (FileKind.dir = .dir) Err.pathComponentNotDirectory >>=
        fun _ => selectItems now false [['/']] r.entryID d cs) =
        selectItems now false [['/']] r.entryID d cs := rfl
    rw [step, dir, passed]
    exact valid.selectItems_selected now [['/']] cs [] found dir

/-- The outcome of looking up a path by its elements. -/
inductive Located (d : Directory) : List Text → Except Err (Option Entry × Nat) → Prop
  | root : Located d [] (.ok (d.find [], 0))
  | inside {cs : List Text} {n : Text} {p : Entry} (parent : d.find cs = some p)
      (dir : p.fileKind = .dir) :
      Located d (cs ++ [n]) (.ok (d.find (cs ++ [n]), p.entryID))
  | missing {cs : List Text} {n : Text} (none : d.find cs = none) (clear : ¬d.ThroughFile cs) :
      Located d (cs ++ [n]) (.error .notExist)
  | blocked {cs : List Text} {n : Text} (file : d.ThroughFile cs) :
      Located d (cs ++ [n]) (.error .pathComponentNotDirectory)

/-- **The lookup of an absolute path is the lookup of its elements.** -/
lemma Valid.txGetEntryInfo_located (valid : d.Valid) (abs : isAbs p) :
    Located d (elements p) (d.txGetEntryInfo p) := by
  rcases List.eq_nil_or_concat' (elements p) with root | ⟨cs, n, split⟩
  · have run : d.txGetEntryInfo p = .ok (d.find [], 0) := by
      have rootRow : d.txGetRoot = d.find [] := (find_nil (S := Entry.schema)).symm
      rw [txGetEntryInfo, splitFilename_root abs root, ← rootRow]
      rfl
    rw [root, run]
    exact .root
  · have names : Names cs := (names_append.mp (split ▸ names_elements abs)).1
    have run : d.txGetEntryInfo p = (d.txOnSelectDir 0 (render cs) false >>= fun selected =>
        pure (d.txSearchEntry selected.2 n, selected.2)) := by
      rw [txGetEntryInfo, splitFilename_concat abs split]
      rfl
    have selected := valid.txOnSelectDir_selected 0 names
    rw [split, run]
    generalize d.txOnSelectDir 0 (render cs) false = outcome at selected ⊢
    cases selected with
    | @found e entry dir =>
      have below : d.find (cs ++ [n]) = d.txSearchEntry e.entryID n := by
        rw [find_snoc, entry, Option.bind_some]
      have result := Located.inside (n := n) entry dir
      rw [below] at result
      exact result
    | missing none clear => exact .missing none clear
    | blocked file => exact .blocked file

namespace Valid

variable {p : Text}

lemma txGetEntryInfo_ok (valid : d.Valid) (abs : isAbs p) {found : Option Entry} {parentID : Nat}
    (run : d.txGetEntryInfo p = .ok (found, parentID)) :
    found = d.find (elements p) ∧
      ∀ cs n, elements p = cs ++ [n] →
        ∃ parent, d.find cs = some parent ∧ parent.fileKind = .dir ∧ parentID = parent.entryID := by
  have located := valid.txGetEntryInfo_located abs
  rw [run] at located
  generalize elements p = es at located
  cases located with
  | root =>
    refine ⟨rfl, fun cs n split => ?_⟩
    simp at split
  | inside parent dir =>
    refine ⟨rfl, fun cs n split => ?_⟩
    obtain ⟨same, -⟩ := List.append_inj' split rfl
    exact ⟨_, same ▸ parent, dir, rfl⟩

lemma txGetEntryInfo_of_find (valid : d.Valid) (abs : isAbs p) {e : Entry}
    (found : d.find (elements p) = some e) :
    ∃ parentID, d.txGetEntryInfo p = .ok (some e, parentID) := by
  have located := valid.txGetEntryInfo_located abs
  generalize d.txGetEntryInfo p = result at located
  generalize elements p = es at located found
  cases located with
  | root => exact ⟨0, by rw [found]⟩
  | inside parent dir => exact ⟨_, by rw [found]⟩
  | missing none clear =>
    rw [find_snoc, none] at found
    cases found
  | blocked file =>
    obtain ⟨front, f, inside, atFront, kind⟩ := file
    obtain ⟨rest, rfl⟩ := inside
    rw [List.append_assoc] at found
    rw [valid.isDir_above (by simp) atFront found] at kind
    cases kind

/-- `dbDirectory.Stat` finds exactly the denoted row. -/
lemma stat_eq_ok (valid : d.Valid) (abs : isAbs p) {e : Entry} :
    d.stat p = .ok e ↔ d.find (elements p) = some e := by
  constructor
  · intro run
    simp only [stat, bind_ok] at run
    obtain ⟨⟨found, parentID⟩, lookup, result⟩ := run
    obtain ⟨same, -⟩ := valid.txGetEntryInfo_ok abs lookup
    cases found with
    | none => cases result
    | some f => rw [← same, pure_ok.mp result]
  · intro found
    obtain ⟨parentID, lookup⟩ := valid.txGetEntryInfo_of_find abs found
    simp only [stat, lookup]
    rfl

end Valid

end TgFile.Directory
