import TgFile.Directory.Resolve
import Mathlib.Data.Set.Basic
import Mathlib.Data.Set.Insert

/-! # What a directory state shows

Two readings of a state: `view`, what every path denotes apart from modification times, and
`live`, the paths whose latest journal record is not a deletion.  Each statement of the directory
has one equation for both. -/

namespace TgFile

/-- An entry without its modification time, which every change below a directory touches. -/
def Entry.untimed (e : Entry) : Entry := { e with mtime := 0 }

namespace Directory

open Go Go.Path Result
open Tree.Schema

variable {cs : List Text}

/-- What a path denotes, apart from modification times. -/
def view (d : Directory) (cs : List Text) : Option Entry := (d.find cs).map Entry.untimed

/-- The kind of the latest record of a path. -/
def latestKind (changes : List Change) (p : Text) : Option ChangeKind :=
  (changes.reverse.find? fun c => c.path = p).map Change.kind

/-- The paths whose latest record is not a deletion. -/
def live (d : Directory) : Set (List Text) :=
  {cs | Names cs ∧ ∃ kind, latestKind d.changes (render cs) = some kind ∧ kind ≠ .deleted}

/-- The paths that denote a row. -/
def paths (d : Directory) : Set (List Text) := {cs | (d.find cs).isSome}

lemma mem_paths {d : Directory} : cs ∈ d.paths ↔ (d.view cs).isSome := by
  rw [paths, view, Set.mem_ofPred_eq, Option.isSome_map]

lemma view_eq_none {d : Directory} : d.view cs = none ↔ d.find cs = none :=
  Option.map_eq_none_iff

lemma view_eq_some {d : Directory} {e : Entry} :
    d.view cs = some e ↔ ∃ f, d.find cs = some f ∧ f.untimed = e :=
  Option.map_eq_some_iff

lemma latestKind_concat (changes : List Change) (c : Change) (p : Text) :
    latestKind (changes ++ [c]) p = if c.path = p then some c.kind else latestKind changes p := by
  rw [latestKind, List.reverse_append, List.reverse_singleton, List.singleton_append,
    List.find?_cons]
  by_cases same : c.path = p <;> simp [same, latestKind]

variable {d d' : Directory} {p : Text} {mtime : Int}

/-- Entries have one path. -/
lemma Valid.path_unique_of_view (valid : d.Valid) {p q : List Text} {x y : Entry}
    (left : d.view p = some x) (right : d.view q = some y) (same : x.entryID = y.entryID) :
    p = q := by
  obtain ⟨a, foundA, rfl⟩ := view_eq_some.mp left
  obtain ⟨b, foundB, rfl⟩ := view_eq_some.mp right
  exact valid.tree.path_unique_of_id foundA foundB same

/-! ## Journal records -/

section
variable (now : Int)

@[simp]
lemma find_recordChange (p : Text) (kind : ChangeKind) (cs : List Text) :
    (d.recordChange now p kind).find cs = d.find cs := rfl

@[simp]
lemma view_recordChange (p : Text) (kind : ChangeKind) (cs : List Text) :
    (d.recordChange now p kind).view cs = d.view cs := rfl

@[simp]
lemma nextID_recordChange (p : Text) (kind : ChangeKind) :
    (d.recordChange now p kind).nextID = d.nextID := rfl

lemma Valid.recordChange (valid : d.Valid) (now : Int) (abs : isAbs p) (kind : ChangeKind) :
    (d.recordChange now p kind).Valid :=
  { valid with
    log := by
      refine ⟨fun c member => ?_, fun i c found => ?_⟩
      · rcases List.mem_append.mp member with old | new
        · exact valid.log.paths c old
        · rw [List.mem_singleton.mp new]
          exact ⟨elements p, names_elements abs, clean_eq_render abs⟩
      · change (d.changes ++ [Change.mk (d.changes.length + 1) (clean p) kind now])[i]? = some c
          at found
        by_cases early : i < d.changes.length
        · exact valid.log.numbered i c (List.getElem?_append_left early ▸ found)
        · have last : i = d.changes.length := by
            have bound := (List.getElem?_eq_some_iff.mp found).1
            rw [List.length_append, List.length_singleton] at bound
            omega
          rw [last, List.getElem?_concat_length] at found
          rw [← Option.some.inj found, last] }

lemma live_recordChange (abs : isAbs p) (kind : ChangeKind) :
    (d.recordChange now p kind).live =
      if kind = .deleted then d.live \ {elements p} else insert (elements p) d.live := by
  ext cs
  have same : Names cs → (clean p = render cs ↔ cs = elements p) := by
    intro names
    rw [clean_eq_render abs]
    exact ⟨fun h => (render_injective (names_elements abs) names h).symm, fun h => h ▸ rfl⟩
  simp only [live, Directory.recordChange, Set.mem_ofPred_eq, latestKind_concat]
  by_cases names : Names cs
  · by_cases here : cs = elements p
    · have hit : clean p = render cs := (same names).mpr here
      split_ifs with deleted
      · simp [deleted, here]
      · simp [deleted, here, names_elements abs]
    · have miss : ¬clean p = render cs := fun hit => here ((same names).mp hit)
      simp only [miss, if_false]
      split_ifs with deleted <;> simp [names, here]
  · have other : cs ≠ elements p := fun here => names (here ▸ names_elements abs)
    split_ifs <;> simp [names, other]

lemma live_recordChange_deleted (abs : isAbs p) :
    (d.recordChange now p .deleted).live = d.live \ {elements p} := by
  rw [live_recordChange now abs, if_pos rfl]

lemma live_recordChange_kept (abs : isAbs p) {kind : ChangeKind}
    (kept : kind ≠ .deleted) : (d.recordChange now p kind).live = insert (elements p) d.live := by
  rw [live_recordChange now abs, if_neg kept]

end

lemma live_of_changes {d : Directory} (same : d'.changes = d.changes) : d'.live = d.live := by
  rw [live, live, same]

/-! ## Updates in place -/

section Update

variable {f : Entry → Entry} {entryID : Nat}

/-- An update of columns other than id, place and kind. -/
structure InPlace (f : Entry → Entry) : Prop where
  id : ∀ e, (f e).entryID = e.entryID
  parent : ∀ e, (f e).parentEntryID = e.parentEntryID
  name : ∀ e, (f e).fileName = e.fileName
  kind : ∀ e, (f e).fileKind = e.fileKind

lemma inPlace_mtime (mtime : Int) : InPlace fun e => { e with mtime } :=
  ⟨fun _ => rfl, fun _ => rfl, fun _ => rfl, fun _ => rfl⟩

lemma inPlace_content (refData : Option Nat) (fileSize mtime : Int) :
    InPlace fun e => { e with refData, fileSize, mtime } :=
  ⟨fun _ => rfl, fun _ => rfl, fun _ => rfl, fun _ => rfl⟩

lemma InPlace.guarded (inPlace : InPlace f) (entryID : Nat) :
    InPlace fun e => if e.entryID = entryID then f e else e where
  id e := by split_ifs <;> simp [inPlace.id]
  parent e := by split_ifs <;> simp [inPlace.parent]
  name e := by split_ifs <;> simp [inPlace.name]
  kind e := by split_ifs <;> simp [inPlace.kind]

lemma find_updateEntry (inPlace : InPlace f) (cs : List Text) :
    (d.updateEntry entryID f).find cs =
      (d.find cs).map fun e => if e.entryID = entryID then f e else e :=
  Tree.Schema.find_map (inPlace.guarded entryID).id (inPlace.guarded entryID).parent
    (inPlace.guarded entryID).name cs

lemma Valid.updateEntry (valid : d.Valid) (inPlace : InPlace f) :
    (d.updateEntry entryID f).Valid where
  tree := valid.tree.map (inPlace.guarded entryID).id (inPlace.guarded entryID).parent
    (inPlace.guarded entryID).name fun e => by
      simp only [Entry.schema, (inPlace.guarded entryID).kind]
  names e member notRoot := by
    obtain ⟨old, present, rfl⟩ := List.mem_map.mp member
    rw [(inPlace.guarded entryID).parent] at notRoot
    rw [(inPlace.guarded entryID).name]
    exact valid.names old present notRoot
  fresh e member := by
    obtain ⟨old, present, rfl⟩ := List.mem_map.mp member
    rw [(inPlace.guarded entryID).id]
    exact valid.fresh old present
  positive := valid.positive
  log := valid.log

lemma Valid.touchEntryID (valid : d.Valid) (entryID : Nat) (mtime : Int) :
    (d.touchEntryID entryID mtime).Valid :=
  valid.updateEntry (inPlace_mtime mtime)

@[simp]
lemma view_touchEntryID (entryID : Nat) (mtime : Int) (cs : List Text) :
    (d.touchEntryID entryID mtime).view cs = d.view cs := by
  rw [view, touchEntryID, find_updateEntry (inPlace_mtime mtime), Option.map_map, view]
  refine congrArg (fun g => Option.map g (d.find cs)) (funext fun e => ?_)
  simp only [Function.comp_apply]
  split_ifs <;> rfl

end Update

/-- Two states that show the same: only modification times differ. -/
structure SameView (d d' : Directory) : Prop where
  valid : d'.Valid
  view : ∀ cs, d'.view cs = d.view cs
  changes : d'.changes = d.changes
  nextID : d'.nextID = d.nextID

lemma SameView.refl (valid : d.Valid) : SameView d d := ⟨valid, fun _ => rfl, rfl, rfl⟩

lemma SameView.live (same : SameView d d') : d'.live = d.live :=
  live_of_changes same.changes

/-- Every file keeps its row, modification time included. -/
def FilesStay (d d' : Directory) : Prop :=
  ∀ q e, d.find q = some e → e.fileKind = .file → d'.find q = some e

lemma FilesStay.refl (d : Directory) : FilesStay d d := fun _ _ found _ => found

lemma FilesStay.trans {d₁ : Directory} (left : FilesStay d d₁) (right : FilesStay d₁ d') :
    FilesStay d d' := fun q e found file => right q e (left q e found file) file

lemma Valid.touchEntryID_filesStay (valid : d.Valid) {r : Entry} (member : r ∈ d.entries)
    (dir : r.fileKind = .dir) (mtime : Int) : FilesStay d (d.touchEntryID r.entryID mtime) := by
  intro q e found file
  have other : e.entryID ≠ r.entryID := fun same => by
    rw [valid.tree.eq_of_id (Tree.Schema.find_mem found) member same, dir] at file
    cases file
  rw [Directory.touchEntryID, find_updateEntry (inPlace_mtime mtime), found, Option.map_some,
    if_neg other]

lemma dir_clean (abs : isAbs p) : Path.dir (clean p) = render (elements p).dropLast := by
  rw [clean_eq_render abs]
  rcases List.eq_nil_or_concat' (elements p) with root | ⟨cs, n, split⟩
  · rw [root]
    decide
  · rw [split, dir_render_concat (split ▸ names_elements abs), List.dropLast_concat]

/-- `touchParent` touches the entry at the parent path, if there is one. -/
lemma Valid.touchParent_ok (valid : d.Valid) (abs : isAbs p)
    (run : d.touchParent p mtime = .ok d') :
    d' = d ∨ ∃ r, d.find (elements p).dropLast = some r ∧ d' = d.touchEntryID r.entryID mtime := by
  have names : Names (elements p).dropLast := fun c member =>
    names_elements abs c ((List.dropLast_sublist _).subset member)
  unfold Directory.touchParent at run
  rw [dir_clean abs] at run
  split at run
  · exact .inl (Except.ok.inj run).symm
  · cases run
  · exact .inl (Except.ok.inj run).symm
  · rename_i r _ looked
    obtain ⟨found, -⟩ := valid.txGetEntryInfo_ok (isAbs_render _) looked
    rw [elements_render names] at found
    exact .inr ⟨r, found.symm, (Except.ok.inj run).symm⟩

lemma Valid.touchParent_filesStay (valid : d.Valid) (abs : isAbs p)
    (parentDir : ∀ r, d.find (elements p).dropLast = some r → r.fileKind = .dir)
    (run : d.touchParent p mtime = .ok d') : FilesStay d d' := by
  obtain rfl | ⟨r, found, rfl⟩ := valid.touchParent_ok abs run
  · exact .refl _
  · exact valid.touchEntryID_filesStay (Tree.Schema.find_mem found) (parentDir r found) mtime

lemma Valid.touchParent_find (valid : d.Valid) (abs : isAbs p)
    (run : d.touchParent p mtime = .ok d') {q : List Text} (other : q ≠ (elements p).dropLast) :
    d'.find q = d.find q := by
  obtain rfl | ⟨r, found, rfl⟩ := valid.touchParent_ok abs run
  · rfl
  · rw [Directory.touchEntryID, find_updateEntry (inPlace_mtime mtime)]
    cases here : d.find q with
    | none => rfl
    | some e =>
      rw [Option.map_some, if_neg fun same => other ?_]
      exact valid.tree.path_unique_of_id here found same

/-- `touchParent` only moves the modification time of the parent. -/
lemma Valid.touchParent (valid : d.Valid) (run : d.touchParent p mtime = .ok d') :
    SameView d d' := by
  unfold Directory.touchParent at run
  split at run
  · cases run
    exact .refl valid
  · cases run
  · cases run
    exact .refl valid
  · cases run
    exact ⟨valid.touchEntryID _ _, view_touchEntryID _ _, rfl, rfl⟩

end Directory

end TgFile
