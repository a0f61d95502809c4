import TgFile.Directory.View

/-! # Creating entries

`Create` and both forms of `Mkdir` insert at most the missing fronts of one path.  `Grown` says
what such a step shows: nothing changes but the new fronts, and exactly these are recorded. -/

namespace TgFile.Directory

open Go Go.Path Result
open Tree.Schema

variable {d d' d₁ : Directory} {target cs q : List Text} {final : Entry → Prop}
  {row parent ent : Entry} {now : Int} {p : Text}

/-! ## One inserted row -/

lemma txCreateEntry_ok {pid : Nat} (run : d.txCreateEntry pid ent = .ok (d', row)) :
    d.txSearchEntry pid ent.fileName = none ∧
      row = { ent with entryID := d.nextID, parentEntryID := pid } ∧
      d' = { d with entries := d.entries ++ [row], nextID := d.nextID + 1 } := by
  simp only [txCreateEntry, bind_ok, require_ok, pure_ok, Prod.mk.injEq, Option.isNone_iff_eq_none]
    at run
  obtain ⟨-, free, state, made⟩ := run
  exact ⟨free, made.symm, made ▸ state.symm⟩

/-- The state after a row was inserted below the path `cs`. -/
structure Inserted (d d' : Directory) (cs : List Text) (row : Entry) : Prop where
  valid : d'.Valid
  free : d.find (cs ++ [row.fileName]) = none
  find : ∀ q, d'.find q = if q = cs ++ [row.fileName] then some row else d.find q
  changes : d'.changes = d.changes
  nextID : d'.nextID = d.nextID + 1
  id : row.entryID = d.nextID

lemma Valid.txCreateEntry (valid : d.Valid) (found : d.find cs = some parent)
    (dir : parent.fileKind = .dir) (run : d.txCreateEntry parent.entryID ent = .ok (d', row))
    (name : IsName ent.fileName) : Inserted d d' cs row := by
  obtain ⟨free, rfl, rfl⟩ := txCreateEntry_ok run
  have freePath : d.find (cs ++ [ent.fileName]) = none := by
    rw [find_snoc, found, Option.bind_some, free]
  have fresh : ∀ s ∈ d.entries, s.entryID ≠ d.nextID := fun s member =>
    Nat.ne_of_lt (valid.fresh s member)
  have notAbove : d.nextID ≠ 0 := Nat.pos_iff_ne_zero.mp valid.positive
  let row : Entry := { ent with entryID := d.nextID, parentEntryID := parent.entryID }
  refine ⟨⟨?_, ?_, ?_, Nat.succ_pos _, valid.log⟩, freePath, fun q => ?_, rfl, rfl, rfl⟩
  · exact valid.tree.insert (r := row) found ((isDir_iff parent).mpr dir) rfl fresh
      notAbove freePath
  · intro e member notRoot
    rcases List.mem_append.mp member with old | new
    · exact valid.names e old notRoot
    · rw [List.mem_singleton.mp new]
      exact name
  · intro e member
    rcases List.mem_append.mp member with old | new
    · exact Nat.lt_succ_of_lt (valid.fresh e old)
    · rw [List.mem_singleton.mp new]
      exact Nat.lt_succ_self _
  · exact valid.tree.find_insert (r := row) found rfl fresh notAbove freePath q

/-- The first row of an empty directory is its root. -/
lemma Valid.txCreateEntry_root (valid : d.Valid) (noRoot : d.find [] = none)
    (run : d.txCreateEntry 0 (newDir now ['/']) = .ok (d', row)) :
    d'.Valid ∧ (∀ q, d'.find q = if q = [] then some row else d.find q) ∧
      d'.changes = d.changes ∧ d'.nextID = d.nextID + 1 ∧ row.entryID = d.nextID ∧
      row.fileKind = .dir ∧ row.refData = none := by
  obtain ⟨-, rfl, rfl⟩ := txCreateEntry_ok run
  have empty : d.entries = [] := valid.tree.rows_nil noRoot
  have gone : ∀ q, d.find q = none := fun q => find_none_append noRoot q
  have notAbove : d.nextID ≠ 0 := Nat.pos_iff_ne_zero.mp valid.positive
  let row : Entry := { newDir now ['/'] with entryID := d.nextID, parentEntryID := 0 }
  refine ⟨⟨?_, ?_, ?_, Nat.succ_pos _, valid.log⟩, fun q => ?_, rfl, rfl, rfl, rfl, rfl⟩
  · rw [empty]
    exact Tree.Schema.wellFormed_root_only (r := row) rfl rfl rfl notAbove
  · intro e member notRoot
    rw [empty, List.nil_append, List.mem_singleton] at member
    rw [member] at notRoot
    exact absurd rfl notRoot
  · intro e member
    rw [empty, List.nil_append, List.mem_singleton] at member
    rw [member]
    exact Nat.lt_succ_self _
  · rw [gone q, Directory.find, empty]
    exact Tree.Schema.find_root_only (r := row) rfl rfl notAbove q

/-! ## Growing a path -/

/-- A directory row: no file is mapped. -/
structure PlainDir (e : Entry) : Prop where
  kind : e.fileKind = .dir
  noRef : e.refData = none

/-- The state after the missing fronts of the path `target` were created and recorded.  New
proper fronts are directories; a new row at `target` itself satisfies `final`. -/
structure Grown (d d' : Directory) (target : List Text) (final : Entry → Prop) : Prop where
  valid : d'.Valid
  kept : ∀ q e, d.view q = some e → d'.view q = some e
  made : ∀ q, d.view q = none → q <+: target → ∃ e, d'.view q = some e ∧ d.nextID ≤ e.entryID ∧
    (q ≠ target → PlainDir e) ∧ (q = target → final e)
  others : ∀ q, d.view q = none → ¬q <+: target → d'.view q = none
  live : ∀ q, q ≠ [] → (q ∈ d'.live ↔ q ∈ d.live ∨ (q <+: target ∧ q ∉ d.paths))
  nextID : d.nextID ≤ d'.nextID
  files : FilesStay d d'

@[simp]
lemma untimed_entryID (e : Entry) : e.untimed.entryID = e.entryID := rfl

@[simp]
lemma untimed_fileKind (e : Entry) : e.untimed.fileKind = e.fileKind := rfl

@[simp]
lemma untimed_refData (e : Entry) : e.untimed.refData = e.refData := rfl

lemma front_mem_paths (front : q <+: target) (present : target ∈ d.paths) : q ∈ d.paths := by
  obtain ⟨rest, rfl⟩ := front
  obtain ⟨e, found⟩ := Option.isSome_iff_exists.mp present
  obtain ⟨p, atFront⟩ := find_front found
  exact Option.isSome_iff_exists.mpr ⟨p, atFront⟩

lemma notMem_paths : q ∉ d.paths ↔ d.view q = none := by
  rw [mem_paths, Option.not_isSome_iff_eq_none]

/-- A path that exists needs no growing. -/
lemma Grown.refl (valid : d.Valid) (present : target ∈ d.paths) : Grown d d target final where
  valid := valid
  kept _ _ shown := shown
  made _ absent front :=
    absurd absent (fun h => notMem_paths.mpr h (front_mem_paths front present))
  others _ absent _ := absent
  live _ _ := (or_iff_left fun ⟨front, absent⟩ => absent (front_mem_paths front present)).symm
  nextID := Nat.le_refl _
  files := .refl d

lemma Grown.mem_paths (grown : Grown d d' target final) :
    q ∈ d'.paths ↔ q ∈ d.paths ∨ q <+: target := by
  constructor
  · intro present
    by_contra neither
    obtain ⟨absent, outside⟩ := not_or.mp neither
    exact notMem_paths.mpr (grown.others q (notMem_paths.mp absent) outside) present
  · intro either
    by_cases old : q ∈ d.paths
    · obtain ⟨e, shown⟩ := Option.isSome_iff_exists.mp (Directory.mem_paths.mp old)
      exact Directory.mem_paths.mpr (by rw [grown.kept q e shown]; rfl)
    · obtain ⟨e, shown, -⟩ := grown.made q (notMem_paths.mp old) (either.resolve_left old)
      exact Directory.mem_paths.mpr (by rw [shown]; rfl)

lemma Grown.trans {front : List Text} (first : Grown d d₁ front PlainDir)
    (second : Grown d₁ d' target final) (inside : front <+: target)
    (whole : front = target → ∀ e, PlainDir e → final e) : Grown d d' target final where
  valid := second.valid
  kept q e shown := second.kept q e (first.kept q e shown)
  made q absent onPath := by
    cases between : d₁.view q with
    | none =>
      obtain ⟨e, shown, later, kind⟩ := second.made q between onPath
      exact ⟨e, shown, first.nextID.trans later, kind⟩
    | some e =>
      have onFront : q <+: front := by
        by_contra outside
        rw [first.others q absent outside] at between
        cases between
      obtain ⟨f, shown, later, kind⟩ := first.made q absent onFront
      obtain rfl : e = f := Option.some.inj (between.symm.trans shown)
      have plain : PlainDir e := by
        by_cases last : q = front
        · exact kind.2 last
        · exact kind.1 last
      refine ⟨e, second.kept q e between, later, fun _ => plain, fun last => ?_⟩
      have same : front = target := inside.eq_of_length_le (last ▸ onFront.length_le)
      exact whole same e plain
  others q absent outside :=
    second.others q (first.others q absent fun onFront => outside (onFront.trans inside)) outside
  live q notRoot := by
    rw [second.live q notRoot, first.live q notRoot, first.mem_paths, not_or]
    have longer : q <+: front → q <+: target := fun onFront => onFront.trans inside
    tauto
  nextID := first.nextID.trans second.nextID
  files := first.files.trans second.files

/-- An inserted and recorded row grows its path. -/
lemma Inserted.grown (inserted : Inserted d d₁ cs row) (parent : cs ∈ d.paths) (abs : isAbs p)
    (here : elements p = cs ++ [row.fileName]) (same : SameView (d₁.recordChange now p .created) d')
    (files : FilesStay (d₁.recordChange now p .created) d') (shape : final row.untimed) :
    Grown d d' (cs ++ [row.fileName]) final := by
  have view_eq : ∀ q, d'.view q =
      if q = cs ++ [row.fileName] then some row.untimed else d.view q := by
    intro q
    rw [same.view, view_recordChange, view, inserted.find]
    split_ifs <;> rfl
  have absent : d.view (cs ++ [row.fileName]) = none := view_eq_none.mpr inserted.free
  have fronts : ∀ q, d.view q = none → q <+: cs ++ [row.fileName] → q = cs ++ [row.fileName] := by
    intro q missing front
    rcases List.prefix_concat_iff.mp front with whole | shorter
    · exact whole
    · exact absurd (front_mem_paths shorter parent) (notMem_paths.mpr missing)
  refine ⟨same.valid, ?_, ?_, ?_, ?_, ?_, ?_⟩
  · intro q e shown
    have other : q ≠ cs ++ [row.fileName] := by
      intro hit
      rw [hit, absent] at shown
      cases shown
    rw [view_eq, if_neg other, shown]
  · intro q missing front
    have hit := fronts q missing front
    exact ⟨row.untimed, by rw [view_eq, if_pos hit], inserted.id.ge,
      fun other => absurd hit other, fun _ => shape⟩
  · intro q missing outside
    have other : q ≠ cs ++ [row.fileName] := fun hit => outside (hit ▸ List.prefix_rfl)
    rw [view_eq, if_neg other, missing]
  · intro q _
    rw [same.live, live_recordChange_kept now abs (by decide), here,
      live_of_changes inserted.changes, Set.mem_insert_iff, notMem_paths]
    constructor
    · rintro (hit | old)
      · exact .inr ⟨hit ▸ List.prefix_rfl, hit ▸ absent⟩
      · exact .inl old
    · rintro (old | ⟨front, missing⟩)
      · exact .inr old
      · exact .inl (fronts q missing front)
  · rw [same.nextID, nextID_recordChange, inserted.nextID]
    exact Nat.le_succ _
  · intro q e found file
    refine files q e ?_ file
    rw [find_recordChange, inserted.find, if_neg, found]
    rintro rfl
    rw [inserted.free] at found
    cases found

lemma Inserted.find_parent (inserted : Inserted d d₁ cs row) (found : d.find cs = some parent)
    (now : Int) (p : Text) : (d₁.recordChange now p .created).find cs = some parent := by
  rw [find_recordChange, inserted.find, if_neg (by simp), found]

lemma Inserted.touchParent_filesStay (inserted : Inserted d d₁ cs row)
    (found : d.find cs = some parent) (dir : parent.fileKind = .dir) {mtime : Int} {n : Text}
    (abs : isAbs p) (split : elements p = cs ++ [n])
    (run : (d₁.recordChange now p .created).touchParent p mtime = .ok d') :
    FilesStay (d₁.recordChange now p .created) d' := by
  refine (inserted.valid.recordChange now abs .created).touchParent_filesStay abs
    (fun r here => ?_) run
  rw [split, List.dropLast_concat, inserted.find_parent found] at here
  rw [← Option.some.inj here, dir]

/-! ## Resolving with creation -/

/-- One missing component is created, recorded and touches its parent. -/
lemma Valid.txSelectDirComponent_create (valid : d.Valid) {item : Text}
    (found : d.find cs = some parent) (dir : parent.fileKind = .dir) (name : IsName item)
    (missing : d.txSearchEntry parent.entryID item = none)
    (run : d.txSelectDirComponent now parent.entryID item (render (cs ++ [item])) true =
      .ok (d', ent)) :
    Grown d d' (cs ++ [item]) PlainDir ∧ d'.view (cs ++ [item]) = some ent.untimed := by
  have names : Names (cs ++ [item]) := (valid.names_of_find found).concat name
  simp only [txSelectDirComponent, missing, if_true, bind_ok, pure_ok] at run
  obtain ⟨⟨d₁, row⟩, created, result⟩ := run
  obtain ⟨-, rfl, -⟩ := txCreateEntry_ok created
  have inserted := valid.txCreateEntry found dir created name
  have recorded := inserted.valid.recordChange now (p := render (cs ++ [item]))
    (isAbs_render _) .created
  obtain ⟨rfl, rfl⟩ := Prod.mk.inj result
  have same : SameView (d₁.recordChange now (render (cs ++ [item])) .created)
      (if parent.entryID ≠ 0 then
        (d₁.recordChange now (render (cs ++ [item])) .created).touchEntryID parent.entryID now
      else d₁.recordChange now (render (cs ++ [item])) .created) := by
    split_ifs
    · exact ⟨recorded.touchEntryID _ _, view_touchEntryID _ _, rfl, rfl⟩
    · exact .refl recorded
  have files : FilesStay (d₁.recordChange now (render (cs ++ [item])) .created)
      (if parent.entryID ≠ 0 then
        (d₁.recordChange now (render (cs ++ [item])) .created).touchEntryID parent.entryID now
      else d₁.recordChange now (render (cs ++ [item])) .created) := by
    split_ifs
    · exact recorded.touchEntryID_filesStay (find_mem (inserted.find_parent found _ _)) dir now
    · exact .refl _
  refine ⟨inserted.grown (Option.isSome_iff_exists.mpr ⟨parent, found⟩) (isAbs_render _)
    (elements_render names) same files ⟨rfl, rfl⟩, ?_⟩
  rw [same.view, view_recordChange, view, inserted.find]
  exact congrArg (Option.map Entry.untimed) (if_pos rfl)

/-- The loop creates the missing fronts and returns the id of the last directory. -/
lemma Valid.selectItems_grown (valid : d.Valid) {rest : List Text} {parentID : Nat}
    (found : d.find cs = some parent) (dir : parent.fileKind = .dir) (names : Names rest)
    (run : selectItems now true (['/'] :: cs) parent.entryID d rest = .ok (d', parentID)) :
    Grown d d' (cs ++ rest) PlainDir ∧
      ∃ e, d'.find (cs ++ rest) = some e ∧ e.fileKind = .dir ∧ e.entryID = parentID := by
  induction rest generalizing d cs parent with
  | nil =>
    cases run
    rw [List.append_nil]
    exact ⟨.refl valid (Option.isSome_iff_exists.mpr ⟨parent, found⟩), parent, found, dir, rfl⟩
  | cons item rest ih =>
    have name : IsName item := names item List.mem_cons_self
    have restNames : Names rest := fun c member => names c (List.mem_cons_of_mem _ member)
    have csNames := valid.names_of_find found
    have componentPath : join (['/'] :: cs ++ [item]) = render (cs ++ [item]) :=
      join_root_cons (csNames.concat name)
    simp only [selectItems, bind_ok, require_ok] at run
    obtain ⟨⟨d₁, ent⟩, selected, -, entDir, later⟩ := run
    rw [componentPath] at selected
    have walked : (['/'] :: cs) ++ [item] = ['/'] :: (cs ++ [item]) := rfl
    rw [walked] at later
    have split : cs ++ item :: rest = cs ++ [item] ++ rest := by simp
    rw [split]
    cases next : d.txSearchEntry parent.entryID item with
    | some c =>
      simp only [txSelectDirComponent, next, Except.ok.injEq, Prod.mk.injEq] at selected
      obtain ⟨rfl, rfl⟩ := selected
      have atChild : d.find (cs ++ [item]) = some c := by
        rw [find_snoc, found, Option.bind_some, next]
      exact ih valid atChild entDir restNames later
    | none =>
      obtain ⟨grown, shown⟩ := valid.txSelectDirComponent_create found dir name next selected
      obtain ⟨c, atChild, sameChild⟩ := view_eq_some.mp shown
      have childDir : c.fileKind = .dir := by
        rw [← untimed_fileKind, sameChild]
        exact entDir
      have childID : c.entryID = ent.entryID := by
        rw [← untimed_entryID, sameChild, untimed_entryID]
      rw [← childID] at later
      obtain ⟨more, final⟩ := ih grown.valid atChild childDir restNames later
      exact ⟨grown.trans more (List.prefix_append _ _) fun _ _ plain => plain, final⟩

/-- **Resolving with creation** makes the missing fronts of a rendered path. -/
lemma Valid.txOnSelectDir_grown (valid : d.Valid) {parentID : Nat} (names : Names cs)
    (run : d.txOnSelectDir now (render cs) true = .ok (d', parentID)) :
    Grown d d' cs PlainDir ∧
      ∃ e, d'.find cs = some e ∧ e.fileKind = .dir ∧ e.entryID = parentID := by
  simp only [txOnSelectDir, rebuildDirItems_render names, bind_ok, Except.ok.injEq,
    exists_eq_left', selectItems, require_ok] at run
  obtain ⟨⟨d₁, root⟩, selected, -, rootDir, later⟩ := run
  have rootRow : d.find [] = d.txSearchEntry 0 ['/'] := find_nil
  cases start : d.txSearchEntry 0 ['/'] with
  | some r =>
    simp only [txSelectDirComponent, start, Except.ok.injEq, Prod.mk.injEq] at selected
    obtain ⟨rfl, rfl⟩ := selected
    exact valid.selectItems_grown (rootRow.trans start) rootDir names later
  | none =>
    simp only [txSelectDirComponent, start, if_true, bind_ok, pure_ok] at selected
    obtain ⟨⟨d₂, row⟩, created, result⟩ := selected
    obtain ⟨rfl, rfl⟩ := Prod.mk.inj result
    obtain ⟨valid₂, find₂, changes₂, nextID₂, id₂, kind, noRef⟩ :=
      valid.txCreateEntry_root (rootRow.trans start) created
    have gone : ∀ q, d.find q = none := fun q => find_none_append (rootRow.trans start) q
    have recorded := valid₂.recordChange now (p := ['/']) rfl .created
    have grown : Grown d (d₂.recordChange now ['/'] .created) [] PlainDir := by
      refine ⟨recorded, ?_, ?_, ?_, ?_, ?_, ?_⟩
      · intro q e shown
        rw [view, gone] at shown
        cases shown
      · intro q _ front
        have empty : q = [] := List.prefix_nil.mp front
        refine ⟨row.untimed, ?_, id₂.ge, fun other => absurd empty other, fun _ => ⟨kind, noRef⟩⟩
        rw [view_recordChange, view, find₂, if_pos empty]
        rfl
      · intro q _ outside
        have other : q ≠ [] := fun empty => outside (empty ▸ List.prefix_rfl)
        rw [view_recordChange, view, find₂, if_neg other, gone]
        rfl
      · intro q notRoot
        rw [live_recordChange_kept now rfl (by decide), elements_slash, live_of_changes changes₂,
          Set.mem_insert_iff, List.prefix_nil, or_iff_right notRoot]
        exact (or_iff_left fun both => notRoot both.1).symm
      · rw [nextID_recordChange, nextID₂]
        exact Nat.le_succ _
      · intro q e present _
        rw [gone] at present
        cases present
    have found : (d₂.recordChange now ['/'] .created).find [] = some row := by
      rw [find_recordChange, find₂, if_pos rfl]
    obtain ⟨more, last⟩ := recorded.selectItems_grown found kind names later
    exact ⟨grown.trans more List.nil_prefix fun _ _ plain => plain, last⟩

/-! ## The creating operations -/

/-- A text that is not the root splits after its cleaned parent. -/
lemma splitFilename_trimSlash (abs : isAbs p) {n : Text} (split : elements p = cs ++ [n]) :
    isAbs (trimSlash p) = true ∧ elements (trimSlash p) = cs ++ [n] ∧
      splitFilename (trimSlash p) = (render cs, n, false) := by
  have notRoot : p ≠ ['/'] := by
    rintro rfl
    rw [elements_slash] at split
    simp at split
  obtain ⟨absTrimmed, same⟩ := trimSlash_abs abs notRoot
  exact ⟨absTrimmed, same.trans split, splitFilename_concat absTrimmed (same.trans split)⟩

/-- **`Create`** adds one file row and the directories missing above it. -/
lemma Valid.create_grown (valid : d.Valid) {size : Int} {refdata : Option Nat} {e : Entry}
    (abs : isAbs p) (notRoot : elements p ≠ []) (run : d.create now p size refdata = .ok (d', e)) :
    Grown d d' (elements p) (· = e.untimed) ∧ d.view (elements p) = none ∧
      e.fileKind = .file ∧ e.refData = refdata ∧ e.fileSize = size := by
  obtain ⟨cs, n, split⟩ := (List.eq_nil_or_concat' (elements p)).resolve_left notRoot
  obtain ⟨absTrimmed, sameElements, parts⟩ := splitFilename_trimSlash abs split
  have names : Names (cs ++ [n]) := split ▸ names_elements abs
  have name : IsName n := names n (by simp)
  simp only [create, parts, bind_ok, require_ok, pure_ok] at run
  obtain ⟨-, -, ⟨d₁, parentID⟩, selected, -, -, ⟨d₂, row⟩, created, d₃, touched, result⟩ := run
  obtain ⟨rfl, rfl⟩ := Prod.mk.inj result
  obtain ⟨grown, parent, atParent, dir, rfl⟩ :=
    valid.txOnSelectDir_grown (names_append.mp names).1 selected
  obtain ⟨-, made, -⟩ := txCreateEntry_ok created
  have inserted := grown.valid.txCreateEntry atParent dir created name
  have recorded := inserted.valid.recordChange now absTrimmed .created
  have same := recorded.touchParent touched
  have files := inserted.touchParent_filesStay atParent dir absTrimmed sameElements touched
  have rowName : row.fileName = n := by rw [made]
  have added : Grown d₁ d₃ (cs ++ [n]) (· = row.untimed) := by
    rw [← rowName] at sameElements ⊢
    exact inserted.grown (Option.isSome_iff_exists.mpr ⟨parent, atParent⟩) absTrimmed sameElements
      same files rfl
  have longer : cs ≠ cs ++ [n] := by simp
  rw [split]
  refine ⟨grown.trans added (List.prefix_append _ _) fun same => absurd same longer, ?_,
    by rw [made], by rw [made], by rw [made]⟩
  rw [← notMem_paths]
  intro present
  refine notMem_paths.mpr (view_eq_none.mpr inserted.free) (grown.mem_paths.mpr (.inl ?_))
  rw [rowName]
  exact present

/-- **`Mkdir` inside a transaction** adds one directory row below an existing directory. -/
lemma Valid.mkdir_grown (valid : d.Valid) {e : Entry} (abs : isAbs p) (notRoot : elements p ≠ [])
    (run : d.mkdir now p = .ok (d', e)) :
    Grown d d' (elements p) (· = e.untimed) ∧ d.view (elements p) = none ∧ PlainDir e ∧
      (elements p).dropLast ∈ d.paths := by
  obtain ⟨cs, n, split⟩ := (List.eq_nil_or_concat' (elements p)).resolve_left notRoot
  obtain ⟨absTrimmed, sameElements, parts⟩ := splitFilename_trimSlash abs split
  have names : Names (cs ++ [n]) := split ▸ names_elements abs
  have name : IsName n := names n (by simp)
  have selected := valid.txOnSelectDir_selected now (names_append.mp names).1
  simp only [mkdir, parts, bind_ok, require_ok, pure_ok] at run
  obtain ⟨-, -, ⟨d₁, parentID⟩, resolved, -, -, ⟨d₂, row⟩, created, d₃, touched, result⟩ := run
  obtain ⟨rfl, rfl⟩ := Prod.mk.inj result
  unfold selectParent at resolved
  generalize d.txOnSelectDir now (render cs) false = outcome at selected resolved
  cases selected with
  | missing none clear => cases resolved
  | blocked file => cases resolved
  | @found parent atParent dir =>
    cases resolved
    obtain ⟨-, made, -⟩ := txCreateEntry_ok created
    have inserted := valid.txCreateEntry atParent dir created name
    have same := (inserted.valid.recordChange now absTrimmed .created).touchParent touched
    have files := inserted.touchParent_filesStay atParent dir absTrimmed sameElements touched
    have present : cs ∈ d.paths := Option.isSome_iff_exists.mpr ⟨parent, atParent⟩
    have rowName : row.fileName = n := by rw [made]; rfl
    rw [split, List.dropLast_concat]
    rw [← rowName] at sameElements ⊢
    exact ⟨inserted.grown present absTrimmed sameElements same files rfl,
      view_eq_none.mpr inserted.free, ⟨by rw [made]; rfl, by rw [made]; rfl⟩, present⟩

/-- **`Mkdir` outside a transaction** adds the missing directories of a path. -/
lemma Valid.dbMkdir_grown (valid : d.Valid) (abs : isAbs p) (run : d.dbMkdir now p = .ok d') :
    Grown d d' (elements p) PlainDir := by
  rcases List.eq_nil_or_concat' (elements p) with root | ⟨cs, n, split⟩
  · have rootRow : d.txGetRoot = d.find [] := (find_nil (S := Entry.schema)).symm
    simp only [dbMkdir, splitFilename_root abs root, if_true, rootRow] at run
    rw [root]
    cases start : d.find [] with
    | some r =>
      rw [start] at run
      cases run
      exact .refl valid (Option.isSome_iff_exists.mpr ⟨r, start⟩)
    | none =>
      simp only [start, bind_ok, require_ok, pure_ok] at run
      obtain ⟨⟨d₁, row⟩, created, -, -, rfl⟩ := run
      obtain ⟨valid₁, find₁, changes₁, nextID₁, id₁, kind, noRef⟩ :=
        valid.txCreateEntry_root start created
      have gone : ∀ q, d.find q = none := fun q => find_none_append start q
      refine ⟨valid₁, ?_, ?_, ?_, ?_, ?_, ?_⟩
      · intro q e shown
        rw [view, gone] at shown
        cases shown
      · intro q _ front
        have empty : q = [] := List.prefix_nil.mp front
        refine ⟨row.untimed, ?_, id₁.ge, fun other => absurd empty other, fun _ => ⟨kind, noRef⟩⟩
        rw [view, find₁, if_pos empty]
        rfl
      · intro q _ outside
        have other : q ≠ [] := fun empty => outside (empty ▸ List.prefix_rfl)
        rw [view, find₁, if_neg other, gone]
        rfl
      · intro q notRoot
        rw [live_of_changes changes₁, List.prefix_nil]
        exact (or_iff_left fun both => notRoot both.1).symm
      · rw [nextID₁]
        exact Nat.le_succ _
      · intro q e present _
        rw [gone] at present
        cases present
  · have names : Names (cs ++ [n]) := split ▸ names_elements abs
    have name : IsName n := names n (by simp)
    simp only [dbMkdir, splitFilename_concat abs split, Bool.false_eq_true,
      if_false, bind_ok] at run
    obtain ⟨⟨d₁, parentID⟩, selected, later⟩ := run
    obtain ⟨grown, parent, atParent, dir, rfl⟩ :=
      valid.txOnSelectDir_grown (names_append.mp names).1 selected
    have below : d₁.find (cs ++ [n]) = d₁.txSearchEntry parent.entryID n := by
      rw [find_snoc, atParent, Option.bind_some]
    rw [split]
    cases last : d₁.txSearchEntry parent.entryID n with
    | some c =>
      simp only [last, pure_ok] at later
      subst later
      have present : cs ++ [n] ∈ d₁.paths := Option.isSome_iff_exists.mpr ⟨c, below.trans last⟩
      exact grown.trans (.refl grown.valid present) (List.prefix_append _ _) fun _ _ plain => plain
    | none =>
      simp only [last, bind_ok, pure_ok] at later
      obtain ⟨⟨d₂, row⟩, created, rfl⟩ := later
      obtain ⟨-, rfl, -⟩ := txCreateEntry_ok created
      have inserted := grown.valid.txCreateEntry atParent dir created name
      have recorded := inserted.valid.recordChange now abs .created
      have added := inserted.grown (Option.isSome_iff_exists.mpr ⟨parent, atParent⟩) abs split
        ⟨recorded.touchEntryID parent.entryID now, view_touchEntryID _ _, rfl, rfl⟩
        (recorded.touchEntryID_filesStay (find_mem (inserted.find_parent atParent _ _)) dir now)
        (PlainDir.mk rfl rfl)
      exact grown.trans added (List.prefix_append _ _) fun _ _ plain => plain

end TgFile.Directory
