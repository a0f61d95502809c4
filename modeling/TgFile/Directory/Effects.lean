import TgFile.Directory.Move

/-! # What operations do to the entries of a path

Two summaries of a directory operation for the tables that refer to entries: which entries stay
where they are, and which Files become mapped or cease to be. -/

namespace TgFile.Directory

open Go Go.Path Result

variable {d d' d₁ : Directory} {target q : List Text} {final : Entry → Prop} {p src dst : Text}
  {size now mtime : Int} {old e : Entry} {removed overwritten : List Entry}
  {gone : List Text → Prop} {overwrite recursive : Bool} {pairs : List (Entry × Entry)}
  {fileID id : Nat} {kind : FileKind}

/-! ## Entries that stay -/

/-- Every entry but the removed ones is at the same path, under its id and of its kind. -/
structure Keeps (d d' : Directory) (removed : List Entry) : Prop where
  valid : d'.Valid
  kept : ∀ q e, d.view q = some e → e.entryID ∉ removed.map Entry.entryID →
    ∃ e', d'.view q = some e' ∧ e'.entryID = e.entryID ∧ e'.fileKind = e.fileKind

lemma Keeps.of_view (valid : d'.Valid) (same : ∀ q, d'.view q = d.view q) : Keeps d d' [] where
  valid := valid
  kept q e shown _ := ⟨e, by rw [same, shown], rfl, rfl⟩

lemma Keeps.refl (valid : d.Valid) : Keeps d d [] := .of_view valid fun _ => rfl

lemma Keeps.trans {first second : List Entry} (left : Keeps d d₁ first)
    (right : Keeps d₁ d' second) : Keeps d d' (first ++ second) where
  valid := right.valid
  kept q e shown free := by
    rw [List.map_append, List.mem_append, not_or] at free
    obtain ⟨e₁, shown₁, id₁, kind₁⟩ := left.kept q e shown free.1
    obtain ⟨e₂, shown₂, id₂, kind₂⟩ := right.kept q e₁ shown₁ (by rw [id₁]; exact free.2)
    exact ⟨e₂, shown₂, id₂.trans id₁, kind₂.trans kind₁⟩

lemma Grown.keeps (grown : Grown d d' target final) : Keeps d d' [] where
  valid := grown.valid
  kept q e shown _ := ⟨e, grown.kept q e shown, rfl, rfl⟩

lemma Valid.replace_keeps (valid : d.Valid) {refdata : Option Nat} (abs : isAbs p)
    (run : d.replace p size refdata now mtime = .ok (d', old)) : Keeps d d' [] := by
  obtain ⟨valid', found, -, view, -, -⟩ := valid.replace_spec abs run
  refine ⟨valid', fun q e shown _ => ?_⟩
  rw [view]
  split_ifs with here
  · obtain rfl : old.untimed = e := by
      rw [here, Directory.view, found] at shown
      exact Option.some.inj shown
    exact ⟨_, rfl, rfl, rfl⟩
  · exact ⟨e, shown, rfl, rfl⟩

lemma Valid.touch_keeps (valid : d.Valid) (abs : isAbs p) (run : d.touch now p mtime = .ok d') :
    Keeps d d' [] := by
  obtain ⟨valid', -, view, -, -⟩ := valid.touch_spec abs run
  exact .of_view valid' view

lemma mem_ids_of_view (listed : ∀ x, x ∈ removed ↔ ∃ q, gone q ∧ d.find q = some x) (cut : gone q)
    (shown : d.view q = some e) : e.entryID ∈ removed.map Entry.entryID := by
  obtain ⟨x, found, rfl⟩ := view_eq_some.mp shown
  exact List.mem_map.mpr ⟨x, (listed x).mpr ⟨q, cut, found⟩, rfl⟩

lemma Valid.remove_keeps (valid : d.Valid) (abs : isAbs p)
    (run : d.remove now p = .ok (d', removed)) : Keeps d d' removed := by
  obtain ⟨d₁, pruned, same, -⟩ := valid.remove_pruned abs run
  refine ⟨same.valid, fun q e shown free => ?_⟩
  by_cases cut : elements p <+: q
  · exact absurd (mem_ids_of_view pruned.removed cut shown) free
  · exact ⟨e, by rw [same.view, Directory.view, pruned.kept q cut]; exact shown, rfl, rfl⟩

lemma Valid.copyDepth_keeps (valid : d.Valid) (absSrc : isAbs src) (absDst : isAbs dst)
    (run : d.copyDepth now src dst overwrite recursive = .ok (d', pairs, overwritten)) :
    Keeps d d' overwritten := by
  rcases valid.copyDepth_spec absSrc absDst run with ⟨rfl, -, rfl, -⟩ | ⟨copied, listed, -⟩
  · exact .refl valid
  · refine ⟨copied.valid, fun q e shown free => ?_⟩
    by_cases cut : elements dst <+: q
    · exact absurd (mem_ids_of_view listed cut shown) free
    · exact ⟨e, by rw [copied.kept q cut]; exact shown, rfl, rfl⟩

/-! ## Files at other paths -/

/-- The files at the other paths are the same, modification times included. -/
def FilesBeside (d d' : Directory) (cs : List Text) : Prop :=
  ∀ q, q ≠ cs → ∀ e, e.fileKind = .file → (d'.find q = some e ↔ d.find q = some e)

lemma FilesBeside.refl (d : Directory) (cs : List Text) : FilesBeside d d cs :=
  fun _ _ _ _ => Iff.rfl

lemma FilesBeside.trans {cs : List Text} (left : FilesBeside d d₁ cs)
    (right : FilesBeside d₁ d' cs) : FilesBeside d d' cs :=
  fun q other e file => (right q other e file).trans (left q other e file)

/-- A file that is found afterwards was there before, if the view says so. -/
lemma FilesStay.find_iff (stay : FilesStay d d')
    (shown : ∀ x, d'.view q = some x → x.fileKind = .file → d.view q = some x)
    (file : e.fileKind = .file) : d'.find q = some e ↔ d.find q = some e := by
  refine ⟨fun found => ?_, fun found => stay q e found file⟩
  obtain ⟨x, before, same⟩ :=
    view_eq_some.mp (shown e.untimed (view_eq_some.mpr ⟨e, found, rfl⟩) file)
  have kind : x.fileKind = .file := by
    rw [← untimed_fileKind, same, untimed_fileKind, file]
  rw [stay q x before kind] at found
  rw [before, found]

lemma Grown.filesBeside (grown : Grown d d' target final) : FilesBeside d d' target := by
  refine fun q other e file => grown.files.find_iff (fun x shown kind => ?_) file
  cases before : d.view q with
  | some y => rw [← shown, grown.kept q y before]
  | none =>
    by_cases front : q <+: target
    · obtain ⟨y, made, -, plain, -⟩ := grown.made q before front
      obtain rfl := Option.some.inj (shown.symm.trans made)
      rw [(plain other).kind] at kind
      cases kind
    · rw [grown.others q before front] at shown
      cases shown

lemma Valid.remove_filesBeside (valid : d.Valid) (abs : isAbs p)
    (found : d.find (elements p) = some old) (file : old.fileKind = .file)
    (run : d.remove now p = .ok (d', removed)) : FilesBeside d d' (elements p) := by
  obtain ⟨d₁, pruned, same, stay⟩ := valid.remove_pruned abs run
  have cut : FilesBeside d d₁ (elements p) := by
    intro q other e _
    by_cases below : elements p <+: q
    · -- a file has nothing below it
      have absent : d.find q = none := by
        obtain ⟨rest, rfl⟩ := below
        have proper : rest ≠ [] := fun empty => other (by rw [empty, List.append_nil])
        cases at_ : d.find (elements p ++ rest) with
        | none => rfl
        | some x =>
          rw [valid.isDir_above proper found at_] at file
          cases file
      rw [pruned.cut q below, absent]
    · rw [pruned.kept q below]
  exact cut.trans fun q _ e kind => stay.find_iff (fun x shown _ => by rw [← same.view, shown]) kind

lemma Valid.touch_filesBeside (valid : d.Valid) (abs : isAbs p)
    (run : d.touch now p mtime = .ok d') : FilesBeside d d' (elements p) := by
  simp only [touch, bind_ok] at run
  obtain ⟨⟨found, parentID⟩, lookup, later⟩ := run
  obtain ⟨denoted, -⟩ := valid.txGetEntryInfo_ok abs lookup
  cases found with
  | none => cases later
  | some own =>
    obtain rfl := pure_ok.mp later
    intro q other e _
    rw [find_recordChange, Directory.touchEntryID, find_updateEntry (inPlace_mtime mtime)]
    cases here : d.find q with
    | none => rfl
    | some x =>
      have apart : x.entryID ≠ own.entryID := fun same =>
        other (valid.tree.path_unique_of_id here denoted.symm same)
      rw [Option.map_some, if_neg apart]

/-! ## Entries by their ids -/

/-- A path denotes an entry with the id, of the kind. -/
def Holds (d : Directory) (id : Nat) (kind : FileKind) : Prop :=
  ∃ q e, d.view q = some e ∧ e.entryID = id ∧ e.fileKind = kind

lemma holds_of_find (found : d.find q = some e) : d.Holds e.entryID e.fileKind :=
  ⟨q, e.untimed, view_eq_some.mpr ⟨e, found, rfl⟩, rfl, rfl⟩

lemma Holds.mem_entries (holds : d.Holds id kind) :
    ∃ e ∈ d.entries, e.entryID = id ∧ e.fileKind = kind := by
  obtain ⟨q, _, shown, id, kind⟩ := holds
  obtain ⟨e, found, rfl⟩ := view_eq_some.mp shown
  exact ⟨e, Tree.Schema.find_mem found, id, kind⟩

lemma Keeps.holds (keeps : Keeps d d' removed) (holds : d.Holds id kind)
    (free : id ∉ removed.map Entry.entryID) : d'.Holds id kind := by
  obtain ⟨q, e, shown, rfl, rfl⟩ := holds
  obtain ⟨e', shown', id, kind⟩ := keeps.kept q e shown free
  exact ⟨q, e', shown', id, kind⟩

/-- A move keeps the ids and kinds of all entries it does not overwrite. -/
lemma Valid.move_holds (valid : d.Valid) (absSrc : isAbs src) (absDst : isAbs dst)
    (run : d.move now src dst overwrite = .ok (d', overwritten)) (holds : d.Holds id kind)
    (free : id ∉ overwritten.map Entry.entryID) : d'.Holds id kind := by
  rcases valid.move_spec absSrc absDst run with ⟨rfl, -⟩ | ⟨moved, listed⟩
  · exact holds
  · obtain ⟨q, e, shown, rfl, rfl⟩ := holds
    by_cases cut : elements dst <+: q
    · exact absurd (mem_ids_of_view listed cut shown) free
    · by_cases vacated : elements src <+: q
      · obtain ⟨rest, rfl⟩ := vacated
        obtain ⟨parentID, n, view⟩ := moved.moved
        refine ⟨elements dst ++ rest, _, by rw [view, shown]; rfl, ?_, ?_⟩ <;>
          (split_ifs <;> rfl)
      · exact ⟨q, e, by rw [moved.kept q vacated cut]; exact shown, rfl, rfl⟩

/-- A copy pairs entries of one kind. -/
lemma Valid.copyDepth_kinds (valid : d.Valid) (absSrc : isAbs src) (absDst : isAbs dst)
    (run : d.copyDepth now src dst overwrite recursive = .ok (d', pairs, overwritten)) :
    ∀ pair ∈ pairs, d'.Holds pair.2.entryID pair.1.fileKind := by
  intro pair member
  rcases valid.copyDepth_spec absSrc absDst run with ⟨-, rfl, -⟩ | ⟨copied, -, listed⟩
  · cases member
  · obtain ⟨rest, reached, source, target⟩ := (listed pair).mp member
    have apart := apart_append copied.outside copied.inside rest []
    rw [List.append_nil] at apart
    have shown : d.view (elements src ++ rest) = some pair.1.untimed := by
      rw [← copied.kept _ apart]
      exact view_eq_some.mpr ⟨pair.1, source, rfl⟩
    obtain ⟨x, found, same⟩ := view_eq_some.mp shown
    have made := copied.made rest
    rw [Directory.covered, if_pos reached, found] at made
    obtain ⟨y, atTarget, copy⟩ := rel_some made
    rw [Directory.view, target] at atTarget
    obtain rfl := Option.some.inj atTarget
    have kind : pair.2.fileKind = pair.1.fileKind := by
      rw [← untimed_fileKind pair.1, ← same, untimed_fileKind, ← copy.kind, untimed_fileKind]
    rw [← kind]
    exact holds_of_find target

/-! ## Mapped Files -/

/-- A path maps the File. -/
def Maps (d : Directory) (fileID : Nat) : Prop :=
  ∃ q e, d.view q = some e ∧ e.refData = some fileID

/-- The Files that may have become mapped, and those that may have ceased to be. -/
structure Remaps (d d' : Directory) (gained lost : List Nat) : Prop where
  gained : ∀ fileID, d'.Maps fileID → d.Maps fileID ∨ fileID ∈ gained
  lost : ∀ fileID, d.Maps fileID → d'.Maps fileID ∨ fileID ∈ lost

lemma Remaps.of_view (same : ∀ q, d'.view q = d.view q) : Remaps d d' [] [] := by
  have equal : d'.view = d.view := funext same
  refine ⟨fun fileID maps => .inl ?_, fun fileID maps => .inl ?_⟩
  · rwa [Maps, equal] at maps
  · rwa [Maps, equal]

lemma Remaps.refl (d : Directory) : Remaps d d [] [] := .of_view fun _ => rfl

lemma Remaps.trans {gained₁ gained₂ lost₁ lost₂ : List Nat} (left : Remaps d d₁ gained₁ lost₁)
    (right : Remaps d₁ d' gained₂ lost₂) : Remaps d d' (gained₁ ++ gained₂) (lost₁ ++ lost₂) where
  gained fileID maps := by
    rcases right.gained fileID maps with earlier | new
    · exact (left.gained fileID earlier).imp_right (List.mem_append_left _)
    · exact .inr (List.mem_append_right _ new)
  lost fileID maps := by
    rcases left.lost fileID maps with middle | gone
    · exact (right.lost fileID middle).imp_right (List.mem_append_right _)
    · exact .inr (List.mem_append_left _ gone)

/-- A File that is still mapped need not be listed as lost. -/
lemma Remaps.still_mapped {gained : List Nat} (remaps : Remaps d d' gained [fileID])
    (still : d'.Maps fileID) : Remaps d d' gained [] where
  gained := remaps.gained
  lost other maps := by
    rcases remaps.lost other maps with kept | same
    · exact .inl kept
    · rw [List.mem_singleton.mp same]
      exact .inl still

/-- The Files of a list of entries. -/
def filesOf (entries : List Entry) : List Nat := entries.filterMap Entry.refData

lemma mem_filesOf (listed : ∀ x, x ∈ removed ↔ ∃ q, gone q ∧ d.find q = some x) (cut : gone q)
    (shown : d.view q = some e) (holds : e.refData = some fileID) : fileID ∈ filesOf removed := by
  obtain ⟨x, found, rfl⟩ := view_eq_some.mp shown
  exact List.mem_filterMap.mpr ⟨x, (listed x).mpr ⟨q, cut, found⟩, holds⟩

lemma Grown.remaps {gained : List Nat} (grown : Grown d d' target final)
    (content : ∀ e fileID, final e → e.refData = some fileID → fileID ∈ gained) :
    Remaps d d' gained [] where
  gained fileID maps := by
    obtain ⟨q, e, shown, holds⟩ := maps
    cases before : d.view q with
    | some x =>
      have kept := grown.kept q x before
      rw [shown] at kept
      exact .inl ⟨q, e, by rw [before, kept], holds⟩
    | none =>
      by_cases front : q <+: target
      · obtain ⟨y, shown', -, proper, last⟩ := grown.made q before front
        obtain rfl : e = y := Option.some.inj (shown.symm.trans shown')
        by_cases whole : q = target
        · exact .inr (content e fileID (last whole) holds)
        · rw [(proper whole).noRef] at holds
          cases holds
      · rw [grown.others q before front] at shown
        cases shown
  lost fileID maps := by
    obtain ⟨q, e, shown, holds⟩ := maps
    exact .inl ⟨q, e, grown.kept q e shown, holds⟩

lemma Valid.replace_remaps (valid : d.Valid) {refdata : Option Nat} (abs : isAbs p)
    (run : d.replace p size refdata now mtime = .ok (d', old)) :
    Remaps d d' refdata.toList old.refData.toList := by
  obtain ⟨-, found, -, view, -, -⟩ := valid.replace_spec abs run
  have before : d.view (elements p) = some old.untimed := view_eq_some.mpr ⟨old, found, rfl⟩
  have after : d'.view (elements p) =
      some { old.untimed with refData := refdata, fileSize := size } := by
    rw [view, if_pos rfl]
  refine ⟨fun fileID maps => ?_, fun fileID maps => ?_⟩
  · obtain ⟨q, e, shown, holds⟩ := maps
    by_cases here : q = elements p
    · rw [here, after] at shown
      obtain rfl := Option.some.inj shown
      exact .inr (Option.mem_toList.mpr holds)
    · rw [view, if_neg here] at shown
      exact .inl ⟨q, e, shown, holds⟩
  · obtain ⟨q, e, shown, holds⟩ := maps
    by_cases here : q = elements p
    · rw [here, before] at shown
      obtain rfl := Option.some.inj shown
      exact .inr (Option.mem_toList.mpr holds)
    · exact .inl ⟨q, e, by rw [view, if_neg here, shown], holds⟩

lemma Valid.touch_remaps (valid : d.Valid) (abs : isAbs p) (run : d.touch now p mtime = .ok d') :
    Remaps d d' [] [] := by
  obtain ⟨-, -, view, -, -⟩ := valid.touch_spec abs run
  exact .of_view view

/-- Paths outside a cut are shown as before, and the rows of the cut are listed. -/
lemma remaps_of_cut (kept : ∀ q, ¬gone q → d'.view q = d.view q)
    (listed : ∀ x, x ∈ removed ↔ ∃ q, gone q ∧ d.find q = some x)
    (origin : ∀ q e fileID, gone q → d'.view q = some e → e.refData = some fileID →
      d.Maps fileID) : Remaps d d' [] (filesOf removed) where
  gained fileID maps := by
    obtain ⟨q, e, shown, holds⟩ := maps
    by_cases cut : gone q
    · exact .inl (origin q e fileID cut shown holds)
    · exact .inl ⟨q, e, by rw [← kept q cut, shown], holds⟩
  lost fileID maps := by
    obtain ⟨q, e, shown, holds⟩ := maps
    by_cases cut : gone q
    · exact .inr (mem_filesOf listed cut shown holds)
    · exact .inl ⟨q, e, by rw [kept q cut, shown], holds⟩

lemma Valid.remove_remaps (valid : d.Valid) (abs : isAbs p)
    (run : d.remove now p = .ok (d', removed)) : Remaps d d' [] (filesOf removed) := by
  obtain ⟨d₁, pruned, same, -⟩ := valid.remove_pruned abs run
  refine remaps_of_cut (fun q outside => ?_) pruned.removed fun q e fileID cut shown _ => ?_
  · rw [same.view, Directory.view, pruned.kept q outside]
    rfl
  · rw [same.view, Directory.view, pruned.cut q cut] at shown
    cases shown

/-- A row below the target of a copy has an original below its source. -/
lemma CopiedOver.origin {source : List Text} (copied : CopiedOver d d' source target recursive)
    (inside : target <+: q) (shown : d'.view q = some e) :
    ∃ x, d.view (source ++ q.drop target.length) = some x ∧ IsCopy d.nextID x e := by
  obtain ⟨rest, rfl⟩ := inside
  rw [List.drop_left]
  have made := copied.made rest
  rw [shown] at made
  cases original : d.covered source recursive rest with
  | none =>
    rw [original] at made
    cases rel_none made
  | some x =>
    rw [original] at made
    obtain ⟨y, same, copy⟩ := rel_some made
    obtain rfl := Option.some.inj same
    rw [covered] at original
    split_ifs at original
    exact ⟨x.untimed, view_eq_some.mpr ⟨x, original, rfl⟩,
      copy.kind, copy.refData, copy.fileSize, copy.fileMode, copy.fresh⟩

lemma Valid.copyDepth_remaps (valid : d.Valid) (absSrc : isAbs src) (absDst : isAbs dst)
    (run : d.copyDepth now src dst overwrite recursive = .ok (d', pairs, overwritten)) :
    Remaps d d' [] (filesOf overwritten) := by
  rcases valid.copyDepth_spec absSrc absDst run with ⟨rfl, -, rfl, -⟩ | ⟨copied, listed, -⟩
  · exact .refl _
  · refine remaps_of_cut copied.kept listed fun q e fileID cut shown holds => ?_
    obtain ⟨x, original, copy⟩ := copied.origin cut shown
    exact ⟨_, x, original, by rw [← copy.refData, holds]⟩

lemma Valid.move_remaps (valid : d.Valid) (absSrc : isAbs src) (absDst : isAbs dst)
    (run : d.move now src dst overwrite = .ok (d', overwritten)) :
    Remaps d d' [] (filesOf overwritten) := by
  rcases valid.move_spec absSrc absDst run with ⟨rfl, rfl, -⟩ | ⟨moved, listed⟩
  · exact .refl _
  · obtain ⟨parentID, n, shift⟩ := moved.moved
    have sameRef : ∀ (rest : List Text) (e : Entry),
        (if rest = [] then placed parentID n e else e).refData = e.refData := fun rest e => by
      split_ifs <;> rfl
    refine ⟨fun fileID maps => .inl ?_, fun fileID maps => ?_⟩
    · obtain ⟨q, e, shown, holds⟩ := maps
      by_cases arrived : elements dst <+: q
      · obtain ⟨rest, rfl⟩ := arrived
        rw [shift] at shown
        obtain ⟨x, before, rfl⟩ := Option.map_eq_some_iff.mp shown
        exact ⟨_, x, before, by rw [← holds, sameRef]⟩
      · by_cases left : elements src <+: q
        · rw [moved.cut q left] at shown
          cases shown
        · exact ⟨q, e, by rw [← moved.kept q left arrived, shown], holds⟩
    · obtain ⟨q, e, shown, holds⟩ := maps
      by_cases arrived : elements dst <+: q
      · exact .inr (mem_filesOf listed arrived shown holds)
      · by_cases left : elements src <+: q
        · obtain ⟨rest, rfl⟩ := left
          refine .inl ⟨elements dst ++ rest, _, by rw [shift, shown]; rfl, ?_⟩
          rw [← holds]
          exact sameRef rest e
        · exact .inl ⟨q, e, by rw [moved.kept q left arrived, shown], holds⟩

/-! ## Directories hold no File -/

/-- Files map a File, directories none. -/
def Shaped (d : Directory) : Prop :=
  ∀ q e, d.view q = some e → (e.fileKind = .dir ↔ e.refData = none)

lemma view_empty (q : List Text) : empty.view q = none := by
  have root : empty.find [] = none := rfl
  have missing : empty.find q = none := Tree.Schema.find_none_append root q
  rw [view, missing]
  rfl

lemma shaped_empty : Shaped empty := fun q e shown => by
  rw [view_empty] at shown
  cases shown

lemma Shaped.of_view (shaped : d.Shaped) (same : ∀ q, d'.view q = d.view q) : d'.Shaped :=
  fun q e shown => shaped q e (by rw [← same, shown])

lemma PlainDir.shape (plain : PlainDir e) : e.fileKind = .dir ↔ e.refData = none :=
  ⟨fun _ => plain.noRef, fun _ => plain.kind⟩

section
variable (shaped : d.Shaped)
include shaped

lemma Shaped.grown (grown : Grown d d' target final)
    (last : ∀ e, final e → (e.fileKind = .dir ↔ e.refData = none)) : d'.Shaped := by
  intro q e shown
  cases before : d.view q with
  | some x =>
    obtain rfl : x = e := Option.some.inj ((grown.kept q x before).symm.trans shown)
    exact shaped q x before
  | none =>
    by_cases front : q <+: target
    · obtain ⟨y, made, -, proper, whole⟩ := grown.made q before front
      obtain rfl : y = e := Option.some.inj (made.symm.trans shown)
      by_cases all : q = target
      · exact last y (whole all)
      · exact (proper all).shape
    · rw [grown.others q before front] at shown
      cases shown

section
variable (valid : d.Valid) (abs : isAbs p)
include valid abs

lemma Shaped.create (notRoot : elements p ≠ [])
    (run : d.create now p size (some fileID) = .ok (d', e)) : d'.Shaped := by
  obtain ⟨grown, -, kind, ref, -⟩ := valid.create_grown abs notRoot run
  refine shaped.grown grown fun x same => ?_
  rw [same, untimed_fileKind, untimed_refData, kind, ref]
  simp

lemma Shaped.mkdir
    (notRoot : elements p ≠ []) (run : d.mkdir now p = .ok (d', e)) : d'.Shaped := by
  obtain ⟨grown, -, plain, -⟩ := valid.mkdir_grown abs notRoot run
  refine shaped.grown grown fun x same => ?_
  rw [same, untimed_fileKind, untimed_refData]
  exact plain.shape

lemma Shaped.dbMkdir (run : d.dbMkdir now p = .ok d') : d'.Shaped :=
  shaped.grown (valid.dbMkdir_grown abs run) fun _ plain => plain.shape

lemma Shaped.replace
    (run : d.replace p size (some fileID) now mtime = .ok (d', old)) : d'.Shaped := by
  obtain ⟨-, -, kind, view, -, -⟩ := valid.replace_spec abs run
  intro q e shown
  rw [view] at shown
  split_ifs at shown
  · obtain rfl := Option.some.inj shown
    simp [kind]
  · exact shaped q e shown

lemma Shaped.touch (run : d.touch now p mtime = .ok d') : d'.Shaped := by
  obtain ⟨-, -, view, -, -⟩ := valid.touch_spec abs run
  exact shaped.of_view view

lemma Shaped.remove (run : d.remove now p = .ok (d', removed)) : d'.Shaped := by
  obtain ⟨d₁, pruned, same, -⟩ := valid.remove_pruned abs run
  intro q e shown
  rw [same.view] at shown
  obtain ⟨x, found, rfl⟩ := view_eq_some.mp shown
  exact shaped q _ (view_eq_some.mpr ⟨x, (pruned.find_some.mp found).1, rfl⟩)

end

lemma Shaped.copyDepth (valid : d.Valid) (absSrc : isAbs src) (absDst : isAbs dst)
    (run : d.copyDepth now src dst overwrite recursive = .ok (d', pairs, overwritten)) :
    d'.Shaped := by
  rcases valid.copyDepth_spec absSrc absDst run with ⟨rfl, -, -, -⟩ | ⟨copied, -, -⟩
  · exact shaped
  · intro q e shown
    by_cases inside : elements dst <+: q
    · obtain ⟨x, original, copy⟩ := copied.origin inside shown
      rw [copy.kind, copy.refData]
      exact shaped _ _ original
    · exact shaped q e (by rw [← copied.kept q inside, shown])

lemma Shaped.move (valid : d.Valid) (absSrc : isAbs src) (absDst : isAbs dst)
    (run : d.move now src dst overwrite = .ok (d', overwritten)) : d'.Shaped := by
  rcases valid.move_spec absSrc absDst run with ⟨rfl, -, -⟩ | ⟨moved, -⟩
  · exact shaped
  · obtain ⟨parentID, n, shift⟩ := moved.moved
    intro q e shown
    by_cases arrived : elements dst <+: q
    · obtain ⟨rest, rfl⟩ := arrived
      rw [shift] at shown
      obtain ⟨x, before, rfl⟩ := Option.map_eq_some_iff.mp shown
      split_ifs <;> exact shaped _ x before
    · by_cases left : elements src <+: q
      · rw [moved.cut q left] at shown
        cases shown
      · exact shaped q e (by rw [← moved.kept q left arrived, shown])

/-! ## Updates of single columns -/

end

section Update

variable {f : Entry → Entry} {entryID : Nat}

lemma Valid.updateEntry_keeps (valid : d.Valid) (inPlace : InPlace f) :
    Keeps d (d.updateEntry entryID f) [] where
  valid := valid.updateEntry inPlace
  kept q e shown _ := by
    obtain ⟨x, found, rfl⟩ := view_eq_some.mp shown
    refine ⟨_, view_eq_some.mpr ⟨_, by rw [find_updateEntry inPlace, found]; rfl, rfl⟩, ?_, ?_⟩
    · exact (inPlace.guarded entryID).id x
    · exact (inPlace.guarded entryID).kind x

lemma updateEntry_remaps (inPlace : InPlace f) (sameRef : ∀ e, (f e).refData = e.refData) :
    Remaps d (d.updateEntry entryID f) [] [] := by
  have same : ∀ e : Entry, (if e.entryID = entryID then f e else e).refData = e.refData :=
    fun e => by split_ifs <;> simp [sameRef]
  refine ⟨fun fileID maps => .inl ?_, fun fileID maps => .inl ?_⟩
  · obtain ⟨q, e, shown, holds⟩ := maps
    obtain ⟨y, found, rfl⟩ := view_eq_some.mp shown
    rw [find_updateEntry inPlace] at found
    obtain ⟨x, before, rfl⟩ := Option.map_eq_some_iff.mp found
    exact ⟨q, x.untimed, view_eq_some.mpr ⟨x, before, rfl⟩, by rw [← holds]; exact (same x).symm⟩
  · obtain ⟨q, e, shown, holds⟩ := maps
    obtain ⟨x, found, rfl⟩ := view_eq_some.mp shown
    refine ⟨q, _, view_eq_some.mpr ⟨_, by rw [find_updateEntry inPlace, found]; rfl, rfl⟩, ?_⟩
    rw [← holds]
    exact same x

lemma Shaped.updateEntry (shaped : d.Shaped) (inPlace : InPlace f)
    (sameRef : ∀ e, (f e).refData = e.refData) : (d.updateEntry entryID f).Shaped := by
  intro q e shown
  obtain ⟨y, found, rfl⟩ := view_eq_some.mp shown
  rw [find_updateEntry inPlace] at found
  obtain ⟨x, before, rfl⟩ := Option.map_eq_some_iff.mp found
  have shape := shaped q x.untimed (view_eq_some.mpr ⟨x, before, rfl⟩)
  rw [untimed_fileKind, untimed_refData] at shape ⊢
  split_ifs
  · rw [inPlace.kind, sameRef]
    exact shape
  · exact shape

end Update

end TgFile.Directory
