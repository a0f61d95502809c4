import TgFile.Directory.Copy

/-! # Moving subtrees

A move records the source subtree as deleted, clears the destination, gives the source row a new
place and records the subtree there as created. -/

namespace TgFile.Directory

open Go Go.Path Result
open Tree.Schema

variable {d d' d₁ : Directory} {cs : List Text} {now : Int}

/-! ## Recording a subtree -/

/-- The state after the paths `at` were recorded with one kind, and nothing else happened. -/
structure Logged (d d' : Directory) (kind : ChangeKind) (recorded : List Text → Prop) : Prop where
  valid : d'.Valid
  entries : d'.entries = d.entries
  nextID : d'.nextID = d.nextID
  live : ∀ q, q ∈ d'.live ↔
    if kind = .deleted then q ∈ d.live ∧ ¬recorded q else q ∈ d.live ∨ recorded q

namespace Logged

variable {kind : ChangeKind} {first second : List Text → Prop}

lemma refl (valid : d.Valid) : Logged d d kind fun _ => False where
  valid := valid
  entries := rfl
  nextID := rfl
  live q := by split_ifs <;> simp

lemma trans (left : Logged d d₁ kind first) (right : Logged d₁ d' kind second) :
    Logged d d' kind fun q => first q ∨ second q where
  valid := right.valid
  entries := right.entries.trans left.entries
  nextID := right.nextID.trans left.nextID
  live q := by
    have before := left.live q
    rw [right.live q]
    split_ifs at before ⊢ <;> tauto

variable (logged : Logged d d' kind first)
include logged

lemma congr (same : ∀ q, first q ↔ second q) : Logged d d' kind second where
  valid := logged.valid
  entries := logged.entries
  nextID := logged.nextID
  live q := by rw [← same]; exact logged.live q

lemma find (q : List Text) : d'.find q = d.find q := by
  rw [Directory.find, Directory.find, logged.entries]

lemma view (q : List Text) : d'.view q = d.view q := by
  rw [Directory.view, Directory.view, logged.find]

lemma paths : d'.paths = d.paths := by
  ext q
  rw [Directory.paths, Directory.paths, Set.mem_ofPred_eq, Set.mem_ofPred_eq, logged.find]

lemma deep {depth : Nat} {cs : List Text} (enough : d.Deep depth cs) : d'.Deep depth cs := by
  intro rest x found
  rw [logged.find] at found
  exact enough rest x found

end Logged

lemma Valid.recordChange_logged (valid : d.Valid) (now : Int) (names : Names cs)
    (kind : ChangeKind) : Logged d (d.recordChange now (render cs) kind) kind (· = cs) where
  valid := valid.recordChange now (isAbs_render cs) kind
  entries := rfl
  nextID := rfl
  live q := by
    rw [live_recordChange now (isAbs_render cs), elements_render names]
    split_ifs
    · rw [Set.mem_sdiff, Set.mem_singleton_iff]
    · rw [Set.mem_insert_iff, or_comm]

/-- The loop over the children of a recorded directory, given the recursive call. -/
lemma walkChildren_logged {kind : ChangeKind} {depth : Nat}
    (call : ∀ {d : Directory} {q : List Text} {e : Entry}, d.Valid → d.find q = some e →
      d.Deep depth q →
      Logged d (walkChanges now kind depth (render q) d e) kind fun r => q <+: r ∧ r ∈ d.paths)
    (names : Names cs) (children : List Entry) (valid : d.Valid)
    (present : ∀ c ∈ children, d.find (cs ++ [c.fileName]) = some c)
    (deep : ∀ c ∈ children, d.Deep depth (cs ++ [c.fileName])) :
    Logged d (children.foldl (fun d child =>
      walkChanges now kind depth (Path.join [render cs, child.fileName]) d child) d) kind
      fun q => BelowChild cs children q ∧ q ∈ d.paths := by
  induction children generalizing d with
  | nil => exact (Logged.refl valid).congr fun q => by simp [BelowChild]
  | cons c children ih =>
    have atChild := present c List.mem_cons_self
    have name : IsName c.fileName := valid.names_of_find atChild c.fileName (by simp)
    have first := call valid atChild (deep c List.mem_cons_self)
    have rest := ih first.valid
      (fun x member => (first.find _).trans (present x (List.mem_cons_of_mem _ member)))
      (fun x member => first.deep (deep x (List.mem_cons_of_mem _ member)))
    rw [List.foldl_cons, join_render names name]
    refine (first.trans rest).congr fun q => ?_
    rw [first.paths, ← or_and_right]
    simp only [BelowChild, List.mem_cons, exists_eq_or_imp]

/-- The walk records exactly the paths of the subtree. -/
lemma Valid.walkChanges_logged (now : Int) (kind : ChangeKind) (depth : Nat) {e : Entry}
    (valid : d.Valid) (found : d.find cs = some e) (deep : d.Deep depth cs) :
    Logged d (walkChanges now kind depth (render cs) d e) kind
      fun q => cs <+: q ∧ q ∈ d.paths := by
  induction depth generalizing d cs e with
  | zero => exact absurd (deep [] e (by rwa [List.append_nil])) (Nat.not_lt_zero _)
  | succ depth ih =>
    have names := valid.names_of_find found
    have here := valid.recordChange_logged now names kind
    have present : cs ∈ d.paths := Option.isSome_iff_exists.mpr ⟨e, found⟩
    have atSelf := (here.find cs).trans found
    simp only [walkChanges]
    generalize d.recordChange now (render cs) kind = d₁ at here atSelf ⊢
    split_ifs with dir
    · have loop := walkChildren_logged (fun v f dp => ih v f dp) names
        (d₁.txListAllDir e.entryID) here.valid (fun c child => here.valid.find_child atSelf child)
        (fun c _ => (here.deep deep).child c.fileName)
      refine (here.trans loop).congr fun q => ?_
      rw [here.paths]
      constructor
      · rintro (rfl | ⟨⟨c, -, front⟩, exists_⟩)
        · exact ⟨List.prefix_rfl, present⟩
        · exact ⟨(List.prefix_append _ _).trans front, exists_⟩
      · rintro ⟨⟨rest, rfl⟩, exists_⟩
        cases rest with
        | nil => exact .inl (List.append_nil _)
        | cons n rest =>
          obtain ⟨x, target⟩ := Option.isSome_iff_exists.mp exists_
          have longer : cs ++ n :: rest = cs ++ [n] ++ rest := by simp
          rw [longer] at target exists_ ⊢
          obtain ⟨c, below⟩ := find_front target
          obtain ⟨child, rfl⟩ :=
            here.valid.mem_children atSelf ((here.find _).trans below)
          exact .inr ⟨⟨c, child, List.prefix_append _ _⟩, exists_⟩
    · refine here.congr fun q => ⟨?_, ?_⟩
      · rintro rfl
        exact ⟨List.prefix_rfl, present⟩
      · rintro ⟨⟨rest, rfl⟩, exists_⟩
        by_contra other
        have proper : rest ≠ [] := fun empty => other (by rw [empty, List.append_nil])
        obtain ⟨x, target⟩ := Option.isSome_iff_exists.mp exists_
        exact dir (valid.isDir_above proper found target)

lemma Valid.recordTreeChanges_logged (valid : d.Valid) {p : Text} {kind : ChangeKind}
    (abs : isAbs p) (run : d.recordTreeChanges now p kind = .ok d') :
    (∃ e, d.find (elements p) = some e) ∧
      Logged d d' kind fun q => elements p <+: q ∧ q ∈ d.paths := by
  simp only [recordTreeChanges, bind_ok] at run
  obtain ⟨⟨found, parentID⟩, lookup, later⟩ := run
  obtain ⟨denoted, -⟩ := valid.txGetEntryInfo_ok abs lookup
  cases found with
  | none => cases later
  | some e =>
    obtain rfl := pure_ok.mp later
    rw [clean_eq_render abs]
    exact ⟨⟨e, denoted.symm⟩, valid.walkChanges_logged now kind d.depth denoted.symm (valid.deep _)⟩

/-! ## The new place -/

/-- The row after it was given a new place. -/
def placed (parentID : Nat) (name : Text) (e : Entry) : Entry :=
  { e with parentEntryID := parentID, fileName := name }

/-- What a successful `txChangeParent` leaves behind. -/
structure Relocated (d d' : Directory) (source target : List Text) (parentID : Nat) (n : Text) :
    Prop where
  valid : d'.Valid
  moved : ∀ rest, d'.find (target ++ rest) =
    (d.find (source ++ rest)).map fun e => if rest = [] then placed parentID n e else e
  cut : ∀ q, source <+: q → d'.find q = none
  kept : ∀ q, ¬source <+: q → ¬target <+: q → d'.find q = d.find q
  changes : d'.changes = d.changes
  nextID : d'.nextID = d.nextID

lemma Valid.txChangeParent_relocated (valid : d.Valid) {source parentPath : List Text}
    {src parent : Entry} {n : Text} (atSource : d.find source = some src)
    (atParent : d.find parentPath = some parent) (dir : parent.fileKind = .dir) (name : IsName n)
    (free : d.find (parentPath ++ [n]) = none) (outside : ¬source <+: parentPath ++ [n])
    (run : d.txChangeParent src.entryID parent.entryID n = .ok d') :
    Relocated d d' source (parentPath ++ [n]) parent.entryID n := by
  simp only [txChangeParent, bind_ok, require_ok, pure_ok] at run
  obtain ⟨-, -, -, -, rfl⟩ := run
  have inside : ¬parentPath ++ [n] <+: source := by
    rintro ⟨rest, rfl⟩
    have gone : d.find (parentPath ++ [n] ++ rest) = none := find_none_append free rest
    rw [gone] at atSource
    cases atSource
  have notFront : ¬source <+: parentPath := fun front =>
    outside (front.trans (List.prefix_append _ _))
  let moved : Entry := placed parent.entryID n src
  have entries_eq : (d.updateEntry src.entryID fun e =>
      { e with parentEntryID := parent.entryID, fileName := n }).entries =
      Entry.schema.replaceRow d.entries moved := by
    refine List.map_congr_left fun e member => ?_
    by_cases same : e.entryID = src.entryID
    · obtain rfl := valid.tree.eq_of_id member (find_mem atSource) same
      exact (if_pos rfl).trans (if_pos rfl).symm
    · exact (if_neg same).trans (if_neg same).symm
  have tree : Entry.schema.WellFormed (Entry.schema.replaceRow d.entries moved) :=
    valid.tree.replaceRow atSource rfl rfl atParent ((isDir_iff parent).mpr dir) rfl free notFront
  have sameID : Entry.schema.id moved = Entry.schema.id src := rfl
  have find_eq := valid.tree.find_replaceRow atSource sameID atParent rfl free notFront
  have moved_name : Entry.schema.name moved = n := rfl
  rw [moved_name] at find_eq
  generalize state : d.updateEntry src.entryID _ = d₂ at entries_eq ⊢
  have find₂ : ∀ q, d₂.find q = if parentPath ++ [n] <+: q then
      (d.find (source ++ q.drop (parentPath.length + 1))).map
        (fun s => if s.entryID = moved.entryID then moved else s)
      else if source <+: q then none else d.find q := by
    intro q
    rw [Directory.find, entries_eq]
    exact find_eq q
  have nextID₂ : d₂.nextID = d.nextID := by rw [← state]; rfl
  have changes₂ : d₂.changes = d.changes := by rw [← state]; rfl
  refine ⟨⟨entries_eq ▸ tree, ?_, ?_, nextID₂ ▸ valid.positive, changes₂ ▸ valid.log⟩, ?_, ?_, ?_,
    changes₂, nextID₂⟩
  · intro e member notRoot
    rw [entries_eq] at member
    rcases (Tree.Schema.mem_replaceRow (find_mem atSource) sameID).mp member with rfl | ⟨old, -⟩
    · exact name
    · exact valid.names e old notRoot
  · intro e member
    rw [entries_eq] at member
    rw [nextID₂]
    rcases (Tree.Schema.mem_replaceRow (find_mem atSource) sameID).mp member with rfl | ⟨old, -⟩
    · exact valid.fresh src (find_mem atSource)
    · exact valid.fresh e old
  · intro rest
    have dropped : (parentPath ++ [n] ++ rest).drop (parentPath.length + 1) = rest := by
      rw [List.drop_append_of_le_length (by simp)]
      simp
    rw [find₂, if_pos (List.prefix_append _ _), dropped]
    cases target : d.find (source ++ rest) with
    | none => rfl
    | some x =>
      rw [Option.map_some, Option.map_some]
      by_cases empty : rest = []
      · rw [empty, List.append_nil] at target
        obtain rfl : x = src := Option.some.inj (target.symm.trans atSource)
        rw [if_pos empty]
        exact congrArg some (if_pos rfl)
      · have other : x.entryID ≠ moved.entryID := by
          intro same
          have samePath := valid.tree.path_unique_of_id target atSource same
          exact empty (by simpa using samePath)
        rw [if_neg empty, if_neg other]
  · intro q front
    have apart : ¬parentPath ++ [n] <+: q := by
      obtain ⟨rest, rfl⟩ := front
      have separate := apart_append outside inside rest []
      rwa [List.append_nil] at separate
    rw [find₂, if_neg apart, if_pos front]
  · intro q notSource notTarget
    rw [find₂, if_neg notTarget, if_neg notSource]

/-! ## The moving operation -/

/-- The state after `source` was moved to `target`. -/
structure Moved (d d' : Directory) (source target : List Text) : Prop where
  valid : d'.Valid
  outside : ¬source <+: target
  inside : ¬target <+: source
  present : source ∈ d.paths
  parent : target.dropLast ∈ d.paths
  moved : ∃ parentID n, ∀ rest, d'.view (target ++ rest) =
    (d.view (source ++ rest)).map fun e => if rest = [] then placed parentID n e else e
  cut : ∀ q, source <+: q → d'.view q = none
  kept : ∀ q, ¬source <+: q → ¬target <+: q → d'.view q = d.view q
  rows : ∀ q, ¬source <+: q → ¬target <+: q → q ≠ source.dropLast → q ≠ target.dropLast →
    d'.find q = d.find q
  live : ∀ q, q ∈ d'.live ↔
    (q ∈ d.live ∧ ¬(source <+: q ∧ q ∈ d.paths) ∧ ¬(target <+: q ∧ q ∈ d.paths)) ∨
      (target <+: q ∧ q ∈ d'.paths)
  nextID : d'.nextID = d.nextID

/-- The part of a move between its two journal passes. -/
lemma Valid.txDoMove_relocated (valid : d.Valid) {src dst : Text} {overwrite : Bool}
    (absSrc : isAbs src) (absDst : isAbs dst) (next : precheckMoveCopy src dst = .ok true)
    (run : d.txDoMove now src dst overwrite = .ok d') :
    ∃ d₁ removed parent n, Pruned d d₁ (elements dst <+: ·) removed ∧
      d.find (elements dst).dropLast = some parent ∧
      Relocated d₁ d' (elements src) (elements dst) parent.entryID n := by
  have ⟨outside, inside⟩ : ¬elements src <+: elements dst ∧ ¬elements dst <+: elements src := by
    simpa using precheckMoveCopy_ok absSrc absDst next
  obtain ⟨parentPath, n, split⟩ := (List.eq_nil_or_concat' (elements dst)).resolve_left
    fun empty => inside (empty ▸ List.nil_prefix)
  have name : IsName n := names_elements absDst n (by rw [split]; simp)
  simp only [txDoMove, next, bind_ok, Except.ok.injEq, exists_eq_left', if_true,
    splitFilename_concat absDst split, require_ok] at run
  obtain ⟨⟨sinfo, _⟩, sourceRun, ⟨dinfo, parentID⟩, lookup, -, -, d₁, cleared, changed⟩ := run
  have atSource := valid.requireEntry_ok absSrc sourceRun
  obtain ⟨denoted, parentOf⟩ := valid.txGetEntryInfo_ok absDst lookup
  obtain ⟨parent, atParent, dir, rfl⟩ := parentOf parentPath n split
  obtain ⟨removed, pruned⟩ := valid.clearDestination_pruned absDst denoted cleared
  have notBelowParent : ¬elements dst <+: parentPath := by
    intro front
    exact absurd front.length_le (by simp [split])
  have atSource₁ : d₁.find (elements src) = some sinfo := by rw [pruned.kept _ inside, atSource]
  have atParent₁ : d₁.find parentPath = some parent := by
    rw [pruned.kept _ notBelowParent, atParent]
  have free : d₁.find (parentPath ++ [n]) = none := pruned.cut _ (split ▸ List.prefix_rfl)
  refine ⟨d₁, removed, parent, n, pruned, ?_, ?_⟩
  · rw [split, List.dropLast_concat, atParent]
  · rw [split] at outside ⊢
    exact pruned.valid.txChangeParent_relocated atSource₁ atParent₁ dir name free outside changed

/-- **`Move`**: the destination subtree is the source subtree, the source is gone, and the
returned overwritten rows are what the destination held. -/
lemma Valid.move_spec (valid : d.Valid) {src dst : Text} {overwrite : Bool}
    {overwritten : List Entry} (absSrc : isAbs src) (absDst : isAbs dst)
    (run : d.move now src dst overwrite = .ok (d', overwritten)) :
    (d' = d ∧ overwritten = [] ∧ elements src = elements dst) ∨
    (Moved d d' (elements src) (elements dst) ∧
      ∀ x, x ∈ overwritten ↔ ∃ q, elements dst <+: q ∧ d.find q = some x) := by
  simp only [move, bind_ok] at run
  obtain ⟨next, check, later⟩ := run
  cases next with
  | false =>
    obtain ⟨rfl, rfl⟩ := Prod.mk.inj (pure_ok.mp later)
    exact .inl ⟨rfl, rfl, by simpa using precheckMoveCopy_ok absSrc absDst check⟩
  | true =>
    obtain ⟨outside, inside⟩ : ¬elements src <+: elements dst ∧ ¬elements dst <+: elements src := by
      simpa using precheckMoveCopy_ok absSrc absDst check
    simp only [if_true, bind_ok, pure_ok] at later
    obtain ⟨dropped, dropRun, d₁, deletedRun, d₂, moveRun, d₃, createdRun, d₄, touchedSource, d₅,
      touchedTarget, result⟩ := later
    obtain ⟨rfl, rfl⟩ := Prod.mk.inj result
    obtain ⟨⟨src₀, atSource⟩, deleted⟩ := valid.recordTreeChanges_logged absSrc deletedRun
    obtain ⟨dm, removed, parent, n, pruned, atParent, relocated⟩ :=
      deleted.valid.txDoMove_relocated absSrc absDst check moveRun
    obtain ⟨-, created⟩ := relocated.valid.recordTreeChanges_logged absDst createdRun
    have same₁ := created.valid.touchParent touchedSource
    have same₂ := same₁.valid.touchParent touchedTarget
    have view₅ : ∀ q, d₅.view q = d₂.view q := fun q => by
      rw [same₂.view, same₁.view, created.view]
    have paths₅ : ∀ q, q ∈ d₅.paths ↔ q ∈ d₂.paths := fun q => by
      rw [mem_paths, mem_paths, view₅]
    have sourceApart : ∀ rest, ¬elements dst <+: elements src ++ rest := fun rest => by
      have separate := apart_append outside inside rest []
      rwa [List.append_nil] at separate
    have targetApart : ∀ rest, ¬elements src <+: elements dst ++ rest := fun rest => by
      have separate := apart_append inside outside rest []
      rwa [List.append_nil] at separate
    refine .inr ⟨⟨same₂.valid, outside, inside, Option.isSome_iff_exists.mpr ⟨src₀, atSource⟩,
      ?_, ⟨parent.entryID, n, ?_⟩, ?_, ?_, ?_, ?_, ?_⟩, valid.overwrittenBy_mem absDst dropRun⟩
    · rw [deleted.find] at atParent
      exact Option.isSome_iff_exists.mpr ⟨parent, atParent⟩
    · intro rest
      rw [view₅, view, relocated.moved, pruned.kept _ (sourceApart rest), deleted.find, view,
        Option.map_map, Option.map_map]
      refine congrArg (fun g => Option.map g (d.find (elements src ++ rest))) (funext fun e => ?_)
      simp only [Function.comp_apply]
      split_ifs <;> rfl
    · intro q front
      rw [view₅, view, relocated.cut q front]
      rfl
    · intro q notSource notTarget
      rw [view₅, view, relocated.kept q notSource notTarget, pruned.kept q notTarget, deleted.find,
        view]
    · intro q notSource notTarget otherSource otherTarget
      rw [same₁.valid.touchParent_find absDst touchedTarget otherTarget,
        created.valid.touchParent_find absSrc touchedSource otherSource, created.find,
        relocated.kept q notSource notTarget, pruned.kept q notTarget, deleted.find]
    · intro q
      have live₂ : d₂.live = dm.live := live_of_changes relocated.changes
      have first := deleted.live q
      have last := created.live q
      rw [if_pos rfl] at first
      rw [if_neg (by decide)] at last
      rw [same₂.live, same₁.live, last, live₂, pruned.live, first, deleted.paths, paths₅, and_assoc]
    · rw [same₂.nextID, same₁.nextID, created.nextID, relocated.nextID, pruned.nextID,
        deleted.nextID]

end TgFile.Directory
