import TgFile.Directory.Remove
import Mathlib.Data.Option.Basic

/-! # Updating and copying entries

`Replace` and `Touch` update one row in place.  A copy clears its destination and rebuilds the
source subtree under fresh ids; `Copied` relates the new subtree to the old one path by path. -/

namespace TgFile.Directory

open Go Go.Path Result
open Tree.Schema

variable {d d' d₁ : Directory} {now : Int} {dst p src : Text} {target : List Text}
  {overwrite recursive : Bool} {pairs : List (Entry × Entry)} {x : Entry} {bound : Nat}

/-! ## Updates in place -/

/-- **`Replace`** swaps the content of one file row and records it. -/
lemma Valid.replace_spec (valid : d.Valid) {size mtime : Int} {refdata : Option Nat} {old : Entry}
    (abs : isAbs p) (run : d.replace p size refdata now mtime = .ok (d', old)) :
    d'.Valid ∧ d.find (elements p) = some old ∧ old.fileKind = .file ∧
      (∀ q, d'.view q = if q = elements p then
        some { old.untimed with refData := refdata, fileSize := size } else d.view q) ∧
      d'.live = insert (elements p) d.live ∧ d'.nextID = d.nextID := by
  simp only [replace, bind_ok] at run
  obtain ⟨⟨found, parentID⟩, lookup, later⟩ := run
  obtain ⟨denoted, -⟩ := valid.txGetEntryInfo_ok abs lookup
  cases found with
  | none => cases later
  | some e =>
    simp only [bind_ok, require_ok, pure_ok] at later
    obtain ⟨-, isFile, d₂, touched, result⟩ := later
    obtain ⟨rfl, rfl⟩ := Prod.mk.inj result
    have updated : (d.updateEntry e.entryID _).Valid :=
      valid.updateEntry (inPlace_content refdata size mtime)
    have same := (updated.recordChange now abs .updated).touchParent touched
    refine ⟨same.valid, denoted.symm, isFile, fun q => ?_, ?_, same.nextID⟩
    · rw [same.view, view_recordChange, view,
        find_updateEntry (inPlace_content refdata size mtime), Option.map_map]
      split_ifs with here
      · rw [here, ← denoted]
        simp only [Option.map_some, Function.comp_apply, if_true]
        rfl
      · rw [view]
        cases target : d.find q with
        | none => rfl
        | some x =>
          have other : x.entryID ≠ e.entryID := fun sameID =>
            here (valid.tree.path_unique_of_id target denoted.symm sameID)
          simp only [Option.map_some, Function.comp_apply, other, if_false]
    · rw [same.live, live_recordChange_kept now abs (by decide)]
      rfl

/-- **`Touch`** shows the same tree and records the path. -/
lemma Valid.touch_spec (valid : d.Valid) {mtime : Int} (abs : isAbs p)
    (run : d.touch now p mtime = .ok d') :
    d'.Valid ∧ elements p ∈ d.paths ∧ (∀ q, d'.view q = d.view q) ∧
      d'.live = insert (elements p) d.live ∧ d'.nextID = d.nextID := by
  simp only [touch, bind_ok] at run
  obtain ⟨⟨found, parentID⟩, lookup, later⟩ := run
  obtain ⟨denoted, -⟩ := valid.txGetEntryInfo_ok abs lookup
  cases found with
  | none => cases later
  | some e =>
    obtain rfl := pure_ok.mp later
    refine ⟨(valid.touchEntryID _ _).recordChange now abs .updated,
      Option.isSome_iff_exists.mpr ⟨e, denoted.symm⟩, fun q => ?_, ?_, rfl⟩
    · rw [view_recordChange, view_touchEntryID]
    · rw [live_recordChange_kept now abs (by decide)]
      rfl

/-! ## Paths of a copy or move -/

lemma foldl_pushElement_filter (items : List Text) (noDots : ['.', '.'] ∉ items)
    (stack : List Text) : items.foldl (pushElement true) stack =
      (items.filter fun item => item ≠ [] ∧ item ≠ ['.']).reverse ++ stack := by
  induction items generalizing stack with
  | nil => rfl
  | cons item items ih =>
    obtain ⟨first, rest⟩ := not_or.mp (List.mem_cons.not.mp noDots)
    rw [List.foldl_cons, ih rest]
    by_cases skipped : item = [] ∨ item = ['.']
    · have dropped : ¬(item ≠ [] ∧ item ≠ ['.']) := fun ⟨h, h'⟩ => skipped.elim h h'
      have unchanged : pushElement true stack item = stack := by
        simp only [pushElement, skipped, ↓reduceIte]
      rw [List.filter_cons_of_neg (by simpa using dropped), unchanged]
    · obtain ⟨nonempty, notDot⟩ := not_or.mp skipped
      have notUp : item ≠ ['.', '.'] := fun same => first same.symm
      have pushed : pushElement true stack item = item :: stack := by
        simp only [pushElement, nonempty, notDot, notUp, or_self, ↓reduceIte]
      rw [List.filter_cons_of_pos (by simp [nonempty, notDot]), pushed, List.reverse_cons,
        List.append_assoc, List.singleton_append]

/-- Without dot-dot items the component list of the code is the list of elements. -/
lemma rebuildDirItems_ok {items : List Text} (abs : isAbs p) (run : rebuildDirItems p = .ok items) :
    items = ['/'] :: elements p := by
  simp only [rebuildDirItems] at run
  split_ifs at run with dots
  cases run
  have noDots : ['.', '.'] ∉ p.splitOn '/' := fun member =>
    dots (List.mem_filter.mpr ⟨member, by decide⟩)
  rw [elements, abs, foldl_pushElement_filter _ noDots, List.append_nil, List.reverse_reverse]

/-- A copy or move goes on only between paths that are not inside one another. -/
lemma precheckMoveCopy_ok {next : Bool} (absSrc : isAbs src) (absDst : isAbs dst)
    (run : precheckMoveCopy src dst = .ok next) :
    if next then ¬elements src <+: elements dst ∧ ¬elements dst <+: elements src
    else elements src = elements dst := by
  simp only [precheckMoveCopy, bind_ok] at run
  obtain ⟨s, source, t, destination, later⟩ := run
  obtain rfl := rebuildDirItems_ok absSrc source
  obtain rfl := rebuildDirItems_ok absDst destination
  split_ifs at later with same inside outside
  · obtain rfl := pure_ok.mp later
    simpa using same
  · obtain rfl := pure_ok.mp later
    rw [List.cons_prefix_cons] at inside outside
    exact ⟨fun front => inside ⟨rfl, front⟩, fun front => outside ⟨rfl, front⟩⟩

/-! ## Copied subtrees -/

/-- A fresh row with the content of another row. -/
structure IsCopy (bound : Nat) (original copied : Entry) : Prop where
  kind : copied.fileKind = original.fileKind
  refData : copied.refData = original.refData
  fileSize : copied.fileSize = original.fileSize
  fileMode : copied.fileMode = original.fileMode
  fresh : bound ≤ copied.entryID

lemma IsCopy.mono {low high : Nat} {y : Entry} (copy : IsCopy high x y) (le : low ≤ high) :
    IsCopy low x y :=
  { copy with fresh := le.trans copy.fresh }

/-- What a copy takes over at a path below its source. -/
def covered (d : Directory) (source : List Text) (recursive : Bool) (rest : List Text) :
    Option Entry :=
  if rest = [] ∨ recursive = true then d.find (source ++ rest) else none

/-- The state after the source was copied to the free path `target`. -/
structure Copied (d d' : Directory) (source target : List Text) (recursive : Bool) : Prop where
  valid : d'.Valid
  kept : ∀ q, ¬target <+: q → d'.find q = d.find q
  made : ∀ rest, Option.Rel (IsCopy d.nextID) (d.covered source recursive rest)
    (d'.find (target ++ rest))
  live : ∀ q, q ∈ d'.live ↔ q ∈ d.live ∨ (target <+: q ∧ q ∈ d'.paths)
  nextID : d.nextID ≤ d'.nextID

lemma rel_some {result : Option Entry} (rel : Option.Rel (IsCopy bound) (some x) result) :
    ∃ y, result = some y ∧ IsCopy bound x y := by
  cases rel with
  | some copy => exact ⟨_, rfl, copy⟩

lemma rel_none {result : Option Entry} (rel : Option.Rel (IsCopy bound) none result) :
    result = none := by
  cases rel
  rfl

lemma rel_mono {low high : Nat} {x y : Option Entry} (le : low ≤ high)
    (rel : Option.Rel (IsCopy high) x y) : Option.Rel (IsCopy low) x y := by
  cases rel with
  | some copy => exact .some (copy.mono le)
  | none => exact .none

/-- Two paths of which neither is a front of the other stay apart when extended. -/
lemma apart_append {source : List Text} (outside : ¬source <+: target)
    (inside : ¬target <+: source) (rest more : List Text) : ¬target ++ more <+: source ++ rest := by
  intro front
  have shorter : target <+: source ++ rest := (List.prefix_append target more).trans front
  rcases List.prefix_or_prefix_of_prefix shorter (List.prefix_append source rest) with h | h
  · exact inside h
  · exact outside h

lemma not_prefix_sibling {m n : Text} (different : m ≠ n) (rest : List Text) :
    ¬target ++ [m] <+: target ++ [n] ++ rest := by
  intro front
  rw [List.append_assoc, List.prefix_append_right_inj, List.singleton_append,
    List.cons_prefix_cons] at front
  exact different front.1

/-- What the loop over the children of a copied directory has done. -/
structure CopiedChildren (d d' : Directory) (source target : List Text) (children : List Entry) :
    Prop where
  valid : d'.Valid
  kept : ∀ q, ¬BelowChild target children q → d'.find q = d.find q
  made : ∀ c ∈ children, ∀ rest, Option.Rel (IsCopy d.nextID)
    (d.find (source ++ [c.fileName] ++ rest)) (d'.find (target ++ [c.fileName] ++ rest))
  live : ∀ q, q ∈ d'.live ↔ q ∈ d.live ∨ (BelowChild target children q ∧ q ∈ d'.paths)
  nextID : d.nextID ≤ d'.nextID

/-- The recursive call of a copy below one directory. -/
def CopyCall (now : Int) (depth : Nat) : Prop :=
  ∀ {d d' : Directory} {source parentPath : List Text} {src parent : Entry} {n : Text}
    {recursive : Bool}, d.Valid → d.find source = some src → d.find parentPath = some parent →
    parent.fileKind = .dir → IsName n → d.find (parentPath ++ [n]) = none →
    ¬source <+: parentPath ++ [n] → ¬parentPath ++ [n] <+: source → d.Deep depth source →
    txDoIterAndCopy now depth d src parent.entryID (render (parentPath ++ [n])) n recursive =
      .ok d' →
    Copied d d' source (parentPath ++ [n]) recursive

lemma CopyCall.children {depth : Nat} (call : CopyCall now depth) {source : List Text}
    {row : Entry} (targetNames : Names target) (outside : ¬source <+: target)
    (inside : ¬target <+: source) (dir : row.fileKind = .dir) (children : List Entry)
    (distinct : (children.map Entry.fileName).Nodup) {d d' : Directory} (valid : d.Valid)
    (atTarget : d.find target = some row)
    (present : ∀ c ∈ children, d.find (source ++ [c.fileName]) = some c)
    (free : ∀ c ∈ children, d.find (target ++ [c.fileName]) = none)
    (deep : ∀ c ∈ children, d.Deep depth (source ++ [c.fileName]))
    (run : children.foldlM (fun d item => txDoIterAndCopy now depth d item row.entryID
      (Path.join [render target, item.fileName]) item.fileName true) d = .ok d') :
    CopiedChildren d d' source target children := by
  induction children generalizing d with
  | nil =>
    obtain rfl := pure_ok.mp run
    refine ⟨valid, fun _ _ => rfl, fun c member => (nomatch member), fun q => ?_, Nat.le_refl _⟩
    simp [BelowChild]
  | cons c children ih =>
    rw [List.foldlM_cons, bind_ok] at run
    obtain ⟨d₁, first, later⟩ := run
    have atChild := present c List.mem_cons_self
    have name : IsName c.fileName := valid.names_of_find atChild c.fileName (by simp)
    rw [join_render targetNames name] at first
    have childOutside : ¬source ++ [c.fileName] <+: target ++ [c.fileName] := fun front =>
      apart_append inside outside [c.fileName] [c.fileName] front
    have childInside : ¬target ++ [c.fileName] <+: source ++ [c.fileName] := fun front =>
      apart_append outside inside [c.fileName] [c.fileName] front
    have copied := call valid atChild atTarget dir name (free c List.mem_cons_self)
      childOutside childInside (deep c List.mem_cons_self) first
    obtain ⟨fresh, distinctRest⟩ := List.nodup_cons.mp distinct
    have different : ∀ x ∈ children, c.fileName ≠ x.fileName := fun x member same =>
      fresh (same ▸ List.mem_map_of_mem member)
    have sourceKept : ∀ rest, d₁.find (source ++ rest) = d.find (source ++ rest) := fun rest =>
      copied.kept _ (apart_append outside inside rest [c.fileName])
    have siblingKept : ∀ x ∈ children, ∀ rest, d₁.find (target ++ [x.fileName] ++ rest) =
        d.find (target ++ [x.fileName] ++ rest) := fun x member rest =>
      copied.kept _ (not_prefix_sibling (different x member) rest)
    have targetKept : d₁.find target = some row := by
      rw [copied.kept, atTarget]
      intro front
      have shorter := front.length_le
      rw [List.length_append, List.length_singleton] at shorter
      omega
    have rest := ih distinctRest copied.valid targetKept
      (fun x member => (sourceKept _).trans (present x (List.mem_cons_of_mem _ member)))
      (fun x member => by
        have same := siblingKept x member []
        rw [List.append_nil] at same
        exact same.trans (free x (List.mem_cons_of_mem _ member)))
      (fun x member more y found => deep x (List.mem_cons_of_mem _ member) more y (by
        rw [List.append_assoc, ← sourceKept, ← List.append_assoc]
        exact found)) later
    have below_cons : ∀ q, BelowChild target (c :: children) q ↔
        target ++ [c.fileName] <+: q ∨ BelowChild target children q := by
      intro q
      simp only [BelowChild, List.mem_cons, exists_eq_or_imp]
    have notLater : ∀ more, ¬BelowChild target children (target ++ [c.fileName] ++ more) := by
      rintro more ⟨x, member, front⟩
      exact not_prefix_sibling (different x member).symm more front
    refine ⟨rest.valid, ?_, ?_, ?_, copied.nextID.trans rest.nextID⟩
    · intro q neither
      rw [below_cons, not_or] at neither
      rw [rest.kept q neither.2, copied.kept q neither.1]
    · intro x member more
      rcases List.mem_cons.mp member with rfl | older
      · rw [rest.kept _ (notLater more)]
        have made := copied.made more
        rw [covered, if_pos (.inr rfl)] at made
        exact made
      · have made := rest.made x older more
        rw [List.append_assoc source, sourceKept, ← List.append_assoc] at made
        exact rel_mono copied.nextID made
    · intro q
      rw [rest.live, copied.live, below_cons]
      have stays : target ++ [c.fileName] <+: q → (q ∈ d₁.paths ↔ q ∈ d'.paths) := by
        rintro ⟨more, rfl⟩
        rw [paths, paths, Set.mem_ofPred_eq, Set.mem_ofPred_eq, rest.kept _ (notLater more)]
      tauto

/-- **The recursive copy rebuilds the source subtree at the free target.** -/
lemma copyCall (now : Int) (depth : Nat) : CopyCall now depth := by
  induction depth with
  | zero =>
    intro d d' source parentPath src parent n recursive _ atSource _ _ _ _ _ _ deep _
    exact absurd (deep [] src (by rwa [List.append_nil])) (Nat.not_lt_zero _)
  | succ depth ih =>
    intro d d' source parentPath src parent n recursive valid atSource atParent dir name free
      outside inside deep run
    have names : Names (parentPath ++ [n]) := (valid.names_of_find atParent).concat name
    simp only [txDoIterAndCopy, bind_ok] at run
    obtain ⟨⟨d₁, row⟩, created, later⟩ := run
    obtain ⟨-, made, -⟩ := txCreateEntry_ok created
    have inserted := valid.txCreateEntry atParent dir created name
    have rowName : row.fileName = n := by rw [made]
    have copy : IsCopy d.nextID src row :=
      ⟨by rw [made], by rw [made], by rw [made], by rw [made], inserted.id.ge⟩
    have find₁ : ∀ q, d₁.find q = if q = parentPath ++ [n] then some row else d.find q := by
      intro q
      rw [inserted.find, rowName]
    have valid₂ := inserted.valid.recordChange now (isAbs_render (parentPath ++ [n])) .created
    have live₂ : (d₁.recordChange now (render (parentPath ++ [n])) .created).live =
        insert (parentPath ++ [n]) d.live := by
      rw [live_recordChange_kept now (isAbs_render _) (by decide), elements_render names,
        live_of_changes inserted.changes]
    generalize recorded : d₁.recordChange now (render (parentPath ++ [n])) .created = d₂
      at later valid₂ live₂
    have find₂ : ∀ q, d₂.find q = if q = parentPath ++ [n] then some row else d.find q := by
      intro q
      rw [← recorded, find_recordChange, find₁]
    have nextID₂ : d.nextID ≤ d₂.nextID := by
      rw [← recorded, nextID_recordChange, inserted.nextID]
      exact Nat.le_succ _
    have atTarget : d₂.find (parentPath ++ [n]) = some row := by rw [find₂, if_pos rfl]
    have notTarget : ∀ rest, source ++ rest ≠ parentPath ++ [n] := fun rest same =>
      outside (same ▸ List.prefix_append source rest)
    have sourceKept : ∀ rest, d₂.find (source ++ rest) = d.find (source ++ rest) := by
      intro rest
      rw [find₂, if_neg (notTarget rest)]
    have belowFree : ∀ rest, rest ≠ [] → d₂.find (parentPath ++ [n] ++ rest) = none := by
      intro rest proper
      rw [find₂, if_neg (by simpa using proper)]
      exact find_none_append free rest
    by_cases stop : src.fileKind = .file ∨ recursive = false
    · rw [if_pos stop] at later
      obtain rfl := pure_ok.mp later
      refine ⟨valid₂, ?_, ?_, ?_, nextID₂⟩
      · intro q elsewhere
        have other : q ≠ parentPath ++ [n] := fun same => elsewhere (same ▸ List.prefix_rfl)
        rw [find₂, if_neg other]
      · intro rest
        by_cases proper : rest = []
        · rw [proper, covered, if_pos (.inl rfl), List.append_nil, List.append_nil, atSource,
            atTarget]
          exact .some copy
        · have nothing : d.covered source recursive rest = none := by
            rw [covered]
            split_ifs with both
            · have file := stop.resolve_right (by rw [both.resolve_left proper]; decide)
              cases below : d.find (source ++ rest) with
              | none => rfl
              | some x =>
                rw [valid.isDir_above proper atSource below] at file
                cases file
            · rfl
          rw [nothing, belowFree rest proper]
          exact .none
      · intro q
        rw [live₂, Set.mem_insert_iff, or_comm]
        refine or_congr_right ⟨fun same => ⟨same ▸ List.prefix_rfl, ?_⟩, ?_⟩
        · rw [same]
          exact Option.isSome_iff_exists.mpr ⟨row, atTarget⟩
        · rintro ⟨⟨rest, rfl⟩, present⟩
          by_contra other
          have proper : rest ≠ [] := fun empty => other (by rw [empty, List.append_nil])
          rw [paths, Set.mem_ofPred_eq, belowFree rest proper] at present
          cases present
    · obtain ⟨notFile, isRecursive⟩ := not_or.mp stop
      have srcDir : src.fileKind = .dir := by
        cases kind : src.fileKind with
        | dir => rfl
        | file => exact absurd kind notFile
      have recursiveTrue : recursive = true := by simpa using isRecursive
      rw [if_neg stop] at later
      have atSource₂ : d₂.find source = some src := by
        have same := sourceKept []
        rw [List.append_nil] at same
        rw [same, atSource]
      have deepChild : ∀ c : Entry, d₂.Deep depth (source ++ [c.fileName]) := by
        intro c rest x found
        rw [List.append_assoc, sourceKept, ← List.append_assoc] at found
        exact deep.child c.fileName rest x found
      have loop := ih.children names outside inside (by rw [copy.kind, srcDir])
        (d₂.txListAllDir src.entryID) (valid₂.children_names _) valid₂ atTarget
        (fun c child => valid₂.find_child atSource₂ child)
        (fun c _ => belowFree [c.fileName] (List.cons_ne_nil _ _)) (fun c _ => deepChild c) later
      have notBelow : ¬BelowChild (parentPath ++ [n]) (d₂.txListAllDir src.entryID)
          (parentPath ++ [n]) := by
        rintro ⟨c, -, front⟩
        exact absurd front.length_le (by simp)
      have unlisted : ∀ m rest, d₂.find (source ++ m :: rest) = none →
          d'.find (parentPath ++ [n] ++ m :: rest) = none := by
        intro m rest missing
        have split : ∀ base : List Text, base ++ m :: rest = base ++ [m] ++ rest := by simp
        by_cases listed : ∃ c ∈ d₂.txListAllDir src.entryID, c.fileName = m
        · obtain ⟨c, child, rfl⟩ := listed
          have rel := loop.made c child rest
          rw [← split, ← split, missing] at rel
          exact rel_none rel
        · rw [loop.kept]
          · exact belowFree _ (List.cons_ne_nil m rest)
          · rintro ⟨c, child, front⟩
            rw [List.prefix_append_right_inj, List.cons_prefix_cons] at front
            exact listed ⟨c, child, front.1⟩
      refine ⟨loop.valid, ?_, ?_, ?_, nextID₂.trans loop.nextID⟩
      · intro q elsewhere
        have other : q ≠ parentPath ++ [n] := fun same => elsewhere (same ▸ List.prefix_rfl)
        rw [loop.kept, find₂, if_neg other]
        rintro ⟨c, -, front⟩
        exact elsewhere ((List.prefix_append _ _).trans front)
      · intro rest
        rw [covered, if_pos (.inr recursiveTrue)]
        cases rest with
        | nil =>
          rw [List.append_nil, List.append_nil, loop.kept _ notBelow, atTarget, atSource]
          exact .some copy
        | cons m rest =>
          cases below : d.find (source ++ m :: rest) with
          | none =>
            rw [unlisted m rest ((sourceKept _).trans below)]
            exact .none
          | some x =>
            have split : ∀ base : List Text, base ++ m :: rest = base ++ [m] ++ rest := by
              simp
            have found₂ : d₂.find (source ++ [m] ++ rest) = some x := by
              rw [← split, sourceKept, below]
            obtain ⟨c, atChild⟩ := find_front found₂
            obtain ⟨child, rfl⟩ := valid₂.mem_children atSource₂ atChild
            have rel := loop.made c child rest
            rw [found₂, ← split] at rel
            exact rel_mono nextID₂ rel
      · intro q
        rw [loop.live, live₂, Set.mem_insert_iff]
        constructor
        · rintro ((same | old) | ⟨⟨c, -, front⟩, present⟩)
          · refine .inr ⟨same ▸ List.prefix_rfl, ?_⟩
            rw [same, paths, Set.mem_ofPred_eq, loop.kept _ notBelow, atTarget]
            rfl
          · exact .inl old
          · exact .inr ⟨(List.prefix_append _ _).trans front, present⟩
        · rintro (old | ⟨⟨rest, rfl⟩, present⟩)
          · exact .inl (.inr old)
          · cases rest with
            | nil => exact .inl (.inl (List.append_nil _))
            | cons m rest =>
              refine .inr ⟨?_, present⟩
              by_contra elsewhere
              rw [paths, Set.mem_ofPred_eq, loop.kept _ elsewhere,
                belowFree _ (List.cons_ne_nil m rest)] at present
              cases present

/-! ## The copying operation -/

lemma Valid.requireEntry_ok (valid : d.Valid) {missing : Err} {e : Entry} {parentID : Nat}
    (abs : isAbs p) (run : d.requireEntry p missing = .ok (e, parentID)) :
    d.find (elements p) = some e := by
  simp only [requireEntry, bind_ok] at run
  obtain ⟨⟨found, parent⟩, lookup, later⟩ := run
  obtain ⟨denoted, -⟩ := valid.txGetEntryInfo_ok abs lookup
  cases found with
  | none => cases later
  | some x =>
    obtain ⟨rfl, -⟩ := Prod.mk.inj (pure_ok.mp later)
    exact denoted.symm

/-- Clearing the destination prunes its subtree, if there is one. -/
lemma Valid.clearDestination_pruned (valid : d.Valid) {dinfo : Option Entry} (abs : isAbs dst)
    (denoted : dinfo = d.find (elements dst))
    (run : d.clearDestination now dst dinfo overwrite = .ok d') :
    ∃ removed, Pruned d d' (elements dst <+: ·) removed := by
  cases dinfo with
  | none =>
    cases run
    refine ⟨[], (Pruned.refl valid).congr fun q present => ⟨False.elim, fun front => ?_⟩⟩
    have absent : elements dst ∉ d.paths := by simp [paths, ← denoted]
    exact absent (front_mem_paths front present)
  | some e =>
    simp only [clearDestination, clean_eq_render abs] at run
    split_ifs at run
    cases run
    exact ⟨_, valid.collectAndRemove_pruned now d.depth denoted.symm (valid.deep _)⟩

lemma Valid.overwrittenBy_mem (valid : d.Valid) {overwritten : List Entry} (abs : isAbs dst)
    (run : d.overwrittenBy dst = .ok overwritten) (x : Entry) :
    x ∈ overwritten ↔ ∃ q, elements dst <+: q ∧ d.find q = some x := by
  have located := valid.txGetEntryInfo_located abs
  have nothing : d.find (elements dst) = none →
      (x ∈ ([] : List Entry) ↔ ∃ q, elements dst <+: q ∧ d.find q = some x) := by
    intro missing
    refine ⟨fun member => (nomatch member), ?_⟩
    rintro ⟨q, ⟨rest, rfl⟩, found⟩
    have gone : d.find (elements dst ++ rest) = none := find_none_append missing rest
    rw [gone] at found
    cases found
  unfold overwrittenBy at run
  split at run
  · rename_i lookup
    cases run
    rw [lookup] at located
    apply nothing
    generalize elements dst = es at located
    cases located with
    | missing none clear => exact find_none_append none _
  · cases run
  · rename_i lookup
    cases run
    exact nothing (valid.txGetEntryInfo_ok abs lookup).1.symm
  · rename_i entry parentID lookup
    cases run
    exact valid.mem_collectEntries (valid.txGetEntryInfo_ok abs lookup).1.symm

/-- The state after a copy onto `target`, whatever was there before. -/
structure CopiedOver (d d' : Directory) (source target : List Text) (recursive : Bool) :
    Prop where
  valid : d'.Valid
  outside : ¬source <+: target
  inside : ¬target <+: source
  present : source ∈ d.paths
  parent : target.dropLast ∈ d.paths
  kept : ∀ q, ¬target <+: q → d'.view q = d.view q
  rows : ∀ q, ¬target <+: q → q ≠ target.dropLast → d'.find q = d.find q
  made : ∀ rest, Option.Rel (IsCopy d.nextID) (d.covered source recursive rest)
    (d'.view (target ++ rest))
  live : ∀ q, q ∈ d'.live ↔
    (q ∈ d.live ∧ ¬(target <+: q ∧ q ∈ d.paths)) ∨ (target <+: q ∧ q ∈ d'.paths)
  nextID : d.nextID ≤ d'.nextID

lemma rel_untimed {x y : Option Entry} (rel : Option.Rel (IsCopy bound) x y) :
    Option.Rel (IsCopy bound) x (y.map Entry.untimed) := by
  cases rel with
  | some copy => exact .some ⟨copy.kind, copy.refData, copy.fileSize, copy.fileMode, copy.fresh⟩
  | none => exact .none

lemma Valid.txDoCopyDepth_copied (valid : d.Valid) (absSrc : isAbs src) (absDst : isAbs dst)
    (next : precheckMoveCopy src dst = .ok true)
    (run : d.txDoCopyDepth now src dst overwrite recursive = .ok d') :
    CopiedOver d d' (elements src) (elements dst) recursive := by
  have ⟨outside, inside⟩ : ¬elements src <+: elements dst ∧ ¬elements dst <+: elements src := by
    simpa using precheckMoveCopy_ok absSrc absDst next
  obtain ⟨parentPath, n, split⟩ := (List.eq_nil_or_concat' (elements dst)).resolve_left
    fun empty => inside (empty ▸ List.nil_prefix)
  have name : IsName n := names_elements absDst n (by rw [split]; simp)
  simp only [txDoCopyDepth, next, bind_ok, Except.ok.injEq, exists_eq_left', if_true,
    splitFilename_concat absDst split, require_ok] at run
  obtain ⟨⟨sinfo, parentOfSource⟩, sourceRun, -, -, ⟨dinfo, parentID⟩, lookup, d₁, cleared, d₂,
    copiedRun, touched⟩ := run
  have atSource := valid.requireEntry_ok absSrc sourceRun
  obtain ⟨denoted, parentOf⟩ := valid.txGetEntryInfo_ok absDst lookup
  obtain ⟨parent, atParent, dir, rfl⟩ := parentOf parentPath n split
  obtain ⟨removed, pruned⟩ := valid.clearDestination_pruned absDst denoted cleared
  have notBelowParent : ¬elements dst <+: parentPath := by
    intro front
    exact absurd front.length_le (by simp [split])
  have atSource₁ : d₁.find (elements src) = some sinfo := by rw [pruned.kept _ inside, atSource]
  have atParent₁ : d₁.find parentPath = some parent := by
    rw [pruned.kept _ notBelowParent, atParent]
  have free : d₁.find (parentPath ++ [n]) = none := pruned.cut _ (split ▸ List.prefix_rfl)
  rw [clean_eq_render absDst, split] at copiedRun
  rw [split] at outside inside
  have copied := copyCall now d₁.depth pruned.valid atSource₁ atParent₁ dir name free outside
    inside (pruned.valid.deep _) copiedRun
  have same := copied.valid.touchParent touched
  have covered_eq : ∀ rest, d₁.covered (elements src) recursive rest =
      d.covered (elements src) recursive rest := by
    intro rest
    unfold covered
    split_ifs
    · have apart := apart_append outside inside rest []
      rw [List.append_nil, ← split] at apart
      exact pruned.kept _ apart
    · rfl
  rw [split] at pruned
  rw [split]
  refine ⟨same.valid, outside, inside, Option.isSome_iff_exists.mpr ⟨sinfo, atSource⟩, ?_, ?_, ?_,
    ?_, ?_, ?_⟩
  · rw [List.dropLast_concat]
    exact Option.isSome_iff_exists.mpr ⟨parent, atParent⟩
  · intro q elsewhere
    rw [same.view, view, copied.kept q elsewhere, pruned.kept q elsewhere, view]
  · intro q elsewhere other
    rw [copied.valid.touchParent_find absDst touched (split ▸ other), copied.kept q elsewhere,
      pruned.kept q elsewhere]
  · intro rest
    rw [same.view, view, ← covered_eq]
    have rel := copied.made rest
    rw [pruned.nextID] at rel
    exact rel_untimed rel
  · intro q
    have samePaths : q ∈ d'.paths ↔ q ∈ d₂.paths := by rw [mem_paths, mem_paths, same.view]
    rw [same.live, copied.live, pruned.live, samePaths]
  · rw [same.nextID, ← pruned.nextID]
    exact copied.nextID

/-- The loop over the children of a copied pair, given the recursive call. -/
lemma collectCopyPairs_children {depth : Nat} {s t : List Text} {destination : Entry}
    (call : ∀ {s t : List Text} {x y : Entry} {pairs : List (Entry × Entry)}, d.find s = some x →
      d.find t = some y → d.Deep depth s → d.collectCopyPairs depth x y true = .ok pairs →
      ∀ pair, pair ∈ pairs ↔ ∃ rest, d.find (s ++ rest) = some pair.1 ∧
        d.find (t ++ rest) = some pair.2) (atTarget : d.find t = some destination)
    (children : List Entry) (present : ∀ c ∈ children, d.find (s ++ [c.fileName]) = some c)
    (deep : ∀ c ∈ children, d.Deep depth (s ++ [c.fileName])) {before : List (Entry × Entry)}
    (run : children.foldlM (fun pairs sourceChild =>
      match d.txSearchEntry destination.entryID sourceChild.fileName with
      | none => Except.error Err.internal
      | some destinationChild => do
          let below ← d.collectCopyPairs depth sourceChild destinationChild true
          pure (pairs ++ below)) before = .ok pairs) (pair : Entry × Entry) :
    pair ∈ pairs ↔ pair ∈ before ∨ ∃ c ∈ children, ∃ rest,
      d.find (s ++ [c.fileName] ++ rest) = some pair.1 ∧
        d.find (t ++ [c.fileName] ++ rest) = some pair.2 := by
  induction children generalizing before with
  | nil =>
    obtain rfl := pure_ok.mp run
    simp
  | cons c children ih =>
    rw [List.foldlM_cons, bind_ok] at run
    obtain ⟨between, first, later⟩ := run
    have below : d.find (t ++ [c.fileName]) = d.txSearchEntry destination.entryID c.fileName := by
      rw [find_snoc, atTarget, Option.bind_some]
    cases search : d.txSearchEntry destination.entryID c.fileName with
    | none =>
      rw [search] at first
      cases first
    | some y =>
      simp only [search, bind_ok, pure_ok] at first
      obtain ⟨nested, nestedRun, rfl⟩ := first
      have nestedMem := call (present c List.mem_cons_self) (below.trans search)
        (deep c List.mem_cons_self) nestedRun pair
      rw [ih (fun x member => present x (List.mem_cons_of_mem _ member))
        (fun x member => deep x (List.mem_cons_of_mem _ member)) later, List.mem_append,
        nestedMem]
      simp only [List.mem_cons, exists_eq_or_imp]
      exact or_assoc

/-- The pairs of a copy are the rows at equal places below source and copy. -/
lemma Valid.mem_collectCopyPairs (valid : d.Valid) (depth : Nat) {s t : List Text} {y : Entry}
    (atSource : d.find s = some x) (atTarget : d.find t = some y) (deep : d.Deep depth s)
    (run : d.collectCopyPairs depth x y recursive = .ok pairs) (pair : Entry × Entry) :
    pair ∈ pairs ↔ ∃ rest, (rest = [] ∨ recursive = true) ∧ d.find (s ++ rest) = some pair.1 ∧
      d.find (t ++ rest) = some pair.2 := by
  induction depth generalizing s t x y recursive pairs pair with
  | zero => exact absurd (deep [] x (by rwa [List.append_nil])) (Nat.not_lt_zero _)
  | succ depth ih =>
    have self : pair = (x, y) ↔ d.find s = some pair.1 ∧ d.find t = some pair.2 := by
      rw [atSource, atTarget, Option.some_inj, Option.some_inj]
      exact ⟨fun same => ⟨same ▸ rfl, same ▸ rfl⟩, fun ⟨h, h'⟩ => Prod.ext h.symm h'.symm⟩
    rw [collectCopyPairs] at run
    split_ifs at run with stop
    · cases run
      rw [List.mem_singleton, self]
      constructor
      · intro both
        exact ⟨[], .inl rfl, by rwa [List.append_nil, List.append_nil]⟩
      · rintro ⟨rest, reach, found⟩
        by_cases proper : rest = []
        · rwa [proper, List.append_nil, List.append_nil] at found
        · have file := stop.resolve_right (by rw [reach.resolve_left proper]; decide)
          rw [valid.isDir_above proper atSource found.1] at file
          cases file
    · obtain ⟨-, isRecursive⟩ := not_or.mp stop
      have recursiveTrue : recursive = true := by simpa using isRecursive
      have call : ∀ {s t : List Text} {x y : Entry} {pairs : List (Entry × Entry)},
          d.find s = some x → d.find t = some y → d.Deep depth s →
          d.collectCopyPairs depth x y true = .ok pairs →
          ∀ pair, pair ∈ pairs ↔ ∃ rest, d.find (s ++ rest) = some pair.1 ∧
            d.find (t ++ rest) = some pair.2 := by
        intro s t x y pairs atS atT deepS runS pair
        rw [ih atS atT deepS runS pair]
        simp only [or_true, true_and]
      have nested := collectCopyPairs_children call atTarget (d.txListAllDir x.entryID)
        (fun c child => valid.find_child atSource child) (fun c _ => deep.child c.fileName) run
        pair
      rw [nested, List.mem_singleton, self]
      constructor
      · rintro (both | ⟨c, -, rest, found⟩)
        · exact ⟨[], .inl rfl, by rwa [List.append_nil, List.append_nil]⟩
        · exact ⟨c.fileName :: rest, .inr recursiveTrue, by simpa using found⟩
      · rintro ⟨rest, -, found⟩
        cases rest with
        | nil => exact .inl (by rwa [List.append_nil, List.append_nil] at found)
        | cons m rest =>
          have split : ∀ base : List Text, base ++ m :: rest = base ++ [m] ++ rest := by simp
          rw [split, split] at found
          obtain ⟨c, below⟩ := find_front found.1
          obtain ⟨child, rfl⟩ := valid.mem_children atSource below
          exact .inr ⟨c, child, rest, found⟩

/-- **`CopyDepth`**: the destination holds a copy of the source, the returned pairs list it, and
the returned overwritten rows are what the destination held. -/
lemma Valid.copyDepth_spec (valid : d.Valid) {overwritten : List Entry} (absSrc : isAbs src)
    (absDst : isAbs dst)
    (run : d.copyDepth now src dst overwrite recursive = .ok (d', pairs, overwritten)) :
    (d' = d ∧ pairs = [] ∧ overwritten = [] ∧ elements src = elements dst) ∨
    (CopiedOver d d' (elements src) (elements dst) recursive ∧
      (∀ x, x ∈ overwritten ↔ ∃ q, elements dst <+: q ∧ d.find q = some x) ∧
      ∀ pair, pair ∈ pairs ↔ ∃ rest, (rest = [] ∨ recursive = true) ∧
        d'.find (elements src ++ rest) = some pair.1 ∧
        d'.find (elements dst ++ rest) = some pair.2) := by
  simp only [copyDepth, bind_ok] at run
  obtain ⟨next, check, later⟩ := run
  cases next with
  | false =>
    obtain ⟨rfl, same⟩ := Prod.mk.inj (pure_ok.mp later)
    obtain ⟨rfl, rfl⟩ := Prod.mk.inj same
    exact .inl ⟨rfl, rfl, rfl, by simpa using precheckMoveCopy_ok absSrc absDst check⟩
  | true =>
    simp only [if_true, bind_ok, pure_ok] at later
    obtain ⟨dropped, dropRun, d₁, copyRun, ⟨sourceEntry, _⟩, sourceRun, ⟨copiedEntry, _⟩,
      copiedRun, listed, pairRun, result⟩ := later
    obtain ⟨rfl, same⟩ := Prod.mk.inj result
    obtain ⟨rfl, rfl⟩ := Prod.mk.inj same
    have copied := valid.txDoCopyDepth_copied absSrc absDst check copyRun
    exact .inr ⟨copied, valid.overwrittenBy_mem absDst dropRun,
      copied.valid.mem_collectCopyPairs d₁.depth (copied.valid.requireEntry_ok absSrc sourceRun)
        (copied.valid.requireEntry_ok absDst copiedRun) (copied.valid.deep _) pairRun⟩

end TgFile.Directory
