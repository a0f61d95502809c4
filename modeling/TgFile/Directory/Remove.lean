import TgFile.Directory.Create

/-! # Removing subtrees

`collectAndRemove` deletes and records a subtree, children first.  `Pruned` says what it shows:
the rows of a set of paths are gone, exactly these are recorded as deleted and returned, and
nothing else changes. -/

namespace TgFile.Directory

open Go Go.Path Result
open Tree.Schema

variable {d d' d₁ : Directory} {cs : List Text} {e : Entry}

/-! ## Listing children -/

lemma txListAllDir_eq (d : Directory) (parentID : Nat) :
    d.txListAllDir parentID = d.txListDir parentID := by
  have short : (d.txListDir parentID).length ≤ d.entries.length := by
    rw [txListDir, (Sqlite.orderBy_perm _ _).length_eq]
    exact List.length_filter_le _ _
  rw [txListAllDir, Sqlite.readPages_eq _ (by decide) _ _ (by omega), List.drop_zero]

lemma Valid.listing (valid : d.Valid) : Entry.schema.Listing d.entries d.txListAllDir where
  mem pid r := by
    rw [txListAllDir_eq, txListDir, Sqlite.mem_orderBy, List.mem_filter, decide_eq_true_eq]
    rfl
  nodup pid := by
    rw [txListAllDir_eq, txListDir, (Sqlite.orderBy_perm _ _).nodup_iff]
    exact valid.tree.nodup.filter _

lemma Valid.find_child (valid : d.Valid) {c : Entry} (found : d.find cs = some e)
    (child : c ∈ d.txListAllDir e.entryID) : d.find (cs ++ [c.fileName]) = some c :=
  valid.tree.find_kid valid.listing found child

lemma Valid.mem_children (valid : d.Valid) {c : Entry} {n : Text} (found : d.find cs = some e)
    (below : d.find (cs ++ [n]) = some c) : c ∈ d.txListAllDir e.entryID ∧ c.fileName = n := by
  obtain ⟨p, atParent, parent, name⟩ := find_concat_some below
  obtain rfl : p = e := Option.some.inj (atParent.symm.trans found)
  exact ⟨(valid.listing.mem _ _).mpr ⟨find_mem below, parent⟩, name⟩

/-- The children of one entry have different names. -/
lemma Valid.children_names (valid : d.Valid) (parentID : Nat) :
    ((d.txListAllDir parentID).map Entry.fileName).Nodup := by
  refine (valid.listing.nodup parentID).map_on fun x left y right same => ?_
  obtain ⟨xMember, xParent⟩ := (valid.listing.mem _ _).mp left
  obtain ⟨yMember, yParent⟩ := (valid.listing.mem _ _).mp right
  exact valid.tree.eq_of_place xMember yMember (xParent.trans yParent.symm) same

/-! ## Pruned states -/

/-- The state after the rows of the paths `gone` were deleted, recorded and returned. -/
structure Pruned (d d' : Directory) (gone : List Text → Prop) (removed : List Entry) : Prop where
  valid : d'.Valid
  cut : ∀ q, gone q → d'.find q = none
  kept : ∀ q, ¬gone q → d'.find q = d.find q
  live : ∀ q, q ∈ d'.live ↔ q ∈ d.live ∧ ¬(gone q ∧ q ∈ d.paths)
  removed : ∀ x, x ∈ removed ↔ ∃ q, gone q ∧ d.find q = some x
  nextID : d'.nextID = d.nextID

namespace Pruned

variable {gone gone₁ gone₂ : List Text → Prop} {removed removed₁ removed₂ : List Entry}

lemma refl (valid : d.Valid) : Pruned d d (fun _ => False) [] where
  valid := valid
  cut _ absurdity := absurdity.elim
  kept _ _ := rfl
  live _ := by simp
  removed _ := by simp
  nextID := rfl

lemma mem_paths (pruned : Pruned d d' gone removed) {q : List Text} :
    q ∈ d'.paths ↔ q ∈ d.paths ∧ ¬gone q := by
  by_cases cut : gone q
  · simp [paths, pruned.cut q cut, cut]
  · simp [paths, pruned.kept q cut, cut]

lemma find_some (pruned : Pruned d d' gone removed) {q : List Text} {x : Entry} :
    d'.find q = some x ↔ d.find q = some x ∧ ¬gone q := by
  by_cases cut : gone q
  · simp [pruned.cut q cut, cut]
  · simp [pruned.kept q cut, cut]

lemma trans (first : Pruned d d₁ gone₁ removed₁) (second : Pruned d₁ d' gone₂ removed₂) :
    Pruned d d' (fun q => gone₁ q ∨ gone₂ q) (removed₁ ++ removed₂) where
  valid := second.valid
  cut q either := by
    by_cases cut : gone₂ q
    · exact second.cut q cut
    · rw [second.kept q cut, first.cut q (either.resolve_right cut)]
  kept q neither := by
    rw [second.kept q (not_or.mp neither).2, first.kept q (not_or.mp neither).1]
  live q := by
    rw [second.live, first.live, first.mem_paths]
    tauto
  removed x := by
    rw [List.mem_append, first.removed, second.removed]
    simp only [first.find_some]
    constructor
    · rintro (⟨q, cut, found⟩ | ⟨q, cut, found, -⟩)
      · exact ⟨q, .inl cut, found⟩
      · exact ⟨q, .inr cut, found⟩
    · rintro ⟨q, cut, found⟩
      by_cases early : gone₁ q
      · exact .inl ⟨q, early, found⟩
      · exact .inr ⟨q, cut.resolve_left early, found, early⟩
  nextID := second.nextID.trans first.nextID

/-- Only the paths that existed matter. -/
lemma congr (pruned : Pruned d d' gone₁ removed)
    (same : ∀ q, q ∈ d.paths → (gone₁ q ↔ gone₂ q)) : Pruned d d' gone₂ removed := by
  have absent : ∀ q, q ∉ d.paths → d.find q = none ∧ d'.find q = none := by
    intro q missing
    have before : d.find q = none := Option.not_isSome_iff_eq_none.mp missing
    refine ⟨before, ?_⟩
    by_cases cut : gone₁ q
    · exact pruned.cut q cut
    · rw [pruned.kept q cut, before]
  refine ⟨pruned.valid, ?_, ?_, ?_, ?_, pruned.nextID⟩
  · intro q cut
    by_cases present : q ∈ d.paths
    · exact pruned.cut q ((same q present).mpr cut)
    · exact (absent q present).2
  · intro q kept
    by_cases present : q ∈ d.paths
    · exact pruned.kept q fun cut => kept ((same q present).mp cut)
    · rw [(absent q present).1, (absent q present).2]
  · intro q
    rw [pruned.live]
    by_cases present : q ∈ d.paths
    · rw [same q present]
    · simp [present]
  · intro x
    rw [pruned.removed]
    refine exists_congr fun q => and_congr_left fun found => same q ?_
    exact Option.isSome_iff_exists.mpr ⟨x, found⟩

end Pruned

/-! ## The recursive deletion -/

lemma Valid.txRemove_pruned (valid : d.Valid) (now : Int) (found : d.find cs = some e)
    (leaf : ∀ n, d.find (cs ++ [n]) = none) :
    Pruned d ((d.recordChange now (render cs) .deleted).txRemove e.parentEntryID e.fileName)
      (· = cs) [e] := by
  have names := valid.names_of_find found
  let keep : Entry → Bool :=
    fun x => decide ¬(x.parentEntryID = e.parentEntryID ∧ x.fileName = e.fileName)
  have keep_iff : ∀ x ∈ d.entries, (keep x = true ↔ x ≠ e) := by
    intro x member
    simp only [keep, decide_eq_true_eq, not_iff_not]
    refine ⟨fun ⟨parent, name⟩ => valid.tree.eq_of_place member (find_mem found) parent name, ?_⟩
    rintro rfl
    exact ⟨rfl, rfl⟩
  have closed : ∀ p ∈ d.entries, ∀ c ∈ d.entries, c.parentEntryID = p.entryID →
      keep c = true → keep p = true := by
    intro p first c second below _
    rw [keep_iff p first]
    rintro rfl
    have child := valid.tree.find_concat_eq found second below
    have absent := leaf c.fileName
    rw [Directory.find, show c.fileName = Entry.schema.name c from rfl, child] at absent
    cases absent
  have find_eq : ∀ q, ((d.recordChange now (render cs) .deleted).txRemove e.parentEntryID
      e.fileName).find q = (d.find q).filter keep := fun q => valid.tree.find_filter closed q
  refine ⟨⟨valid.tree.filter closed, ?_, ?_, valid.positive, ?_⟩, ?_, ?_, ?_, ?_, rfl⟩
  · exact fun x member => valid.names x (List.mem_filter.mp member).1
  · exact fun x member => valid.fresh x (List.mem_filter.mp member).1
  · exact (valid.recordChange now (isAbs_render cs) .deleted).log
  · rintro q rfl
    rw [find_eq, found, Option.filter_some, if_neg]
    rw [keep_iff e (find_mem found)]
    exact fun different => different rfl
  · intro q other
    rw [find_eq]
    cases target : d.find q with
    | none => rfl
    | some x =>
      have different : x ≠ e := fun same => other (valid.tree.path_unique target (same ▸ found))
      rw [Option.filter_some, if_pos ((keep_iff x (find_mem target)).mpr different)]
  · intro q
    have present : cs ∈ d.paths := Option.isSome_iff_exists.mpr ⟨e, found⟩
    have live_eq : ((d.recordChange now (render cs) .deleted).txRemove e.parentEntryID
        e.fileName).live = d.live \ {cs} := by
      have recorded := live_recordChange_deleted (d := d) now (isAbs_render cs)
      rw [elements_render names] at recorded
      exact recorded
    rw [live_eq, Set.mem_sdiff, Set.mem_singleton_iff]
    refine and_congr_right fun _ => not_congr ⟨fun same => ⟨same, same ▸ present⟩, And.left⟩
  · intro x
    rw [List.mem_singleton]
    constructor
    · rintro rfl
      exact ⟨cs, rfl, found⟩
    · rintro ⟨q, rfl, target⟩
      exact Option.some.inj (target.symm.trans found)

/-- The walk from a path never uses up its depth. -/
def Deep (d : Directory) (depth : Nat) (cs : List Text) : Prop :=
  ∀ rest x, d.find (cs ++ rest) = some x → rest.length < depth

lemma Valid.deep (valid : d.Valid) (cs : List Text) : d.Deep d.depth cs := by
  intro rest x found
  have bound := valid.tree.length_lt found
  rw [List.length_append] at bound
  rw [depth]
  omega

lemma Deep.child {depth : Nat} (deep : d.Deep (depth + 1) cs) (n : Text) :
    d.Deep depth (cs ++ [n]) := by
  intro rest x found
  have bound := deep (n :: rest) x (by simpa using found)
  rw [List.length_cons] at bound
  omega

/-- The paths at or below one of the given children. -/
def BelowChild (cs : List Text) (children : List Entry) (q : List Text) : Prop :=
  ∃ c ∈ children, cs ++ [c.fileName] <+: q

/-- The loop over the children, given the recursive call. -/
lemma Valid.collectChildren_pruned {now : Int} {depth : Nat}
    (call : ∀ {d : Directory} {q : List Text} {e : Entry}, d.Valid → d.find q = some e →
      d.Deep depth q →
      Pruned d (collectAndRemove now depth (render q) d e).1 (q <+: ·)
        (collectAndRemove now depth (render q) d e).2) (names : Names cs) (children : List Entry)
    (distinct : (children.map Entry.fileName).Nodup) (valid : d.Valid)
    (present : ∀ c ∈ children, d.find (cs ++ [c.fileName]) = some c)
    (deep : ∀ c ∈ children, d.Deep depth (cs ++ [c.fileName])) (collected : List Entry) :
    let loop := children.foldl
      (fun (state : Directory × List Entry) child =>
        let (d, below) := collectAndRemove now depth (Path.join [render cs, child.fileName])
          state.1 child
        (d, state.2 ++ below)) (d, collected)
    ∃ removed, loop.2 = collected ++ removed ∧
      Pruned d loop.1 (BelowChild cs children) removed := by
  induction children generalizing d collected with
  | nil =>
    refine ⟨[], (List.append_nil _).symm, (Pruned.refl valid).congr fun q _ => ?_⟩
    simp [BelowChild]
  | cons c children ih =>
    have atChild := present c List.mem_cons_self
    have childNames := valid.names_of_find atChild
    have name : IsName c.fileName := childNames c.fileName (by simp)
    have first := call valid atChild (deep c List.mem_cons_self)
    obtain ⟨fresh, distinctRest⟩ := List.nodup_cons.mp distinct
    have apart : ∀ x ∈ children, ∀ rest, ¬cs ++ [c.fileName] <+: cs ++ [x.fileName] ++ rest := by
      intro x member rest front
      rw [List.append_assoc, List.prefix_append_right_inj, List.singleton_append,
        List.cons_prefix_cons] at front
      exact fresh (front.1 ▸ List.mem_map_of_mem member)
    have presentRest : ∀ x ∈ children,
        (collectAndRemove now depth (render (cs ++ [c.fileName])) d c).1.find
          (cs ++ [x.fileName]) = some x := by
      intro x member
      have outside := apart x member []
      rw [List.append_nil] at outside
      rw [first.kept _ outside]
      exact present x (List.mem_cons_of_mem _ member)
    have deepRest : ∀ x ∈ children,
        (collectAndRemove now depth (render (cs ++ [c.fileName])) d c).1.Deep depth
          (cs ++ [x.fileName]) := by
      intro x member rest y found
      exact deep x (List.mem_cons_of_mem _ member) rest y (first.find_some.mp found).1
    obtain ⟨removed, collectedAll, rest⟩ := ih distinctRest first.valid presentRest deepRest
      (collected ++ (collectAndRemove now depth (render (cs ++ [c.fileName])) d c).2)
    refine ⟨(collectAndRemove now depth (render (cs ++ [c.fileName])) d c).2 ++ removed, ?_, ?_⟩
    · rw [List.foldl_cons, join_render names name, collectedAll, List.append_assoc]
    · rw [List.foldl_cons, join_render names name]
      refine (first.trans rest).congr fun q _ => ?_
      simp only [BelowChild, List.mem_cons, exists_eq_or_imp]

/-- **`collectAndRemove` deletes exactly the subtree of its entry**, records every deleted path
and returns every deleted row. -/
lemma Valid.collectAndRemove_pruned (now : Int) (depth : Nat) (valid : d.Valid)
    (found : d.find cs = some e) (deep : d.Deep depth cs) :
    Pruned d (collectAndRemove now depth (render cs) d e).1 (cs <+: ·)
      (collectAndRemove now depth (render cs) d e).2 := by
  induction depth generalizing d cs e with
  | zero => exact absurd (deep [] e (by rwa [List.append_nil])) (Nat.not_lt_zero _)
  | succ depth ih =>
    have names := valid.names_of_find found
    cases kind : e.fileKind with
    | file =>
      have leaf : ∀ n, d.find (cs ++ [n]) = none := by
        intro n
        cases below : d.find (cs ++ [n]) with
        | none => rfl
        | some c =>
          have dir := valid.isDir_above (List.cons_ne_nil n []) found below
          rw [kind] at dir
          cases dir
      have pruned := valid.txRemove_pruned now found leaf
      simp only [collectAndRemove, kind, reduceCtorEq, if_false, List.nil_append]
      refine pruned.congr fun q present => ?_
      refine ⟨fun same => same ▸ List.prefix_rfl, fun ⟨rest, split⟩ => ?_⟩
      by_cases proper : rest = []
      · rw [← split, proper, List.append_nil]
      · obtain ⟨x, target⟩ := Option.isSome_iff_exists.mp present
        have dir := valid.isDir_above proper found (split ▸ target)
        rw [kind] at dir
        cases dir
    | dir =>
      obtain ⟨removed, collected, pruned⟩ := collectChildren_pruned
        (fun v f dp => ih v f dp) names (d.txListAllDir e.entryID)
        (valid.children_names e.entryID) valid (fun c child => valid.find_child found child)
        (fun c _ => deep.child c.fileName) []
      simp only [collectAndRemove, kind, if_true]
      generalize (d.txListAllDir e.entryID).foldl _ (d, []) = loop at collected pruned ⊢
      rw [List.nil_append] at collected
      have notBelow : ¬BelowChild cs (d.txListAllDir e.entryID) cs := by
        rintro ⟨c, -, front⟩
        have shorter := front.length_le
        rw [List.length_append, List.length_singleton] at shorter
        omega
      have atSelf : loop.1.find cs = some e := by rw [pruned.kept cs notBelow, found]
      have childless : ∀ n, loop.1.find (cs ++ [n]) = none := by
        intro n
        cases below : loop.1.find (cs ++ [n]) with
        | none => rfl
        | some c =>
          obtain ⟨before, kept⟩ := pruned.find_some.mp below
          obtain ⟨child, name⟩ := valid.mem_children found before
          exact absurd ⟨c, child, name ▸ List.prefix_rfl⟩ kept
      have last := pruned.valid.txRemove_pruned now atSelf childless
      rw [collected]
      refine (pruned.trans last).congr fun q present => ?_
      constructor
      · rintro (⟨c, -, front⟩ | same)
        · exact (List.prefix_append cs _).trans front
        · exact same ▸ List.prefix_rfl
      · rintro ⟨rest, split⟩
        cases rest with
        | nil => exact .inr (by rw [← split, List.append_nil])
        | cons n rest =>
          obtain ⟨x, target⟩ := Option.isSome_iff_exists.mp present
          have longer : cs ++ n :: rest = cs ++ [n] ++ rest := by simp
          rw [← split, longer] at target
          obtain ⟨c, below⟩ := find_front target
          obtain ⟨child, name⟩ := valid.mem_children found below
          refine .inl ⟨c, child, ?_⟩
          rw [name, ← split, longer]
          exact List.prefix_append _ _

/-- **`Remove`** prunes the subtree of its path; a path that denotes nothing is left alone. -/
lemma Valid.remove_pruned (valid : d.Valid) {now : Int} {p : Text} {removed : List Entry}
    (abs : isAbs p) (run : d.remove now p = .ok (d', removed)) :
    ∃ d₁, Pruned d d₁ (elements p <+: ·) removed ∧ SameView d₁ d' ∧ FilesStay d₁ d' := by
  simp only [remove, bind_ok] at run
  obtain ⟨⟨found, parentID⟩, lookup, later⟩ := run
  obtain ⟨denoted, -⟩ := valid.txGetEntryInfo_ok abs lookup
  cases found with
  | none =>
    obtain ⟨rfl, rfl⟩ := Prod.mk.inj (pure_ok.mp later)
    refine ⟨d, (Pruned.refl valid).congr fun q present => ?_, .refl valid, .refl d⟩
    refine ⟨False.elim, fun front => ?_⟩
    have absent : elements p ∉ d.paths := by simp [paths, ← denoted]
    exact absent (front_mem_paths front present)
  | some e =>
    simp only [bind_ok, pure_ok] at later
    obtain ⟨d₂, touched, result⟩ := later
    obtain ⟨rfl, rfl⟩ := Prod.mk.inj result
    rw [clean_eq_render abs] at touched ⊢
    have pruned := valid.collectAndRemove_pruned now d.depth denoted.symm (valid.deep _)
    refine ⟨_, pruned, pruned.valid.touchParent touched, ?_⟩
    generalize (collectAndRemove now d.depth (render (elements p)) d e).1 = d₁ at touched pruned
    refine pruned.valid.touchParent_filesStay abs (fun r here => ?_) touched
    rcases List.eq_nil_or_concat' (elements p) with root | ⟨cs, n, split⟩
    · rw [root] at pruned here
      rw [pruned.cut _ List.nil_prefix] at here
      cases here
    · rw [split] at denoted pruned
      have shorter : ¬cs ++ [n] <+: cs := fun front => by
        have long := front.length_le
        rw [List.length_append, List.length_singleton] at long
        omega
      rw [split, List.dropLast_concat, pruned.kept cs shorter] at here
      exact valid.isDir_above (List.cons_ne_nil n []) here denoted.symm

/-! ## Listing a subtree -/

lemma collectEntries_eq_postorder (d : Directory) (depth : Nat) (cs : List Text) (e : Entry) :
    d.collectEntries depth e =
      (Entry.schema.postorder d.txListAllDir depth cs e).map Prod.snd := by
  induction depth generalizing cs e with
  | zero => rfl
  | succ depth ih =>
    simp only [collectEntries, Tree.Schema.postorder, List.map_append, List.map_singleton,
      isDir_iff]
    congr 1
    split_ifs
    · rw [List.map_flatMap]
      exact congrArg (fun visit => (d.txListAllDir e.entryID).flatMap visit)
        (funext fun c => ih (cs ++ [c.fileName]) c)
    · rfl

/-- `collectEntries` lists exactly the rows of a subtree. -/
lemma Valid.mem_collectEntries (valid : d.Valid) {x : Entry} (found : d.find cs = some e) :
    x ∈ d.collectEntries d.depth e ↔ ∃ q, cs <+: q ∧ d.find q = some x := by
  rw [collectEntries_eq_postorder d d.depth cs e, List.mem_map]
  have enough : d.entries.length ≤ d.depth := Nat.le_succ _
  constructor
  · rintro ⟨⟨q, y⟩, member, rfl⟩
    exact ⟨q, (valid.tree.mem_postorder valid.listing enough found q y).mp member⟩
  · rintro ⟨q, front, target⟩
    exact ⟨(q, x), (valid.tree.mem_postorder valid.listing enough found q x).mpr ⟨front, target⟩,
      rfl⟩

end TgFile.Directory
