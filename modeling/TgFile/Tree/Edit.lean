import TgFile.Tree.Rows

/-! # Edits of a row tree

What a table statement does to the tree: inserting a row, updating columns that do not place the
row, deleting a set of rows closed under descendants, and giving a row a new parent and name.
Each edit has one equation for `find` and one preservation lemma for `WellFormed`. -/

namespace TgFile.Tree.Schema

variable {ρ ι ν : Type} [DecidableEq ι] [DecidableEq ν]
variable {S : Schema ρ ι ν} {rows : List ρ}

namespace WellFormed

/-- The parent of a row is the root marker or the id of a row. -/
lemma parent_cases (wf : S.WellFormed rows) {s : ρ} (member : s ∈ rows) :
    S.parent s = S.above ∨ ∃ p ∈ rows, S.parent s = S.id p := by
  obtain ⟨path, found⟩ := wf.reached s member
  rcases List.eq_nil_or_concat' path with empty | ⟨front, n, split⟩
  · exact .inl (find_nil_some (empty ▸ found)).1
  · rw [split] at found
    obtain ⟨p, parent, below, -⟩ := find_concat_some found
    exact .inr ⟨p, find_mem parent, below⟩

/-- An unused id is nobody's parent. -/
lemma parent_ne_of_fresh (wf : S.WellFormed rows) {i : ι} (notAbove : i ≠ S.above)
    (fresh : ∀ s ∈ rows, S.id s ≠ i) {s : ρ} (member : s ∈ rows) : S.parent s ≠ i := by
  intro same
  rcases wf.parent_cases member with root | ⟨p, present, below⟩
  · exact notAbove (same.symm.trans root)
  · exact fresh p present (below.symm.trans same)

lemma nodup (wf : S.WellFormed rows) : rows.Nodup := wf.ids.of_map

end WellFormed

/-! ## Insertion -/

section Insert

variable {parentPath : List ν} {p r : ρ}

lemma child_insert (pid : ι) (n : ν) :
    S.child (rows ++ [r]) pid n =
      (S.child rows pid n).or (if S.parent r = pid ∧ S.name r = n then some r else none) := by
  simp only [child, List.find?_append, List.find?_singleton, decide_eq_true_eq]

/-- Inserting a row below a directory adds exactly its path. -/
lemma WellFormed.find_insert (wf : S.WellFormed rows)
    (parentFound : S.find rows parentPath = some p) (below : S.parent r = S.id p)
    (fresh : ∀ s ∈ rows, S.id s ≠ S.id r) (notAbove : S.id r ≠ S.above)
    (free : S.find rows (parentPath ++ [S.name r]) = none) (path : List ν) :
    S.find (rows ++ [r]) path =
      if path = parentPath ++ [S.name r] then some r else S.find rows path := by
  induction path using List.reverseRecOn with
  | nil =>
    have elsewhere : ¬(S.parent r = S.above ∧ S.name r = S.rootName) := fun placed =>
      wf.above p (find_mem parentFound) (below.symm.trans placed.1)
    have longer : ([] : List ν) ≠ parentPath ++ [S.name r] := by simp
    rw [find_nil, find_nil, child_insert, if_neg elsewhere, if_neg longer, Option.or_none]
  | append_singleton path n ih =>
    rw [find_concat, ih]
    by_cases here : path = parentPath ++ [S.name r]
    · have longer : path ++ [n] ≠ parentPath ++ [S.name r] := by
        intro same
        have := congrArg List.length (here ▸ same)
        simp at this
      have childless : S.child rows (S.id r) n = none := by
        refine List.find?_eq_none.mpr fun s member placed => ?_
        have parent : S.parent s = S.id r := by
          simp only [decide_eq_true_eq] at placed
          exact placed.1
        exact wf.parent_ne_of_fresh notAbove fresh member parent
      have loopless : ¬(S.parent r = S.id r ∧ S.name r = n) := fun placed =>
        fresh p (find_mem parentFound) (below.symm.trans placed.1)
      rw [if_pos here, if_neg longer, Option.bind_some, child_insert, childless,
        if_neg loopless, here, find_none_append free, Option.or_none]
    · rw [if_neg here, find_concat]
      cases front : S.find rows path with
      | none =>
        have other : path ++ [n] ≠ parentPath ++ [S.name r] := by
          intro same
          have samePath := (List.append_inj_left' same rfl)
          rw [samePath, parentFound] at front
          cases front
        rw [if_neg other, Option.bind_none, Option.bind_none]
      | some q =>
        rw [Option.bind_some, Option.bind_some, child_insert]
        by_cases target : path ++ [n] = parentPath ++ [S.name r]
        · obtain ⟨samePath, sameName⟩ := List.append_inj' target rfl
          obtain rfl : q = p := by
            rw [samePath, parentFound] at front
            exact (Option.some.inj front).symm
          have name : S.name r = n := (List.singleton_inj.mp sameName).symm
          have empty : S.child rows (S.id q) n = none := by
            rw [find_concat, parentFound, Option.bind_some, name] at free
            exact free
          rw [if_pos target, empty, Option.none_or, if_pos ⟨below, name⟩]
        · have elsewhere : ¬(S.parent r = S.id q ∧ S.name r = n) := by
            rintro ⟨parent, name⟩
            have sameRow : q = p := wf.eq_of_id (find_mem front) (find_mem parentFound)
              (parent.symm.trans below)
            have samePath := wf.path_unique front (sameRow ▸ parentFound)
            exact target (by rw [samePath, name])
          rw [if_neg target, if_neg elsewhere, Option.or_none]

lemma WellFormed.insert (wf : S.WellFormed rows) (parentFound : S.find rows parentPath = some p)
    (dir : S.isDir p = true) (below : S.parent r = S.id p) (fresh : ∀ s ∈ rows, S.id s ≠ S.id r)
    (notAbove : S.id r ≠ S.above) (free : S.find rows (parentPath ++ [S.name r]) = none) :
    S.WellFormed (rows ++ [r]) := by
  have find_eq := wf.find_insert parentFound below fresh notAbove free
  have freePlace : ∀ s ∈ rows, (S.parent s, S.name s) ≠ (S.parent r, S.name r) := by
    intro s member same
    obtain ⟨parent, name⟩ := Prod.mk.inj same
    have found := wf.find_concat_eq parentFound member (parent.trans below)
    rw [name, free] at found
    cases found
  refine ⟨?_, ?_, ?_, ?_, ?_, ?_⟩
  · rw [List.map_append, List.map_singleton]
    exact List.nodup_append.mpr ⟨wf.ids, List.nodup_singleton _, by
      intro i old j new same
      obtain ⟨s, member, rfl⟩ := List.mem_map.mp old
      exact fresh s member (same.trans (List.mem_singleton.mp new))⟩
  · rw [List.map_append, List.map_singleton]
    exact List.nodup_append.mpr ⟨wf.places, List.nodup_singleton _, by
      intro i old j new same
      obtain ⟨s, member, rfl⟩ := List.mem_map.mp old
      exact freePlace s member (same.trans (List.mem_singleton.mp new))⟩
  · intro s member
    rcases List.mem_append.mp member with old | new
    · exact wf.above s old
    · exact List.mem_singleton.mp new ▸ notAbove
  · intro s member
    rcases List.mem_append.mp member with old | new
    · obtain ⟨path, found⟩ := wf.reached s old
      refine ⟨path, ?_⟩
      have other : path ≠ parentPath ++ [S.name r] := by
        intro same
        rw [same, free] at found
        cases found
      rw [find_eq, if_neg other, found]
    · refine ⟨parentPath ++ [S.name r], ?_⟩
      rw [find_eq, if_pos rfl, List.mem_singleton.mp new]
  · intro q first c second parent
    rcases List.mem_append.mp first with oldParent | newParent <;>
      rcases List.mem_append.mp second with oldChild | newChild
    · exact wf.dirs q oldParent c oldChild parent
    · obtain rfl : c = r := List.mem_singleton.mp newChild
      have sameRow : q = p := wf.eq_of_id oldParent (find_mem parentFound) (parent.symm.trans below)
      exact sameRow ▸ dir
    · obtain rfl : q = r := List.mem_singleton.mp newParent
      exact absurd parent (wf.parent_ne_of_fresh notAbove fresh oldChild)
    · obtain rfl : q = r := List.mem_singleton.mp newParent
      obtain rfl : c = q := List.mem_singleton.mp newChild
      exact absurd (below.symm.trans parent) (fresh p (find_mem parentFound))
  · intro s member root
    rcases List.mem_append.mp member with old | new
    · exact wf.rootDir s old root
    · obtain rfl : s = r := List.mem_singleton.mp new
      exact absurd (below.symm.trans root) (wf.above p (find_mem parentFound))

/-- The first row of an empty table is the root. -/
lemma find_root_only (parent : S.parent r = S.above) (name : S.name r = S.rootName)
    (notAbove : S.id r ≠ S.above) (path : List ν) :
    S.find [r] path = if path = [] then some r else none := by
  have childless (n : ν) : S.child [r] (S.id r) n = none := by
    simp only [child, List.find?_singleton, decide_eq_true_eq, parent, notAbove.symm, false_and,
      if_false]
  have root : S.child [r] S.above S.rootName = some r := by
    simp only [child, List.find?_singleton, parent, name, and_self, decide_true, if_true]
  cases path with
  | nil => rw [find_nil, root, if_pos rfl]
  | cons n path =>
    rw [find, root, Option.bind_some, walk, childless, Option.bind_none,
      if_neg (List.cons_ne_nil n path)]

lemma wellFormed_root_only (parent : S.parent r = S.above) (name : S.name r = S.rootName)
    (dir : S.isDir r = true) (notAbove : S.id r ≠ S.above) : S.WellFormed [r] where
  ids := List.nodup_singleton _
  places := List.nodup_singleton _
  above s member := List.mem_singleton.mp member ▸ notAbove
  reached s member := ⟨[], by
    rw [find_root_only parent name notAbove, if_pos rfl, List.mem_singleton.mp member]⟩
  dirs q first _ _ _ := List.mem_singleton.mp first ▸ dir
  rootDir s member _ := List.mem_singleton.mp member ▸ dir

lemma wellFormed_nil : S.WellFormed ([] : List ρ) where
  ids := List.nodup_nil
  places := List.nodup_nil
  above _ member := nomatch member
  reached _ member := nomatch member
  dirs _ member := nomatch member
  rootDir _ member := nomatch member

end Insert

/-! ## Updates that keep every place -/

section Update

variable {f : ρ → ρ}

lemma child_map (parent : ∀ r, S.parent (f r) = S.parent r) (name : ∀ r, S.name (f r) = S.name r)
    (pid : ι) (n : ν) : S.child (rows.map f) pid n = (S.child rows pid n).map f := by
  simp only [child, List.find?_map, Function.comp_def, parent, name]

/-- An update that keeps ids and places updates what every path denotes. -/
lemma find_map (id : ∀ r, S.id (f r) = S.id r) (parent : ∀ r, S.parent (f r) = S.parent r)
    (name : ∀ r, S.name (f r) = S.name r) (path : List ν) :
    S.find (rows.map f) path = (S.find rows path).map f := by
  induction path using List.reverseRecOn with
  | nil => rw [find_nil, find_nil, child_map parent name]
  | append_singleton path n ih =>
    rw [find_concat, find_concat, ih]
    cases S.find rows path with
    | none => rfl
    | some p => simp only [Option.map_some, Option.bind_some, id, child_map parent name]

lemma WellFormed.map (wf : S.WellFormed rows) (id : ∀ r, S.id (f r) = S.id r)
    (parent : ∀ r, S.parent (f r) = S.parent r) (name : ∀ r, S.name (f r) = S.name r)
    (dir : ∀ r, S.isDir (f r) = S.isDir r) : S.WellFormed (rows.map f) where
  ids := by simpa only [List.map_map, Function.comp_def, id] using wf.ids
  places := by simpa only [List.map_map, Function.comp_def, parent, name] using wf.places
  above r member := by
    obtain ⟨s, present, rfl⟩ := List.mem_map.mp member
    exact id s ▸ wf.above s present
  reached r member := by
    obtain ⟨s, present, rfl⟩ := List.mem_map.mp member
    obtain ⟨path, found⟩ := wf.reached s present
    exact ⟨path, by rw [find_map id parent name, found, Option.map_some]⟩
  dirs p first c second below := by
    obtain ⟨q, presentParent, rfl⟩ := List.mem_map.mp first
    obtain ⟨d, presentChild, rfl⟩ := List.mem_map.mp second
    rw [parent, id] at below
    exact (dir q).trans (wf.dirs q presentParent d presentChild below)
  rootDir r member root := by
    obtain ⟨s, present, rfl⟩ := List.mem_map.mp member
    rw [parent] at root
    exact (dir s).trans (wf.rootDir s present root)

end Update

/-! ## Deletion of a set closed under descendants -/

section Delete

variable {keep : ρ → Bool}

lemma WellFormed.child_filter (wf : S.WellFormed rows) (pid : ι) (n : ν) :
    S.child (rows.filter keep) pid n = (S.child rows pid n).filter keep := by
  apply Option.ext
  intro r
  rw [child_eq_of_places (wf.places.sublist (List.filter_sublist.map _)),
    Option.filter_eq_some_iff, wf.child_eq, List.mem_filter]
  tauto

variable (wf : S.WellFormed rows)
  (closed : ∀ p ∈ rows, ∀ c ∈ rows, S.parent c = S.id p → keep c = true → keep p = true)
include wf closed

/-- Deleting rows together with all their descendants removes exactly their paths. -/
lemma WellFormed.find_filter (path : List ν) :
    S.find (rows.filter keep) path = (S.find rows path).filter keep := by
  induction path using List.reverseRecOn with
  | nil => rw [find_nil, find_nil, wf.child_filter]
  | append_singleton path n ih =>
    rw [find_concat, find_concat, ih]
    cases front : S.find rows path with
    | none => rfl
    | some p =>
      rw [Option.bind_some]
      cases survives : keep p with
      | true => rw [Option.filter_some, if_pos survives, Option.bind_some, wf.child_filter]
      | false =>
        rw [Option.filter_some, if_neg (by simp [survives]), Option.bind_none]
        cases below : S.child rows (S.id p) n with
        | none => rfl
        | some c =>
          obtain ⟨member, parent, -⟩ := child_some below
          have dropped : ¬keep c = true := fun kept => by
            have := closed p (find_mem front) c member parent kept
            rw [survives] at this
            cases this
          rw [Option.filter_some, if_neg dropped]

lemma WellFormed.filter : S.WellFormed (rows.filter keep) where
  ids := wf.ids.sublist (List.filter_sublist.map _)
  places := wf.places.sublist (List.filter_sublist.map _)
  above r member := wf.above r (List.mem_filter.mp member).1
  reached r member := by
    obtain ⟨present, kept⟩ := List.mem_filter.mp member
    obtain ⟨path, found⟩ := wf.reached r present
    exact ⟨path, by rw [wf.find_filter closed, found, Option.filter_some, if_pos kept]⟩
  dirs p first c second := wf.dirs p (List.mem_filter.mp first).1 c (List.mem_filter.mp second).1
  rootDir r member := wf.rootDir r (List.mem_filter.mp member).1

end Delete

/-! ## Moving a row to another place -/

section Reparent

variable (S) in
/-- Replace the row of one id. -/
def replaceRow (rows : List ρ) (moved : ρ) : List ρ :=
  rows.map fun s => if S.id s = S.id moved then moved else s

variable {source parentPath : List ν} {r p moved : ρ}

omit [DecidableEq ν] in
/-- The statement's effect on one row. -/
lemma mem_replaceRow (present : r ∈ rows) (sameId : S.id moved = S.id r) {s : ρ} :
    s ∈ S.replaceRow rows moved ↔ s = moved ∨ (s ∈ rows ∧ S.id s ≠ S.id moved) := by
  constructor
  · intro member
    obtain ⟨t, inRows, rfl⟩ := List.mem_map.mp member
    split_ifs with same
    · exact .inl rfl
    · exact .inr ⟨inRows, same⟩
  · rintro (rfl | ⟨inRows, other⟩)
    · exact List.mem_map.mpr ⟨r, present, if_pos sameId.symm⟩
    · exact List.mem_map.mpr ⟨s, inRows, if_neg other⟩

omit [DecidableEq ν] in
lemma map_id_replaceRow : (S.replaceRow rows moved).map S.id = rows.map S.id := by
  rw [replaceRow, List.map_map]
  refine List.map_congr_left fun s _ => ?_
  simp only [Function.comp_apply]
  split_ifs with same
  · exact same.symm
  · rfl

/-- A row that moves to a free place leaves no two rows in one place. -/
lemma WellFormed.places_replaceRow (wf : S.WellFormed rows)
    (free : S.child rows (S.parent moved) (S.name moved) = none) :
    ((S.replaceRow rows moved).map fun s => (S.parent s, S.name s)).Nodup := by
  have apart : ∀ s ∈ rows, (S.parent s, S.name s) ≠ (S.parent moved, S.name moved) := by
    intro s member same
    obtain ⟨parent, name⟩ := Prod.mk.inj same
    rw [wf.child_eq.mpr ⟨member, parent, name⟩] at free
    cases free
  rw [Schema.replaceRow, List.map_map]
  refine wf.nodup.map_on fun s left t right same => ?_
  simp only [Function.comp_apply] at same
  by_cases sMoved : S.id s = S.id moved <;> by_cases tMoved : S.id t = S.id moved
  · exact wf.eq_of_id left right (sMoved.trans tMoved.symm)
  · rw [if_pos sMoved, if_neg tMoved] at same
    exact absurd same.symm (apart t right)
  · rw [if_neg sMoved, if_pos tMoved] at same
    exact absurd same (apart s left)
  · rw [if_neg sMoved, if_neg tMoved] at same
    exact List.inj_on_of_nodup_map wf.places left right same

/-- The places after the row has moved. -/
lemma WellFormed.child_replaceRow (wf : S.WellFormed rows) (present : r ∈ rows)
    (sameId : S.id moved = S.id r)
    (free : S.child rows (S.parent moved) (S.name moved) = none) (pid : ι) (n : ν) :
    S.child (S.replaceRow rows moved) pid n =
      if S.parent moved = pid ∧ S.name moved = n then some moved
      else if S.parent r = pid ∧ S.name r = n then none
      else S.child rows pid n := by
  have places := wf.places_replaceRow free
  split_ifs with target vacated
  · exact (child_eq_of_places places).mpr ⟨(mem_replaceRow present sameId).mpr (.inl rfl), target⟩
  · apply Option.eq_none_iff_forall_ne_some.mpr
    intro s found
    obtain ⟨member, placed⟩ := child_some found
    rcases (mem_replaceRow present sameId).mp member with rfl | ⟨old, other⟩
    · exact target placed
    · have same := wf.eq_of_place old present (placed.1.trans vacated.1.symm)
        (placed.2.trans vacated.2.symm)
      exact other (same ▸ sameId.symm)
  · apply Option.ext
    intro s
    rw [child_eq_of_places places, mem_replaceRow present sameId, wf.child_eq]
    constructor
    · rintro ⟨rfl | ⟨old, -⟩, placed⟩
      · exact absurd placed target
      · exact ⟨old, placed⟩
    · rintro ⟨old, placed⟩
      refine ⟨.inr ⟨old, fun same => vacated ?_⟩, placed⟩
      exact wf.eq_of_id old present (same.trans sameId) ▸ placed

omit [DecidableEq ν] in
private lemma id_replaced (s : ρ) : S.id (if S.id s = S.id moved then moved else s) = S.id s := by
  split_ifs with same
  · exact same.symm
  · rfl

/-- **Moving a row moves its whole subtree**: the new path and everything below it denote what
the old path and everything below it denoted, the old paths denote nothing, and no other path
changes. -/
lemma WellFormed.find_replaceRow (wf : S.WellFormed rows)
    (sourceFound : S.find rows source = some r) (sameId : S.id moved = S.id r)
    (parentFound : S.find rows parentPath = some p) (below : S.parent moved = S.id p)
    (free : S.find rows (parentPath ++ [S.name moved]) = none)
    (outside : ¬source <+: parentPath) (path : List ν) :
    S.find (S.replaceRow rows moved) path =
      if parentPath ++ [S.name moved] <+: path then
        (S.find rows (source ++ path.drop (parentPath.length + 1))).map
          fun s => if S.id s = S.id moved then moved else s
      else if source <+: path then none
      else S.find rows path := by
  have freePlace : S.child rows (S.parent moved) (S.name moved) = none := by
    rw [find_concat, parentFound, Option.bind_some] at free
    rw [below, free]
  have child_eq := wf.child_replaceRow (find_mem sourceFound) sameId freePlace
  induction path using List.reverseRecOn with
  | nil =>
    have notTarget : ¬parentPath ++ [S.name moved] <+: [] := by simp
    have notSource : ¬source <+: [] := by
      intro front
      rw [List.prefix_nil.mp front] at outside
      exact outside List.nil_prefix
    have notMoved : ¬(S.parent moved = S.above ∧ S.name moved = S.rootName) := fun placed =>
      wf.above p (find_mem parentFound) (below.symm.trans placed.1)
    have notVacated : ¬(S.parent r = S.above ∧ S.name r = S.rootName) := by
      rintro ⟨parent, -⟩
      rw [wf.path_eq_nil sourceFound parent] at outside
      exact outside List.nil_prefix
    rw [if_neg notTarget, if_neg notSource, find_nil, find_nil, child_eq, if_neg notMoved,
      if_neg notVacated]
  | append_singleton path n ih =>
    rw [find_concat, ih]
    by_cases target : parentPath ++ [S.name moved] <+: path
    · obtain ⟨rest, rfl⟩ := target
      have longer : parentPath ++ [S.name moved] <+: parentPath ++ [S.name moved] ++ rest ++ [n] :=
        ⟨rest ++ [n], by simp⟩
      have dropRest : (parentPath ++ [S.name moved] ++ rest).drop
        (parentPath.length + 1) = rest := by
        rw [List.drop_append_of_le_length (by simp)]
        simp
      have dropLonger : (parentPath ++ [S.name moved] ++ rest ++ [n]).drop
          (parentPath.length + 1) = rest ++ [n] := by
        rw [List.append_assoc, List.drop_append_of_le_length (by simp)]
        simp
      rw [if_pos (List.prefix_append _ rest), if_pos longer, dropRest, dropLonger,
        ← List.append_assoc, find_concat]
      cases found : S.find rows (source ++ rest) with
      | none => rfl
      | some s =>
        rw [Option.map_some, Option.bind_some, Option.bind_some, id_replaced, child_eq]
        have notMoved : ¬(S.parent moved = S.id s ∧ S.name moved = n) := by
          rintro ⟨parent, -⟩
          have samePath := wf.path_unique_of_id parentFound found (below.symm.trans parent)
          exact outside ⟨rest, samePath.symm⟩
        have deeper : S.child rows (S.id s) n ≠ some r := by
          intro same
          have again : S.find rows (source ++ rest ++ [n]) = some r := by
            rw [find_concat, found, Option.bind_some, same]
          have := congrArg List.length (wf.path_unique again sourceFound)
          simp at this
        have notVacated : ¬(S.parent r = S.id s ∧ S.name r = n) := fun placed =>
          deeper (wf.child_eq.mpr ⟨find_mem sourceFound, placed⟩)
        rw [if_neg notMoved, if_neg notVacated]
        cases last : S.child rows (S.id s) n with
        | none => rfl
        | some c =>
          have other : S.id c ≠ S.id moved := by
            intro same
            have sameRow := wf.eq_of_id (child_some last).1 (find_mem sourceFound)
              (same.trans sameId)
            exact deeper (sameRow ▸ last)
          rw [Option.map_some, if_neg other]
    · have targetLast : parentPath ++ [S.name moved] <+: path ++ [n] →
          path = parentPath ∧ n = S.name moved := by
        intro front
        rcases List.prefix_concat_iff.mp front with whole | shorter
        · obtain ⟨same, last⟩ := List.append_inj' whole rfl
          exact ⟨same.symm, (List.singleton_inj.mp last).symm⟩
        · exact absurd shorter target
      rw [if_neg target]
      by_cases inside : source <+: path
      · have notTarget : ¬parentPath ++ [S.name moved] <+: path ++ [n] := fun front =>
          outside ((targetLast front).1 ▸ inside)
        rw [if_pos inside, Option.bind_none, if_neg notTarget,
          if_pos (inside.trans (List.prefix_append path [n]))]
      · rw [if_neg inside]
        have sourceLast : source <+: path ++ [n] → source = path ++ [n] := fun front =>
          (List.prefix_concat_iff.mp front).resolve_right inside
        cases front : S.find rows path with
        | none =>
          have notTarget : ¬parentPath ++ [S.name moved] <+: path ++ [n] := by
            intro isTarget
            rw [(targetLast isTarget).1, parentFound] at front
            cases front
          rw [Option.bind_none, if_neg notTarget, find_concat, front, Option.bind_none, ite_self]
        | some s =>
          rw [Option.bind_some, child_eq]
          by_cases placed : S.parent moved = S.id s ∧ S.name moved = n
          · obtain ⟨parent, name⟩ := placed
            have samePath := wf.path_unique_of_id front parentFound (parent.symm.trans below)
            have isTarget : parentPath ++ [S.name moved] <+: path ++ [n] := by
              simp only [samePath, name, List.prefix_rfl]
            have empty : (path ++ [n]).drop (parentPath.length + 1) = [] := by
              rw [samePath]
              simp
            rw [if_pos ⟨parent, name⟩, if_pos isTarget, empty, List.append_nil, sourceFound,
              Option.map_some, if_pos sameId.symm]
          · have notTarget : ¬parentPath ++ [S.name moved] <+: path ++ [n] := by
              intro isTarget
              obtain ⟨samePath, name⟩ := targetLast isTarget
              rw [samePath, parentFound] at front
              exact placed ⟨below.trans (congrArg S.id (Option.some.inj front)), name.symm⟩
            rw [if_neg placed, if_neg notTarget]
            by_cases vacated : S.parent r = S.id s ∧ S.name r = n
            · have atSource : S.find rows (path ++ [n]) = some r := by
                rw [find_concat, front, Option.bind_some]
                exact wf.child_eq.mpr ⟨find_mem sourceFound, vacated⟩
              have samePath := wf.path_unique sourceFound atSource
              rw [if_pos vacated, if_pos (samePath ▸ List.prefix_rfl)]
            · have notSource : ¬source <+: path ++ [n] := by
                intro isSource
                have found := sourceLast isSource ▸ sourceFound
                rw [find_concat, front, Option.bind_some] at found
                exact vacated (child_some found).2
              rw [if_neg vacated, if_neg notSource, find_concat, front, Option.bind_some]

lemma WellFormed.replaceRow (wf : S.WellFormed rows) (sourceFound : S.find rows source = some r)
    (sameId : S.id moved = S.id r) (sameDir : S.isDir moved = S.isDir r)
    (parentFound : S.find rows parentPath = some p) (dir : S.isDir p = true)
    (below : S.parent moved = S.id p) (free : S.find rows (parentPath ++ [S.name moved]) = none)
    (outside : ¬source <+: parentPath) : S.WellFormed (S.replaceRow rows moved) := by
  have find_eq := wf.find_replaceRow sourceFound sameId parentFound below free outside
  have freePlace : S.child rows (S.parent moved) (S.name moved) = none := by
    rw [find_concat, parentFound, Option.bind_some] at free
    rw [below, free]
  have cases_of := @mem_replaceRow ρ ι ν _ S rows r moved (find_mem sourceFound) sameId
  refine ⟨?_, wf.places_replaceRow freePlace, ?_, ?_, ?_, ?_⟩
  · rw [map_id_replaceRow]
    exact wf.ids
  · intro s member
    rcases cases_of.mp member with rfl | ⟨old, -⟩
    · exact sameId ▸ wf.above r (find_mem sourceFound)
    · exact wf.above s old
  · intro s member
    rcases cases_of.mp member with rfl | ⟨old, other⟩
    · refine ⟨parentPath ++ [S.name s], ?_⟩
      have empty : (parentPath ++ [S.name s]).drop (parentPath.length + 1) = [] := by simp
      rw [find_eq, if_pos List.prefix_rfl, empty, List.append_nil, sourceFound, Option.map_some,
        if_pos sameId.symm]
    · obtain ⟨path, found⟩ := wf.reached s old
      by_cases inside : source <+: path
      · obtain ⟨rest, rfl⟩ := inside
        refine ⟨parentPath ++ [S.name moved] ++ rest, ?_⟩
        have dropRest :
            (parentPath ++ [S.name moved] ++ rest).drop (parentPath.length + 1) = rest := by
          rw [List.drop_append_of_le_length (by simp)]
          simp
        rw [find_eq, if_pos (List.prefix_append _ rest), dropRest, found, Option.map_some,
          if_neg other]
      · refine ⟨path, ?_⟩
        have notTarget : ¬parentPath ++ [S.name moved] <+: path := by
          rintro ⟨rest, rfl⟩
          rw [find_none_append free] at found
          cases found
        rw [find_eq, if_neg notTarget, if_neg inside, found]
  · intro q first c second parent
    have oldChild : ∀ d ∈ rows, S.parent c = S.id d → S.isDir d = true := by
      intro d present placed
      rcases cases_of.mp second with rfl | ⟨old, -⟩
      · exact wf.eq_of_id present (find_mem parentFound) (placed.symm.trans below) ▸ dir
      · exact wf.dirs d present c old placed
    rcases cases_of.mp first with rfl | ⟨old, -⟩
    · exact sameDir.trans (oldChild r (find_mem sourceFound) (parent.trans sameId))
    · exact oldChild q old parent
  · intro s member root
    rcases cases_of.mp member with rfl | ⟨old, -⟩
    · exact absurd (below.symm.trans root) (wf.above p (find_mem parentFound))
    · exact wf.rootDir s old root

end Reparent

end TgFile.Tree.Schema
