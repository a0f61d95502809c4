import TgFile.Directory.Journal

/-! # What a copy and a move leave behind

The rows at every path after `CopyDepth` and `Move`, with their ids and, away from the touched
parents, their times. -/

namespace TgFile.Directory

open Go Path

variable {d d' : Directory} {source target : List Text} {overwritten : List Entry}

/-- The directory after the transaction of a call: a failed one rolls back. -/
def committed {α : Type} (d : Directory) : Except Err (Directory × α) → Directory
  | .ok (d', _) => d'
  | .error _ => d

/-- The listed rows are those below a path before, and none of them is left. -/
structure Overwrites (d d' : Directory) (target : List Text) (overwritten : List Entry) : Prop where
  listed : ∀ x, x ∈ overwritten ↔ ∃ q, target <+: q ∧ d.find q = some x
  gone : ∀ x ∈ overwritten, ∀ q y, d'.find q = some y → y.entryID ≠ x.entryID

/-- The pairs of rows at corresponding paths, one to one. -/
structure PairsUp (d d' : Directory) (source target : List Text) (recursive : Bool)
    (pairs : List (Entry × Entry)) : Prop where
  listed : ∀ pair, pair ∈ pairs ↔ ∃ rest, (rest = [] ∨ recursive = true) ∧
    d.find (source ++ rest) = some pair.1 ∧ d'.find (target ++ rest) = some pair.2
  oneToOne : ∀ first ∈ pairs, ∀ second ∈ pairs,
    first.1.entryID = second.1.entryID ↔ first.2.entryID = second.2.entryID

/-- A row that was at a path below the target is not one that was kept at another path. -/
lemma Valid.ne_of_view (valid : d.Valid) {p q : List Text} {x y : Entry} (was : d.find p = some x)
    (kept : d.view q = some y.untimed) (other : p ≠ q) : y.entryID ≠ x.entryID := by
  have shown : d.view p = some x.untimed := view_eq_some.mpr ⟨x, was, rfl⟩
  exact fun same => other (valid.path_unique_of_view shown kept same.symm)

/-- The overwritten rows are gone when no row below the target has one of their ids, and each other
row was kept or comes from a path outside the target. -/
lemma Valid.overwrites (valid : d.Valid)
    (listed : ∀ x, x ∈ overwritten ↔ ∃ q, target <+: q ∧ d.find q = some x)
    (origin : ∀ q (y : Entry), d'.view q = some y.untimed → d.nextID ≤ y.entryID ∨
      ∃ p, ∃ z : Entry, ¬target <+: p ∧ d.view p = some z.untimed ∧ y.entryID = z.entryID) :
    Overwrites d d' target overwritten := by
  refine ⟨listed, fun x member q y found => ?_⟩
  obtain ⟨p, below, was⟩ := (listed x).mp member
  obtain fresh | ⟨p', z, outside, kept, same⟩ := origin q y (view_eq_some.mpr ⟨y, found, rfl⟩)
  · have old := valid.fresh x (Tree.Schema.find_mem was)
    omega
  · rw [same]
    exact valid.ne_of_view was kept fun equal => outside (equal ▸ below)

lemma CopiedOver.overwrites {recursive : Bool} (valid : d.Valid)
    (copied : CopiedOver d d' source target recursive)
    (listed : ∀ x, x ∈ overwritten ↔ ∃ q, target <+: q ∧ d.find q = some x) :
    Overwrites d d' target overwritten := by
  refine valid.overwrites listed fun q y shown => ?_
  by_cases inside : target <+: q
  · obtain ⟨rest, rfl⟩ := inside
    have made := copied.made rest
    rw [shown] at made
    generalize d.covered source recursive rest = original at made
    cases made with
    | some copy => exact .inl copy.fresh
  · rw [copied.kept q inside] at shown
    exact .inr ⟨q, y, inside, shown, rfl⟩

lemma CopiedOver.pairsUp {recursive : Bool} {pairs : List (Entry × Entry)} (valid : d.Valid)
    (copied : CopiedOver d d' source target recursive)
    (listed : ∀ pair, pair ∈ pairs ↔ ∃ rest, (rest = [] ∨ recursive = true) ∧
      d'.find (source ++ rest) = some pair.1 ∧ d'.find (target ++ rest) = some pair.2) :
    PairsUp d d' source target recursive pairs := by
  have same : ∀ rest, d'.find (source ++ rest) = d.find (source ++ rest) := fun rest => by
    have apart := apart_append copied.outside copied.inside rest []
    rw [List.append_nil] at apart
    refine copied.rows _ apart fun parent => copied.outside ?_
    exact (List.prefix_append source rest).trans (parent ▸ List.dropLast_prefix target)
  simp only [same] at listed
  refine ⟨listed, fun first firstIn second secondIn => ?_⟩
  obtain ⟨rest₁, -, source₁, target₁⟩ := (listed first).mp firstIn
  obtain ⟨rest₂, -, source₂, target₂⟩ := (listed second).mp secondIn
  constructor
  · intro ids
    have paths := List.append_cancel_left (valid.tree.path_unique_of_id source₁ source₂ ids)
    rw [paths, target₂] at target₁
    rw [Option.some.inj target₁]
  · intro ids
    have paths := List.append_cancel_left (copied.valid.tree.path_unique_of_id target₁ target₂ ids)
    rw [paths, source₂] at source₁
    rw [Option.some.inj source₁]

lemma Moved.overwrites (valid : d.Valid) (moved : Moved d d' source target)
    (listed : ∀ x, x ∈ overwritten ↔ ∃ q, target <+: q ∧ d.find q = some x) :
    Overwrites d d' target overwritten := by
  refine valid.overwrites listed fun q y shown => .inr ?_
  by_cases inside : target <+: q
  · obtain ⟨rest, rfl⟩ := inside
    obtain ⟨parentID, n, shift⟩ := moved.moved
    rw [shift rest, Option.map_eq_some_iff] at shown
    obtain ⟨e, atSource, same⟩ := shown
    obtain ⟨z, -, rfl⟩ := view_eq_some.mp atSource
    have sameID : y.entryID = z.entryID := by
      rw [show y.entryID = y.untimed.entryID from rfl, ← same]
      split_ifs <;> rfl
    have apart := apart_append moved.outside moved.inside rest []
    rw [List.append_nil] at apart
    exact ⟨_, z, apart, atSource, sameID⟩
  · by_cases cut : source <+: q
    · rw [moved.cut q cut] at shown
      cases shown
    · rw [moved.kept q cut inside] at shown
      exact ⟨q, y, inside, shown, rfl⟩

/-- **`CopyDepth`** between different paths: the rows at and below the destination are copies with
new ids of those of the source, the pairs match them one to one, the overwritten rows are what the
destination held and are gone, and the other rows are the same but for the time of the
destination's parent.  A failed copy changes nothing. -/
theorem copyDepth_semantics (valid : d.Valid) {now : Int} {src dst : Text}
    {overwrite recursive : Bool} (absSrc : isAbs src) (absDst : isAbs dst)
    (different : elements src ≠ elements dst) :
    (∀ pairs overwritten,
      d.copyDepth now src dst overwrite recursive = .ok (d', pairs, overwritten) →
      CopiedOver d d' (elements src) (elements dst) recursive ∧
        PairsUp d d' (elements src) (elements dst) recursive pairs ∧
        Overwrites d d' (elements dst) overwritten) ∧
    ∀ err, d.copyDepth now src dst overwrite recursive = .error err →
      d.committed (d.copyDepth now src dst overwrite recursive) = d := by
  refine ⟨fun pairs overwritten run => ?_, fun err failed => by rw [failed]; rfl⟩
  rcases valid.copyDepth_spec absSrc absDst run with ⟨-, -, -, same⟩ | ⟨copied, dropped, listed⟩
  · exact absurd same different
  · exact ⟨copied, copied.pairsUp valid listed, copied.overwrites valid dropped⟩

/-- The collections `/m` with `f` and `s/g` below it, and `/b` with `h`. -/
def treesMB : Directory :=
  [DirectoryCall.mkdir ⟨"/m".toList, by decide, by decide⟩,
    .create ⟨"/m/f".toList, by decide, by decide⟩ 3 (some 7),
    .mkdir ⟨"/m/s".toList, by decide, by decide⟩,
    .create ⟨"/m/s/g".toList, by decide, by decide⟩ 0 (some 8),
    .mkdir ⟨"/b".toList, by decide, by decide⟩,
    .create ⟨"/b/h".toList, by decide, by decide⟩ 1 (some 9)].foldl
      (fun d call => DirectoryCall.commit d (0, call)) empty

lemma valid_treesMB : treesMB.Valid := by
  rw [treesMB, ← List.foldl_map]
  exact (journaled_empty.commits _).valid

/-- `/m` is copied over `/b`. -/
theorem treesMB_copied : ∃ d' pairs overwritten,
    treesMB.copyDepth 1 "/m".toList "/b".toList true true = .ok (d', pairs, overwritten) ∧
      pairs.length = 4 ∧ overwritten.length = 2 ∧ PairsUp treesMB d' [['m']] [['b']] true pairs ∧
      Overwrites treesMB d' [['b']] overwritten := by
  obtain ⟨⟨d', pairs, overwritten⟩, run⟩ := Result.exists_of_succeeds
    (show Result.succeeds (treesMB.copyDepth 1 "/m".toList "/b".toList true true) = true by
      decide +kernel)
  have sizes : (treesMB.copyDepth 1 "/m".toList "/b".toList true true).toOption.map
      (fun result => (result.2.1.length, result.2.2.length)) = some (4, 2) := by decide +kernel
  rw [run] at sizes
  obtain ⟨four, two⟩ := Prod.mk.inj (Option.some.inj sizes)
  obtain ⟨-, pairsUp, overwrites⟩ :=
    (copyDepth_semantics valid_treesMB rfl rfl (by decide)).1 pairs overwritten run
  exact ⟨d', pairs, overwritten, run, four, two, pairsUp, overwrites⟩

/-- **`Move`** between different paths: the rows below the source are below the destination with
their ids, the overwritten rows are what the destination held and are gone, and the other rows are
the same but for the times of the two parents.  A failed move changes nothing. -/
theorem move_semantics (valid : d.Valid) {now : Int} {src dst : Text} {overwrite : Bool}
    (absSrc : isAbs src) (absDst : isAbs dst) (different : elements src ≠ elements dst) :
    (∀ overwritten, d.move now src dst overwrite = .ok (d', overwritten) →
      Moved d d' (elements src) (elements dst) ∧ Overwrites d d' (elements dst) overwritten) ∧
    ∀ err, d.move now src dst overwrite = .error err →
      d.committed (d.move now src dst overwrite) = d := by
  refine ⟨fun overwritten run => ?_, fun err failed => by rw [failed]; rfl⟩
  rcases valid.move_spec absSrc absDst run with ⟨-, -, same⟩ | ⟨moved, dropped⟩
  · exact absurd same different
  · exact ⟨moved, moved.overwrites valid dropped⟩

/-- `/m` is moved over `/b`. -/
theorem treesMB_moved : ∃ d' overwritten,
    treesMB.move 1 "/m".toList "/b".toList true = .ok (d', overwritten) ∧ overwritten.length = 2 ∧
      Moved treesMB d' [['m']] [['b']] ∧ Overwrites treesMB d' [['b']] overwritten := by
  obtain ⟨⟨d', overwritten⟩, run⟩ := Result.exists_of_succeeds
    (show Result.succeeds (treesMB.move 1 "/m".toList "/b".toList true) = true by decide +kernel)
  have size : (treesMB.move 1 "/m".toList "/b".toList true).toOption.map
      (fun result => result.2.length) = some 2 := by decide +kernel
  rw [run] at size
  obtain ⟨moved, overwrites⟩ :=
    (move_semantics valid_treesMB rfl rfl (by decide)).1 overwritten run
  exact ⟨d', overwritten, run, Option.some.inj size, moved, overwrites⟩

end TgFile.Directory
