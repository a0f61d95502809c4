import Mathlib.Data.List.Basic
import Mathlib.Data.List.Induction
import Mathlib.Data.List.Nodup
import Mathlib.Data.List.Perm.Subperm

/-! # Trees stored as rows with parent pointers

A table whose rows carry an id, the id of their parent and a name is read as a tree: a path, the
list of names below the root row, denotes at most one row.  This module fixes the reading and
the invariant under which it is total on rows and injective on paths. -/

namespace TgFile.Tree

/-- How the rows of a table state their place in a tree. -/
structure Schema (ρ ι ν : Type) where
  id : ρ → ι
  parent : ρ → ι
  name : ρ → ν
  isDir : ρ → Bool
  /-- The parent id of the root row, the id of no row. -/
  above : ι
  rootName : ν

variable {ρ ι ν : Type} [DecidableEq ι] [DecidableEq ν]

namespace Schema

variable (S : Schema ρ ι ν)

/-- The row with the given parent and name. -/
def child (rows : List ρ) (pid : ι) (n : ν) : Option ρ :=
  rows.find? fun r => S.parent r = pid ∧ S.name r = n

/-- The row reached from a row by descending along names. -/
def walk (rows : List ρ) : ρ → List ν → Option ρ
  | r, [] => some r
  | r, n :: path => (S.child rows (S.id r) n).bind fun c => walk rows c path

/-- The row a path denotes. -/
def find (rows : List ρ) (path : List ν) : Option ρ :=
  (S.child rows S.above S.rootName).bind fun root => S.walk rows root path

/-- The rows form a tree: ids and places are unique, every row is reached from the root, and only
directories have children. -/
structure WellFormed (rows : List ρ) : Prop where
  ids : (rows.map S.id).Nodup
  places : (rows.map fun r => (S.parent r, S.name r)).Nodup
  above : ∀ r ∈ rows, S.id r ≠ S.above
  reached : ∀ r ∈ rows, ∃ path, S.find rows path = some r
  dirs : ∀ p ∈ rows, ∀ c ∈ rows, S.parent c = S.id p → S.isDir p = true
  rootDir : ∀ r ∈ rows, S.parent r = S.above → S.isDir r = true

variable {S} {rows : List ρ}

lemma child_some {pid : ι} {n : ν} {r : ρ} (found : S.child rows pid n = some r) :
    r ∈ rows ∧ S.parent r = pid ∧ S.name r = n :=
  ⟨List.mem_of_find?_eq_some found, by
    have test := List.find?_some found
    simpa using test⟩

/-- Where no two rows share a place, a place names exactly the row stored there. -/
lemma child_eq_of_places (places : (rows.map fun r => (S.parent r, S.name r)).Nodup) {pid : ι}
    {n : ν} {r : ρ} : S.child rows pid n = some r ↔ r ∈ rows ∧ S.parent r = pid ∧ S.name r = n := by
  refine ⟨child_some, fun ⟨member, parent, name⟩ => ?_⟩
  cases found : S.child rows pid n with
  | none =>
    have absent := List.find?_eq_none.mp found r member
    simp [parent, name] at absent
  | some s =>
    obtain ⟨present, sParent, sName⟩ := child_some found
    exact congrArg some (List.inj_on_of_nodup_map places present member
      (Prod.ext (sParent.trans parent.symm) (sName.trans name.symm)))

lemma walk_concat (r : ρ) (path : List ν) (n : ν) :
    S.walk rows r (path ++ [n]) =
      (S.walk rows r path).bind fun p => S.child rows (S.id p) n := by
  induction path generalizing r with
  | nil =>
    simp only [List.nil_append, walk, Option.bind_some]
    cases S.child rows (S.id r) n <;> rfl
  | cons m path ih =>
    simp only [List.cons_append, walk]
    cases S.child rows (S.id r) m with
    | none => rfl
    | some c => exact ih c

lemma find_nil : S.find rows [] = S.child rows S.above S.rootName := by
  unfold find
  cases S.child rows S.above S.rootName <;> rfl

/-- A longer path is resolved below its parent. -/
lemma find_concat (path : List ν) (n : ν) :
    S.find rows (path ++ [n]) =
      (S.find rows path).bind fun p => S.child rows (S.id p) n := by
  unfold find
  cases S.child rows S.above S.rootName with
  | none => rfl
  | some root => exact walk_concat root path n

/-- Resolving an appended path descends from the row its front denotes. -/
lemma find_append (path rest : List ν) :
    S.find rows (path ++ rest) = (S.find rows path).bind fun p => S.walk rows p rest := by
  induction rest using List.reverseRecOn with
  | nil =>
    rw [List.append_nil]
    cases S.find rows path <;> rfl
  | append_singleton rest n ih =>
    rw [← List.append_assoc, find_concat, ih]
    cases S.find rows path with
    | none => rfl
    | some p => exact (walk_concat p rest n).symm

lemma find_none_append {path : List ν} (missing : S.find rows path = none) (rest : List ν) :
    S.find rows (path ++ rest) = none := by
  rw [find_append, missing, Option.bind_none]

lemma find_mem {path : List ν} {r : ρ} (found : S.find rows path = some r) : r ∈ rows := by
  induction path using List.reverseRecOn with
  | nil =>
    rw [find_nil] at found
    exact (child_some found).1
  | append_singleton path n _ =>
    rw [find_concat] at found
    obtain ⟨p, -, below⟩ := Option.bind_eq_some_iff.mp found
    exact (child_some below).1

/-- A nonempty path denotes a row below the row of its parent path. -/
lemma find_concat_some {path : List ν} {n : ν} {r : ρ}
    (found : S.find rows (path ++ [n]) = some r) :
    ∃ p, S.find rows path = some p ∧ S.parent r = S.id p ∧ S.name r = n := by
  rw [find_concat] at found
  obtain ⟨p, parent, below⟩ := Option.bind_eq_some_iff.mp found
  exact ⟨p, parent, (child_some below).2⟩

lemma find_nil_some {r : ρ} (found : S.find rows [] = some r) :
    S.parent r = S.above ∧ S.name r = S.rootName := by
  rw [find_nil] at found
  exact (child_some found).2

/-- Every front of a path that denotes a row denotes a row. -/
lemma find_front {path rest : List ν} {r : ρ} (found : S.find rows (path ++ rest) = some r) :
    ∃ p, S.find rows path = some p := by
  rw [find_append] at found
  obtain ⟨p, front, -⟩ := Option.bind_eq_some_iff.mp found
  exact ⟨p, front⟩

namespace WellFormed

variable (wf : S.WellFormed rows)
include wf

lemma eq_of_id {r s : ρ} (left : r ∈ rows) (right : s ∈ rows) (same : S.id r = S.id s) : r = s :=
  List.inj_on_of_nodup_map wf.ids left right same

lemma eq_of_place {r s : ρ} (left : r ∈ rows) (right : s ∈ rows)
    (parent : S.parent r = S.parent s) (name : S.name r = S.name s) : r = s :=
  List.inj_on_of_nodup_map wf.places left right (Prod.ext parent name)

/-- A place names exactly the row stored there. -/
lemma child_eq {pid : ι} {n : ν} {r : ρ} :
    S.child rows pid n = some r ↔ r ∈ rows ∧ S.parent r = pid ∧ S.name r = n :=
  child_eq_of_places wf.places

lemma find_concat_eq {path : List ν} {p r : ρ}
    (parent : S.find rows path = some p) (member : r ∈ rows) (below : S.parent r = S.id p) :
    S.find rows (path ++ [S.name r]) = some r := by
  rw [find_concat, parent, Option.bind_some]
  exact wf.child_eq.mpr ⟨member, below, rfl⟩

/-- The root is the only row without a parent row. -/
lemma path_eq_nil {path : List ν} {r : ρ}
    (found : S.find rows path = some r) (root : S.parent r = S.above) : path = [] := by
  induction path using List.reverseRecOn with
  | nil => rfl
  | append_singleton path n _ =>
    obtain ⟨p, front, parent, -⟩ := find_concat_some found
    exact absurd (parent.symm.trans root) (wf.above p (find_mem front))

/-- **A row has one path.** -/
lemma path_unique {left right : List ν} {r : ρ} (foundLeft : S.find rows left = some r)
    (foundRight : S.find rows right = some r) : left = right := by
  induction left using List.reverseRecOn generalizing right r with
  | nil => exact (wf.path_eq_nil foundRight (find_nil_some foundLeft).1).symm
  | append_singleton left n ih =>
    obtain ⟨p, frontLeft, parentLeft, nameLeft⟩ := find_concat_some foundLeft
    rcases List.eq_nil_or_concat' right with empty | ⟨front, m, split⟩
    · rw [empty] at foundRight
      exact absurd (parentLeft.symm.trans (find_nil_some foundRight).1)
        (wf.above p (find_mem frontLeft))
    · rw [split] at foundRight ⊢
      obtain ⟨q, frontRight, parentRight, nameRight⟩ := find_concat_some foundRight
      have same : p = q := wf.eq_of_id (find_mem frontLeft) (find_mem frontRight)
        (parentLeft.symm.trans parentRight)
      rw [ih frontLeft (same ▸ frontRight), ← nameLeft, ← nameRight]

/-- Paths that denote rows with the same id are equal. -/
lemma path_unique_of_id {left right : List ν} {r s : ρ} (foundLeft : S.find rows left = some r)
    (foundRight : S.find rows right = some s) (same : S.id r = S.id s) : left = right := by
  have rowsEq := wf.eq_of_id (find_mem foundLeft) (find_mem foundRight) same
  exact wf.path_unique foundLeft (rowsEq ▸ foundRight)

/-- The row above a proper descendant is a directory. -/
lemma isDir_of_find_concat {path : List ν} {n : ν} {p r : ρ}
    (found : S.find rows (path ++ [n]) = some r) (front : S.find rows path = some p) :
    S.isDir p = true := by
  obtain ⟨q, parent, below, -⟩ := find_concat_some found
  obtain rfl : q = p := Option.some.inj (parent.symm.trans front)
  exact wf.dirs q (find_mem front) r (find_mem found) below

/-- Without a root row the table is empty. -/
lemma rows_nil (noRoot : S.find rows [] = none) : rows = [] := by
  rcases rows with _ | ⟨r, rest⟩
  · rfl
  · obtain ⟨path, found⟩ := wf.reached r List.mem_cons_self
    rw [← List.nil_append path, find_none_append noRoot] at found
    cases found

/-- The rows on the way to a row, from the root down. -/
lemma chain {path : List ν} {r : ρ} (found : S.find rows path = some r) :
    ∃ via : List ρ, via.length = path.length + 1 ∧ via.Nodup ∧
      ∀ s ∈ via, ∃ front rest, path = front ++ rest ∧ S.find rows front = some s := by
  induction path using List.reverseRecOn generalizing r with
  | nil =>
    exact ⟨[r], rfl, List.nodup_singleton r, fun s member =>
      ⟨[], [], rfl, List.mem_singleton.mp member ▸ found⟩⟩
  | append_singleton path n ih =>
    obtain ⟨p, front, -⟩ := find_concat_some found
    obtain ⟨via, count, distinct, onPath⟩ := ih front
    refine ⟨via ++ [r], by simp [count], ?_, ?_⟩
    · refine List.nodup_append.mpr ⟨distinct, List.nodup_singleton r, ?_⟩
      intro s early t late same
      obtain rfl : t = r := List.mem_singleton.mp late
      obtain ⟨before, rest, split, foundS⟩ := onPath s early
      have longer := congrArg List.length (wf.path_unique (same ▸ foundS) found)
      simp only [split, List.length_append, List.length_singleton] at longer
      omega
    · intro s member
      rcases List.mem_append.mp member with early | late
      · obtain ⟨before, rest, split, foundS⟩ := onPath s early
        exact ⟨before, rest ++ [n], by rw [split, List.append_assoc], foundS⟩
      · exact ⟨path ++ [n], [], (List.append_nil _).symm, List.mem_singleton.mp late ▸ found⟩

/-- A path is shorter than the table is long. -/
lemma length_lt {path : List ν} {r : ρ}
    (found : S.find rows path = some r) : path.length < rows.length := by
  obtain ⟨via, count, distinct, onPath⟩ := wf.chain found
  have contained : via ⊆ rows := fun s member =>
    let ⟨_, _, _, foundS⟩ := onPath s member
    find_mem foundS
  have bound := (List.subperm_of_subset distinct contained).length_le
  omega

end WellFormed

/-- Climbing from a row along parents passes the names of a path, read backwards, and ends at a
row above which there is none. -/
inductive Climbs (S : Schema ρ ι ν) (rows : List ρ) : ρ → List ν → Prop
  | root {r : ρ} (member : r ∈ rows) (top : S.parent r = S.above) : Climbs S rows r []
  | child {p r : ρ} {path : List ν} (parent : Climbs S rows p path) (member : r ∈ rows)
      (below : S.parent r = S.id p) : Climbs S rows r (path ++ [S.name r])

/-- In a tree the path climbed from a row is the path that denotes it. -/
lemma WellFormed.climbs_iff (wf : S.WellFormed rows) {r : ρ} {path : List ν} :
    Climbs S rows r path ↔ S.find rows path = some r := by
  constructor
  · intro climbs
    induction climbs with
    | @root r member top =>
      obtain ⟨path, found⟩ := wf.reached r member
      exact wf.path_eq_nil found top ▸ found
    | child _ member below ih => exact wf.find_concat_eq ih member below
  · intro found
    induction path using List.reverseRecOn generalizing r with
    | nil => exact .root (find_mem found) (find_nil_some found).1
    | append_singleton path n ih =>
      obtain ⟨p, front, below, rfl⟩ := find_concat_some found
      exact .child (ih front) (find_mem found) below

end Schema

end TgFile.Tree
