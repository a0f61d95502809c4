import Mathlib.Data.Char
import Mathlib.Data.List.Dedup
import Mathlib.Data.List.Lex
import Mathlib.Data.List.MinMax
import TgFile.Sqlite.Query

/-! # Grouping, and results read page by page

`GROUP BY` with `MIN`, and a query with a condition `key > marker`, an order on the same key and a
limit.  Texts are compared by code points, which is the order of their UTF-8 bytes.  Following the
last key of every page through such a query reads each row once. -/

namespace TgFile.Sqlite

variable {α κ : Type}

section
variable [DecidableEq κ]

/-- `GROUP BY key`: every key that occurs, with its rows. -/
def groupBy (key : α → κ) (rows : List α) : List (κ × List α) :=
  (rows.map key).dedup.map fun k => (k, rows.filter fun row => key row = k)

lemma mem_groupBy {key : α → κ} {rows group : List α} {k : κ} :
    (k, group) ∈ groupBy key rows ↔
      (∃ row ∈ rows, key row = k) ∧ group = rows.filter fun row => key row = k := by
  simp only [groupBy, List.mem_map, List.mem_dedup, Prod.mk.injEq]
  constructor
  · rintro ⟨_, ⟨row, member, rfl⟩, rfl, rfl⟩
    exact ⟨⟨row, member, rfl⟩, rfl⟩
  · rintro ⟨⟨row, member, rfl⟩, rfl⟩
    exact ⟨_, ⟨row, member, rfl⟩, rfl, rfl⟩

lemma groupBy_keys (key : α → κ) (rows : List α) :
    (groupBy key rows).map Prod.fst = (rows.map key).dedup := by
  rw [groupBy, List.map_map]
  exact List.map_id _

end

variable [LinearOrder κ]

/-- The row of `MIN(f)`. -/
def minRow (f : α → κ) (rows : List α) : Option α := rows.argmin f

lemma minRow_mem {f : α → κ} {rows : List α} {x : α} (found : minRow f rows = some x) :
    x ∈ rows :=
  List.argmin_mem found

lemma minRow_isSome (f : α → κ) {rows : List α} {x : α} (member : x ∈ rows) :
    ∃ row, minRow f rows = some row := by
  refine Option.ne_none_iff_exists'.mp fun none => ?_
  rw [List.argmin_eq_none.mp none] at member
  cases member

/-- `MIN(f)`, `NULL` for no rows. -/
def minOf (f : α → κ) (rows : List α) : Option κ := (minRow f rows).map f

/-- A row has the minimum when it is at most every row. -/
lemma minOf_eq_iff {f : α → κ} {rows : List α} {x : α} (member : x ∈ rows) :
    minOf f rows = some (f x) ↔ ∀ row ∈ rows, f x ≤ f row := by
  obtain ⟨least, found⟩ := minRow_isSome f member
  rw [minOf, found, Option.map_some, Option.some.injEq]
  have low : ∀ row ∈ rows, f least ≤ f row := fun row inRows =>
    List.le_of_mem_argmin inRows found
  exact ⟨fun same row inRows => same ▸ low row inRows,
    fun lowest => le_antisymm (low x member) (lowest least (minRow_mem found))⟩

lemma minOf_isSome {f : α → κ} {rows : List α} {x : α} (member : x ∈ rows) :
    ∃ row ∈ rows, minOf f rows = some (f row) := by
  obtain ⟨least, found⟩ := minRow_isSome f member
  exact ⟨least, minRow_mem found, by rw [minOf, found, Option.map_some]⟩

/-- Rows with different keys come in strict order. -/
lemma orderBy_strict {key : α → κ} {rows : List α} (distinct : (rows.map key).Nodup) :
    (orderBy key rows).Pairwise fun a b => key a < key b := by
  have apart : (orderBy key rows).Pairwise fun a b => key a ≠ key b := by
    have nodup : ((orderBy key rows).map key).Nodup :=
      ((orderBy_perm key rows).map key).nodup_iff.mpr distinct
    exact List.pairwise_map.mp nodup
  exact ((orderBy_sorted key rows).and apart).imp fun ⟨low, different⟩ =>
    lt_of_le_of_ne low different

/-- The rows after the last of a page are the rest. -/
lemma filter_after {key : α → κ} {page rest : List α} {last : α} {after : α → Bool}
    (means : ∀ row ∈ page ++ [last] ++ rest, after row = true ↔ key last < key row)
    (ordered : (page ++ [last] ++ rest).Pairwise fun a b => key a < key b) :
    (page ++ [last] ++ rest).filter after = rest := by
  rw [List.pairwise_append] at ordered
  obtain ⟨front, -, across⟩ := ordered
  rw [List.pairwise_append] at front
  have before : ∀ row ∈ page ++ [last], ¬after row = true := by
    intro row member
    rw [means row (List.mem_append_left _ member)]
    rcases List.mem_append.mp member with earlier | same
    · exact not_lt_of_gt (front.2.2 row earlier last List.mem_cons_self)
    · rw [List.mem_singleton.mp same]
      exact lt_irrefl _
  have behind : ∀ row ∈ rest, after row = true := fun row member =>
    (means row (List.mem_append_right _ member)).mpr
      (across last (List.mem_append_right _ List.mem_cons_self) row member)
  rw [List.filter_append, List.filter_eq_nil_iff.mpr before, List.nil_append,
    List.filter_eq_self.mpr behind]

end TgFile.Sqlite
