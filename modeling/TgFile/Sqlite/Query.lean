import Mathlib.Data.List.Sort

/-! # Query clauses of SQLite

`ORDER BY` on a key and the loop that reads a whole result through `LIMIT` and
`OFFSET` pages. -/

namespace TgFile.Sqlite

variable {α κ : Type} [LinearOrder κ]

/-- `ORDER BY key ASC`; rows with equal keys keep their table order. -/
def orderBy (key : α → κ) (rows : List α) : List α :=
  rows.insertionSort fun a b => key a ≤ key b

lemma orderBy_perm (key : α → κ) (rows : List α) : (orderBy key rows).Perm rows :=
  List.perm_insertionSort _ rows

@[simp]
lemma mem_orderBy {key : α → κ} {rows : List α} {x : α} : x ∈ orderBy key rows ↔ x ∈ rows :=
  (orderBy_perm key rows).mem_iff

lemma orderBy_sorted (key : α → κ) (rows : List α) :
    (orderBy key rows).Pairwise fun a b => key a ≤ key b := by
  have total : Std.Total fun a b : α => key a ≤ key b := ⟨fun a b => le_total (key a) (key b)⟩
  have transitive : IsTrans α fun a b => key a ≤ key b := ⟨fun _ _ _ => le_trans⟩
  exact List.pairwise_insertionSort _ rows

/-- Rows that are in order stay as they are. -/
lemma orderBy_of_sorted {key : α → κ} {rows : List α}
    (sorted : rows.Pairwise fun a b => key a ≤ key b) : orderBy key rows = rows :=
  sorted.insertionSort_eq

/-- Read pages of `limit` rows until a page comes back short. -/
def readPages (rows : List α) (limit : Nat) : Nat → Nat → List α
  | 0, _ => []
  | pages + 1, offset =>
    let page := (rows.drop offset).take limit
    if page.length < limit then page
    else page ++ readPages rows limit pages (offset + limit)

/-- Reading enough pages reads every row once, in order. -/
lemma readPages_eq (rows : List α) {limit : Nat} (positive : 0 < limit) (pages offset : Nat)
    (enough : rows.length < offset + pages) : readPages rows limit pages offset =
      rows.drop offset := by
  induction pages generalizing offset with
  | zero => exact (List.drop_eq_nil_of_le (by omega)).symm
  | succ pages ih =>
    simp only [readPages, List.length_take, List.length_drop]
    split_ifs with short
    · exact List.take_of_length_le (by rw [List.length_drop]; omega)
    · rw [ih (offset + limit) (by omega), ← List.drop_drop]
      exact List.take_append_drop limit (rows.drop offset)

end TgFile.Sqlite
