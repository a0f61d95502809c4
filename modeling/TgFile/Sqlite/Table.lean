import TgFile.Errors
import TgFile.Go.Result

/-! # Statements on tables with constraints

A table is the list of its rows in row-id order.  `clash a b` says that the rows `a` and `b` may
not both be present; an insert or an update that would break this fails, and an update runs row by
row, so it also fails when a later row would have made room. -/

namespace TgFile.Sqlite

open Result

variable {α : Type}

/-- `INSERT`. -/
def insertRow (clash : α → α → Bool) (rows : List α) (row : α) : Except Err (List α) := do
  require (∀ other ∈ rows, clash row other = false) Err.constraint
  pure (rows ++ [row])

/-- `UPDATE ... SET set WHERE selected`, over the rows after those already done. -/
def updateRows (clash : α → α → Bool) (selected : α → Bool) (set : α → α) :
    List α → List α → Except Err (List α)
  | done, [] => .ok done
  | done, row :: rows =>
    if selected row then do
      require (∀ other ∈ done ++ rows, clash (set row) other = false) Err.constraint
      updateRows clash selected set (done ++ [set row]) rows
    else updateRows clash selected set (done ++ [row]) rows

lemma insertRow_ok {clash : α → α → Bool} {rows rows' : List α} {row : α} :
    insertRow clash rows row = .ok rows' ↔
      (∀ other ∈ rows, clash row other = false) ∧ rows' = rows ++ [row] := by
  simp only [insertRow, bind_ok, require_ok, pure_ok]
  constructor
  · rintro ⟨_, free, same⟩
    exact ⟨free, same.symm⟩
  · rintro ⟨free, same⟩
    exact ⟨(), free, same.symm⟩

/-- An update that succeeds changes the selected rows and no other. -/
lemma updateRows_ok {clash : α → α → Bool} {selected : α → Bool} {set : α → α}
    {done rows rows' : List α} (run : updateRows clash selected set done rows = .ok rows') :
    rows' = done ++ rows.map fun row => if selected row then set row else row := by
  induction rows generalizing done with
  | nil =>
    cases run
    simp
  | cons row rows ih =>
    unfold updateRows at run
    split_ifs at run with hit
    · simp only [bind_ok, require_ok] at run
      obtain ⟨_, -, rest⟩ := run
      rw [ih rest]
      simp [hit]
    · rw [ih run]
      simp [hit]

/-- An update that succeeds leaves no two rows that clash. -/
lemma updateRows_pairwise {clash : α → α → Bool} {selected : α → Bool} {set : α → α}
    {done rows rows' : List α} (symmetric : ∀ a b, clash a b = clash b a)
    (apart : (done ++ rows).Pairwise fun a b => clash a b = false)
    (run : updateRows clash selected set done rows = .ok rows') :
    rows'.Pairwise fun a b => clash a b = false := by
  induction rows generalizing done with
  | nil =>
    cases run
    simpa using apart
  | cons row rows ih =>
    unfold updateRows at run
    have middle : done ++ row :: rows = (done ++ [row]) ++ rows := by simp
    split_ifs at run with hit
    · simp only [bind_ok, require_ok] at run
      obtain ⟨_, free, rest⟩ := run
      refine ih ?_ rest
      simp only [List.append_assoc, List.singleton_append, List.pairwise_append,
        List.pairwise_cons, List.mem_cons] at apart free ⊢
      obtain ⟨front, ⟨-, back⟩, across⟩ := apart
      refine ⟨front, ⟨fun b member => free b (List.mem_append_right _ member), back⟩, ?_⟩
      rintro a member b (rfl | later)
      · rw [symmetric]
        exact free a (List.mem_append_left _ member)
      · exact across a member b (.inr later)
    · exact ih (middle ▸ apart) run

end TgFile.Sqlite
