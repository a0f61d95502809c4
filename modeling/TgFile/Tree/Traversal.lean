import TgFile.Tree.Rows

/-! # Traversals of a row tree

Recursive walks over a table bound their depth by an explicit number.  The walks of this module
list a subtree with the path of every row; a bound above the size of the table is never reached,
so the lists are exactly the subtree. -/

namespace TgFile.Tree.Schema

variable {ρ ι ν : Type} [DecidableEq ι] [DecidableEq ν] (S : Schema ρ ι ν)

/-- A statement that lists the children of an id. -/
structure Listing (rows : List ρ) (kids : ι → List ρ) : Prop where
  mem : ∀ pid r, r ∈ kids pid ↔ r ∈ rows ∧ S.parent r = pid
  nodup : ∀ pid, (kids pid).Nodup

/-- Children before their parent. -/
def postorder (kids : ι → List ρ) : Nat → List ν → ρ → List (List ν × ρ)
  | 0, _, _ => []
  | depth + 1, path, r =>
    (if S.isDir r then
      (kids (S.id r)).flatMap fun c => postorder kids depth (path ++ [S.name c]) c
    else []) ++ [(path, r)]

/-- A parent before its children. -/
def preorder (kids : ι → List ρ) : Nat → List ν → ρ → List (List ν × ρ)
  | 0, _, _ => []
  | depth + 1, path, r =>
    (path, r) :: (if S.isDir r then
      (kids (S.id r)).flatMap fun c => preorder kids depth (path ++ [S.name c]) c
    else [])

variable {S} {rows : List ρ} {kids : ι → List ρ}

section
variable (wf : S.WellFormed rows) (listing : S.Listing rows kids)
include wf listing

/-- A row strictly below a path lies below one of the listed children. -/
lemma WellFormed.mem_kids_of_find {path rest : List ν} {n : ν} {r x : ρ}
    (found : S.find rows path = some r) (deeper : S.find rows (path ++ n :: rest) = some x) :
    S.isDir r = true ∧ ∃ c ∈ kids (S.id r), S.name c = n ∧
      S.find rows (path ++ [n]) = some c := by
  have split : path ++ n :: rest = path ++ [n] ++ rest := by simp
  rw [split] at deeper
  obtain ⟨c, front⟩ := find_front deeper
  obtain ⟨q, parent, below, name⟩ := find_concat_some front
  obtain rfl : q = r := Option.some.inj (parent.symm.trans found)
  exact ⟨wf.isDir_of_find_concat front found, c,
    (listing.mem _ _).mpr ⟨find_mem front, below⟩, name, front⟩

lemma WellFormed.find_kid {path : List ν} {r c : ρ} (found : S.find rows path = some r)
    (kid : c ∈ kids (S.id r)) : S.find rows (path ++ [S.name c]) = some c :=
  have ⟨member, below⟩ := (listing.mem _ _).mp kid
  wf.find_concat_eq found member below

/-- What a bounded walk lists: the rows above the bound of the subtree. -/
lemma WellFormed.mem_postorder_bounded (depth : Nat) {path : List ν} {r : ρ}
    (found : S.find rows path = some r) (query : List ν) (x : ρ) :
    (query, x) ∈ S.postorder kids depth path r ↔
      ∃ rest, query = path ++ rest ∧ rest.length < depth ∧ S.find rows query = some x := by
  induction depth generalizing path r with
  | zero => simp [postorder]
  | succ depth ih =>
    constructor
    · intro member
      rcases List.mem_append.mp member with deeper | here
      · split_ifs at deeper with dir
        · obtain ⟨c, kid, inside⟩ := List.mem_flatMap.mp deeper
          obtain ⟨rest, same, short, target⟩ :=
            (ih (wf.find_kid listing found kid)).mp inside
          exact ⟨S.name c :: rest, by simpa using same, by simpa using short, target⟩
        · cases deeper
      · obtain ⟨rfl, rfl⟩ := Prod.mk.inj (List.mem_singleton.mp here)
        exact ⟨[], (List.append_nil _).symm, Nat.succ_pos depth, found⟩
    · rintro ⟨rest, rfl, short, target⟩
      cases rest with
      | nil =>
        rw [List.append_nil] at target ⊢
        obtain rfl : r = x := Option.some.inj (found.symm.trans target)
        exact List.mem_append_right _ (List.mem_singleton_self _)
      | cons n rest =>
        obtain ⟨dir, c, kid, rfl, front⟩ := wf.mem_kids_of_find listing found target
        refine List.mem_append_left _ ?_
        rw [if_pos dir]
        refine List.mem_flatMap.mpr ⟨c, kid, (ih front).mpr ⟨rest, ?_, ?_, target⟩⟩
        · simp
        · simpa using short

end

omit [DecidableEq ι] [DecidableEq ν] in
lemma mem_preorder_iff_mem_postorder (depth : Nat) (path : List ν) (r : ρ) (entry : List ν × ρ) :
    entry ∈ S.preorder kids depth path r ↔ entry ∈ S.postorder kids depth path r := by
  induction depth generalizing path r with
  | zero => rfl
  | succ depth ih =>
    rw [preorder, postorder, List.mem_cons, List.mem_append, List.mem_singleton, or_comm]
    refine or_congr_left ?_
    split_ifs
    · simp only [List.mem_flatMap, ih]
    · rfl

/-- **A walk deeper than the table lists exactly the subtree.** -/
lemma WellFormed.mem_postorder (wf : S.WellFormed rows) (listing : S.Listing rows kids)
    {depth : Nat} (enough : rows.length ≤ depth) {path : List ν} {r : ρ}
    (found : S.find rows path = some r) (query : List ν) (x : ρ) :
    (query, x) ∈ S.postorder kids depth path r ↔
      path <+: query ∧ S.find rows query = some x := by
  rw [wf.mem_postorder_bounded listing depth found]
  constructor
  · rintro ⟨rest, rfl, -, target⟩
    exact ⟨List.prefix_append path rest, target⟩
  · rintro ⟨⟨rest, rfl⟩, target⟩
    have bound := wf.length_lt target
    rw [List.length_append] at bound
    exact ⟨rest, rfl, by omega, target⟩

lemma WellFormed.mem_preorder (wf : S.WellFormed rows) (listing : S.Listing rows kids)
    {depth : Nat} (enough : rows.length ≤ depth) {path : List ν} {r : ρ}
    (found : S.find rows path = some r) (query : List ν) (x : ρ) :
    (query, x) ∈ S.preorder kids depth path r ↔
      path <+: query ∧ S.find rows query = some x := by
  rw [mem_preorder_iff_mem_postorder, wf.mem_postorder listing enough found]

end TgFile.Tree.Schema
