import Mathlib.Algebra.BigOperators.Group.Finset.Basic
import Mathlib.Data.List.Basic

/-! # Reading a list page by page

A client asks for pages of sizes of its choice and passes the token of every answer on to the next
request, until an answer has no token.  The server answers from a fixed list of rows; a token stands
for the number of rows before it, and the server accepts some tokens and refuses the others. -/

namespace TgFile.Paging

variable {α β τ ρ ε : Type}

/-- The answers to a client that follows the tokens to the end, from its `k`-th request on. -/
inductive Follows (request : Nat → τ → Except ε ρ) (next : ρ → Option τ) :
    Nat → τ → List ρ → Prop
  | last {k : Nat} {token : τ} {answer : ρ} (fetched : request k token = .ok answer)
      (done : next answer = none) : Follows request next k token [answer]
  | more {k : Nat} {token token' : τ} {answer : ρ} {answers : List ρ}
      (fetched : request k token = .ok answer) (truncated : next answer = some token')
      (rest : Follows request next (k + 1) token' answers) :
      Follows request next k token (answer :: answers)

/-- The server answers accepted tokens with a page of the rows, and refuses the others. -/
structure Pages (request : Nat → τ → Except ε ρ) (next : ρ → Option τ) (sizes : Nat → Nat)
    (rows : List α) (render : Nat → τ → List α → Option τ → ρ) (token : Nat → τ)
    (accepts : Nat → Prop) : Prop where
  next_render : ∀ k sent page following, next (render k sent page following) = following
  positive : ∀ k, 0 < sizes k
  fetched : ∀ k offset, accepts offset → request k (token offset) =
    .ok (render k (token offset) ((rows.drop offset).take (sizes k))
      (if offset + sizes k < rows.length then some (token (offset + sizes k)) else none))
  refused : ∀ k offset answer, ¬accepts offset → request k (token offset) ≠ .ok answer

variable {request : Nat → τ → Except ε ρ} {next : ρ → Option τ} {sizes : Nat → Nat}
  {rows : List α} {render : Nat → τ → List α → Option τ → ρ} {token : Nat → τ}
  {accepts : Nat → Prop} {answers : List ρ} {k offset : Nat}

namespace Pages

variable (pages : Pages request next sizes rows render token accepts)
include pages

/-- A run of the client either ends with a page, or goes on after it. -/
lemma cases_follows (follows : Follows request next k (token offset) answers) : accepts offset ∧
      ((rows.length ≤ offset + sizes k ∧
          answers = [render k (token offset) ((rows.drop offset).take (sizes k)) none]) ∨
        ∃ rest, offset + sizes k < rows.length ∧
          answers = render k (token offset) ((rows.drop offset).take (sizes k))
            (some (token (offset + sizes k))) :: rest ∧
          Follows request next (k + 1) (token (offset + sizes k)) rest) := by
  have accepted : accepts offset := by
    by_contra refused
    cases follows with
    | last fetched _ => exact pages.refused _ _ _ refused fetched
    | more fetched _ _ => exact pages.refused _ _ _ refused fetched
  have page := pages.fetched k offset accepted
  refine ⟨accepted, ?_⟩
  cases follows with
  | last fetched done =>
    obtain rfl := Except.ok.inj (page.symm.trans fetched)
    rw [pages.next_render] at done
    split_ifs at done with more
    exact .inl ⟨by omega, by rw [if_neg more]⟩
  | more fetched truncated rest =>
    obtain rfl := Except.ok.inj (page.symm.trans fetched)
    rw [pages.next_render] at truncated
    split_ifs at truncated with more
    obtain rfl := Option.some.inj truncated
    exact .inr ⟨_, more, by rw [if_pos more], rest⟩

/-- The client gets to the end when the server accepts the end of every page that is not the
last. -/
lemma exists_follows_iff (k offset : Nat) :
    (∃ answers, Follows request next k (token offset) answers) ↔ accepts offset ∧
      ∀ j, offset + ∑ i ∈ Finset.range (j + 1), sizes (k + i) < rows.length →
        accepts (offset + ∑ i ∈ Finset.range (j + 1), sizes (k + i)) := by
  induction remaining : rows.length - offset using Nat.strong_induction_on
    generalizing k offset with
  | _ remaining ih =>
    have step := pages.positive k
    have later : offset + sizes k < rows.length →
        ((∃ answers, Follows request next (k + 1) (token (offset + sizes k)) answers) ↔
          accepts (offset + sizes k) ∧
            ∀ j, offset + sizes k + ∑ i ∈ Finset.range (j + 1), sizes (k + 1 + i) <
                rows.length →
              accepts (offset + sizes k + ∑ i ∈ Finset.range (j + 1), sizes (k + 1 + i))) :=
      fun more => ih (rows.length - (offset + sizes k)) (by omega) (k + 1) _ rfl
    have shift : ∀ j, offset + ∑ i ∈ Finset.range (j + 1 + 1), sizes (k + i) =
        offset + sizes k + ∑ i ∈ Finset.range (j + 1), sizes (k + 1 + i) := fun j => by
      have index : ∑ i ∈ Finset.range (j + 1), sizes (k + (i + 1)) =
          ∑ i ∈ Finset.range (j + 1), sizes (k + 1 + i) :=
        Finset.sum_congr rfl fun i _ => by rw [Nat.add_assoc, Nat.add_comm 1 i]
      rw [Finset.sum_range_succ', index]
      change offset + (_ + sizes k) = _
      omega
    constructor
    · rintro ⟨answers, follows⟩
      obtain ⟨accepted, ⟨short, -⟩ | ⟨rest, more, -, follows⟩⟩ := pages.cases_follows follows
      · refine ⟨accepted, fun j inside => ?_⟩
        rw [Finset.sum_range_succ'] at inside
        change offset + (_ + sizes k) < _ at inside
        omega
      · obtain ⟨next, afterwards⟩ := (later more).mp ⟨rest, follows⟩
        refine ⟨accepted, fun j inside => ?_⟩
        cases j with
        | zero =>
          rw [Nat.zero_add, Finset.sum_range_one]
          exact next
        | succ j =>
          rw [shift] at inside ⊢
          exact afterwards j inside
    · rintro ⟨accepted, ends⟩
      have page := pages.fetched k offset accepted
      by_cases more : offset + sizes k < rows.length
      · rw [if_pos more] at page
        have next : accepts (offset + sizes k) := by
          have first := ends 0
          rw [Nat.zero_add, Finset.sum_range_one] at first
          exact first more
        obtain ⟨answers, follows⟩ := (later more).mpr
          ⟨next, fun j inside => shift j ▸ ends (j + 1) ((shift j).symm ▸ inside)⟩
        exact ⟨_, .more page (pages.next_render _ _ _ _) follows⟩
      · rw [if_neg more] at page
        exact ⟨_, .last page (pages.next_render _ _ _ _)⟩

/-- What the answers show, together, is what the rows show. -/
lemma flatMap_view {view : ρ → List β} {shows : α → Option β} (views : ∀ k sent page following,
      view (render k sent page following) = page.filterMap shows)
    (follows : Follows request next k (token offset) answers) :
    answers.flatMap view = (rows.drop offset).filterMap shows := by
  induction answers generalizing k offset with
  | nil => cases follows
  | cons answer answers ih =>
    obtain ⟨-, ⟨short, same⟩ | ⟨rest, more, same, follows⟩⟩ := pages.cases_follows follows
    · rw [same, List.flatMap_singleton, views, List.take_of_length_le]
      rw [List.length_drop]
      omega
    · obtain ⟨rfl, rfl⟩ := List.cons.inj same
      rw [List.flatMap_cons, views, ih follows, ← List.drop_drop, ← List.filterMap_append,
        List.take_append_drop]

/-- Every answer is a page of at most its size. -/
lemma length_le (follows : Follows request next k (token offset) answers) {j : Nat} {answer : ρ}
    (got : answers[j]? = some answer) :
    ∃ sent page following, answer = render (k + j) sent page following ∧
      page.length ≤ sizes (k + j) := by
  induction answers generalizing k offset j with
  | nil => cases follows
  | cons first answers ih =>
    obtain ⟨-, ⟨short, same⟩ | ⟨rest, more, same, follows⟩⟩ := pages.cases_follows follows
    · obtain ⟨rfl, rfl⟩ := List.cons.inj same
      cases j with
      | zero => exact ⟨_, _, _, (Option.some.inj got).symm, List.length_take_le _ _⟩
      | succ j => cases got
    · obtain ⟨rfl, rfl⟩ := List.cons.inj same
      cases j with
      | zero => exact ⟨_, _, _, (Option.some.inj got).symm, List.length_take_le _ _⟩
      | succ j =>
        have later := ih follows got
        rwa [Nat.add_assoc, Nat.add_comm 1 j] at later

end Pages

end TgFile.Paging
