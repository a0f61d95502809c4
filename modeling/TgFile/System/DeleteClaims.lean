import TgFile.System.DeleteMoves

/-! # Claiming

The loop over the candidates counts an attempt for exactly the rows it claims, and a claimed row
is `deleting` when the transaction commits. -/

namespace TgFile.Store

open Go Result

variable {env : Env} {s s' : Store} {now : Int} {work : BlockDeleteWork} {row : DeleteState}
  {g : DeleteState → DeleteState}

/-- `PRIMARY KEY (file_id, file_part_id)` holds. -/
def UniqueRows (s : Store) : Prop := s.deleteStates.Pairwise fun a b => a.clash b = false

lemma clash_iff {a b : DeleteState} : a.clash b = true ↔ rowKey a = rowKey b := by
  simp [DeleteState.clash, rowKey]

lemma selects_iff : work.selects row = true ↔ rowKey row = workKey work := by
  simp [BlockDeleteWork.selects, rowKey, workKey]

lemma uniqueRows_iff : UniqueRows s ↔ (s.deleteStates.map rowKey).Nodup := by
  rw [UniqueRows, List.Nodup, List.pairwise_map]
  refine List.Pairwise.iff fun a b => ?_
  rw [← Bool.not_eq_true, clash_iff]

lemma UniqueRows.eq_of_key {a b : DeleteState} (unique : UniqueRows s) (inA : a ∈ s.deleteStates)
    (inB : b ∈ s.deleteStates) (same : rowKey a = rowKey b) : a = b :=
  List.inj_on_of_nodup_map (uniqueRows_iff.mp unique) inA inB same

lemma UniqueRows.map (unique : UniqueRows s) (keys : ∀ row, rowKey (g row) = rowKey row)
    (rows : s'.deleteStates = s.deleteStates.map g) : UniqueRows s' := by
  have same : s'.deleteStates.map rowKey = s.deleteStates.map rowKey := by
    rw [rows, List.map_map]
    exact List.map_congr_left fun row _ => keys row
  rw [uniqueRows_iff, same]
  exact uniqueRows_iff.mp unique

/-- The work agrees with its row. -/
def Knows (s : Store) (work : BlockDeleteWork) : Prop :=
  ∀ row ∈ s.deleteStates, work.selects row = true → workOf row = work

/-! ## One candidate -/

/-- What `claimDeleteCandidate` does. -/
structure CandidateStep (env : Env) (now : Int) (s : Store) (work : BlockDeleteWork)
    (g : DeleteState → DeleteState) (claimed : Bool) : Prop where
  run : s.claimDeleteCandidate work now = ({ s with deleteStates := s.deleteStates.map g }, claimed)
  statement : Statement env True now s { s with deleteStates := s.deleteStates.map g }
  same : ∀ row, SameBlock row (g row)
  attempts : ∀ row ∈ s.deleteStates, (g row).attemptCount =
    row.attemptCount + if claimed ∧ work.selects row then 1 else 0
  untouched : ∀ row, s.fileHasLiveReference row.fileID = false → work.selects row = false →
    g row = row
  held : claimed = true → now < work.uploadedAt + deleteDeadline ∧
    s.fileHasLiveReference work.fileID = false ∧
    ∃ row ∈ s.deleteStates, work.selects row = true ∧ (g row).state = .deleting

lemma candidate_referenced (referenced : s.fileHasLiveReference work.fileID = true) :
    CandidateStep env now s work (fun row => if (decide (row.fileID = work.fileID ∧
      unsettled row.state = true)) = true then { row with
        state := .live, nextAttemptAt := 0, leaseUntil := 0, mtime := now } else row) false where
  run := by
    rw [claimDeleteCandidate, if_pos referenced]
    rfl
  statement := restoreFileDeleteState_statement trivial referenced
  same row := by
    split_ifs <;> exact ⟨rfl, rfl, rfl, rfl⟩
  attempts row _ := by
    split_ifs <;> simp_all
  untouched row free _ := by
    refine if_neg fun hit => ?_
    rw [(of_decide_eq_true hit).1, referenced] at free
    cases free
  held := nofun

lemma candidate_late (free : s.fileHasLiveReference work.fileID = false)
    (late : work.uploadedAt + deleteDeadline ≤ now) :
    CandidateStep env now s work (fun row => if (decide (work.selects row ∧
      unsettled row.state = true)) = true then { row with
        state := .expired, lastErrorCode := "deadline".toList, leaseUntil := 0, mtime := now }
      else row) false where
  run := by
    rw [claimDeleteCandidate, if_neg (by rw [free]; decide), if_pos late]
    rfl
  statement := expireBlockDelete_statement
  same row := by
    split_ifs <;> exact ⟨rfl, rfl, rfl, rfl⟩
  attempts row _ := by
    split_ifs <;> simp_all
  untouched row _ other := by
    refine if_neg fun hit => ?_
    rw [(of_decide_eq_true hit).1] at other
    cases other
  held := nofun

/-- At most one row can be claimed. -/
lemma claimable_unique (unique : UniqueRows s) (member : row ∈ s.deleteStates)
    (hit : work.claimable row = true) : s.deleteStates.filter work.claimable = [row] := by
  have selected := selects_iff.mp (of_decide_eq_true hit).1
  have all : ∀ other ∈ s.deleteStates.filter work.claimable, other = row := by
    intro other inside
    obtain ⟨inRows, claimable⟩ := List.mem_filter.mp inside
    exact unique.eq_of_key inRows member
      ((selects_iff.mp (of_decide_eq_true claimable).1).trans selected.symm)
  have inside : row ∈ s.deleteStates.filter work.claimable := List.mem_filter.mpr ⟨member, hit⟩
  have nodup : (s.deleteStates.filter work.claimable).Nodup :=
    (uniqueRows_iff.mp unique).of_map.filter _
  generalize s.deleteStates.filter work.claimable = rows at all inside nodup
  match rows with
  | [] => cases inside
  | [other] => rw [all other List.mem_cons_self]
  | first :: second :: rest =>
    have same := (all first List.mem_cons_self).trans
      (all second (List.mem_cons_of_mem _ List.mem_cons_self)).symm
    exact absurd (same ▸ List.mem_cons_self) (List.nodup_cons.mp nodup).1

lemma candidate_early (unique : UniqueRows s) (knows : Knows s work)
    (free : s.fileHasLiveReference work.fileID = false)
    (early : now < work.uploadedAt + deleteDeadline) :
    CandidateStep env now s work (fun row => if work.claimable row = true then claimedRow now row
      else row) (decide ((s.deleteStates.filter work.claimable).length = 1)) where
  run := by
    rw [claimDeleteCandidate, if_neg (by rw [free]; decide), if_neg (by omega)]
    rfl
  statement := claim_statement early fun row member selected =>
    (congrArg BlockDeleteWork.uploadedAt (knows row member selected) :)
  same row := by
    split_ifs <;> exact ⟨rfl, rfl, rfl, rfl⟩
  attempts row member := by
    by_cases hit : work.claimable row = true
    · have selected := (of_decide_eq_true hit).1
      rw [if_pos hit, if_pos ⟨by rw [claimable_unique unique member hit]; rfl, selected⟩]
      rfl
    · rw [if_neg hit, if_neg, Nat.add_zero]
      rintro ⟨claimed, selected⟩
      obtain ⟨other, only⟩ := List.length_eq_one_iff.mp (of_decide_eq_true claimed)
      obtain ⟨inRows, claimable⟩ := List.mem_filter.mp (only ▸ List.mem_singleton_self other)
      have same := unique.eq_of_key inRows member
        ((selects_iff.mp (of_decide_eq_true claimable).1).trans (selects_iff.mp selected).symm)
      exact hit (same ▸ claimable)
  untouched row _ other := by
    refine if_neg fun hit => ?_
    rw [(of_decide_eq_true hit).1] at other
    cases other
  held claimed := by
    obtain ⟨row, only⟩ := List.length_eq_one_iff.mp (of_decide_eq_true claimed)
    obtain ⟨inRows, claimable⟩ := List.mem_filter.mp (only ▸ List.mem_singleton_self row)
    refine ⟨early, free, row, inRows, (of_decide_eq_true claimable).1, ?_⟩
    rw [if_pos claimable]
    rfl

lemma candidateStep (unique : UniqueRows s) (knows : Knows s work) :
    ∃ g claimed, CandidateStep env now s work g claimed := by
  cases referenced : s.fileHasLiveReference work.fileID with
  | true => exact ⟨_, _, candidate_referenced referenced⟩
  | false =>
    by_cases late : work.uploadedAt + deleteDeadline ≤ now
    · exact ⟨_, _, candidate_late referenced late⟩
    · exact ⟨_, _, candidate_early unique knows referenced (by omega)⟩

/-! ## The loop -/

/-- What the loop over the candidates does to the table. -/
structure Claims (env : Env) (now : Int) (s : Store) (works claimed : List BlockDeleteWork)
    (f : DeleteState → DeleteState) : Prop where
  chain : Relation.ReflTransGen (Statement env True now) s
    { s with deleteStates := s.deleteStates.map f }
  same : ∀ row, SameBlock row (f row)
  attempts : ∀ row ∈ s.deleteStates, (f row).attemptCount =
    row.attemptCount + (claimed.map workKey).count (rowKey row)
  untouched : ∀ row, s.fileHasLiveReference row.fileID = false →
    rowKey row ∉ works.map workKey → f row = row
  listed : (claimed.map workKey).Sublist (works.map workKey)
  held : ∀ work ∈ claimed, now < work.uploadedAt + deleteDeadline ∧
    ∃ row ∈ s.deleteStates, (f row).state = .deleting ∧ workOf (f row) = work

lemma SameBlock.trans {row₁ row₂ : DeleteState} (left : SameBlock row row₁)
    (right : SameBlock row₁ row₂) : SameBlock row row₂ :=
  ⟨right.key.trans left.key, right.backendKind.trans left.backendKind,
    right.deleteRef.trans left.deleteRef, right.uploadedAt.trans left.uploadedAt⟩

/-- A row that keeps its block has the same work, up to the attempts. -/
lemma SameBlock.workOf {row' : DeleteState} (same : SameBlock row row') :
    workOf row' = { workOf row with attemptCount := row'.attemptCount } := by
  obtain ⟨file, part⟩ := Prod.mk.inj same.key
  simp only [Store.workOf, same.deleteRef, same.uploadedAt, BlockDeleteWork.mk.injEq]
  exact ⟨file, part, trivial, trivial, trivial⟩

lemma Knows.step {other : BlockDeleteWork} {claimed : Bool} (knows : Knows s other)
    (step : CandidateStep env now s work g claimed) (different : workKey other ≠ workKey work) :
    Knows { s with deleteStates := s.deleteStates.map g } other := by
  intro row member selected
  obtain ⟨old, inOld, rfl⟩ := List.mem_map.mp member
  have same := step.same old
  rw [selects_iff, same.key] at selected
  have notSelected : work.selects old ≠ true := fun hit =>
    different (selected.symm.trans (selects_iff.mp hit))
  have attempts := step.attempts old inOld
  rw [if_neg fun both => notSelected both.2, Nat.add_zero] at attempts
  rw [same.workOf, attempts]
  exact knows old inOld (selects_iff.mpr selected)

lemma Claims.cons {works claimed : List BlockDeleteWork} {f : DeleteState → DeleteState}
    {hit : Bool} (step : CandidateStep env now s work g hit)
    (claims : Claims env now { s with deleteStates := s.deleteStates.map g } works claimed f)
    (knows : Knows s work) (notIn : workKey work ∉ works.map workKey) :
    Claims env now s (work :: works)
      (if hit then { work with attemptCount := work.attemptCount + 1 } :: claimed else claimed)
      (f ∘ g) where
  chain := by
    rw [← List.map_map]
    exact .head step.statement claims.chain
  same row := (step.same row).trans (claims.same (g row))
  attempts row member := by
    have later := claims.attempts (g row) (List.mem_map.mpr ⟨row, member, rfl⟩)
    rw [Function.comp_apply, later, step.attempts row member, (step.same row).key, Nat.add_assoc]
    congr 1
    cases hit with
    | false => simp
    | true =>
      have counted : (workKey work == rowKey row) = work.selects row := by
        rw [Bool.eq_iff_iff, selects_iff, beq_iff_eq, eq_comm]
      simp only [if_true, List.map_cons, List.count_cons, true_and]
      rw [Nat.add_comm]
      congr 1
      change _ = if (workKey work == rowKey row) = true then 1 else 0
      rw [counted]
  untouched row free other := by
    rw [List.map_cons, List.mem_cons, not_or] at other
    have first : g row = row := step.untouched row free (by
      rw [← Bool.not_eq_true, selects_iff]
      exact other.1)
    rw [Function.comp_apply, first]
    exact claims.untouched row free other.2
  listed := by
    cases hit with
    | false => exact claims.listed.cons _
    | true => exact claims.listed.cons_cons _
  held other member := by
    have later : other ∈ claimed → now < other.uploadedAt + deleteDeadline ∧
        ∃ row ∈ s.deleteStates, ((f ∘ g) row).state = .deleting ∧ workOf ((f ∘ g) row) = other := by
      intro inRest
      obtain ⟨early, row, inRows, deleting, same⟩ := claims.held other inRest
      obtain ⟨old, inOld, rfl⟩ := List.mem_map.mp inRows
      exact ⟨early, old, inOld, deleting, same⟩
    cases hit with
    | false => exact later member
    | true =>
      rcases List.mem_cons.mp member with rfl | inRest
      · obtain ⟨early, free, row, inRows, selected, deleting⟩ := step.held rfl
        have key := (step.same row).key.trans (selects_iff.mp selected)
        have kept : f (g row) = g row := claims.untouched (g row)
          (by rw [(Prod.mk.inj key).1]; exact free) (key ▸ notIn)
        refine ⟨early, row, inRows, ?_, ?_⟩
        · rw [Function.comp_apply, kept, deleting]
        · have attempts := step.attempts row inRows
          rw [if_pos ⟨rfl, selected⟩] at attempts
          have known := knows row inRows selected
          rw [Function.comp_apply, kept, (step.same row).workOf, attempts, ← known]
          rfl
      · exact later inRest

lemma claimCandidates_claims {works : List BlockDeleteWork} (unique : UniqueRows s)
    (knows : ∀ work ∈ works, Knows s work) (distinct : (works.map workKey).Nodup) :
    ∃ f, (claimCandidates now s works).1 = { s with deleteStates := s.deleteStates.map f } ∧
      Claims env now s works (claimCandidates now s works).2 f := by
  induction works generalizing s with
  | nil =>
    refine ⟨id, by rw [List.map_id]; rfl, ?_, fun _ => ⟨rfl, rfl, rfl, rfl⟩, fun _ _ => rfl,
      fun _ _ _ => rfl, .refl _, nofun⟩
    rw [List.map_id]
  | cons work works ih =>
    obtain ⟨notIn, distinct⟩ := List.nodup_cons.mp distinct
    obtain ⟨g, claimed, step⟩ : ∃ g claimed, CandidateStep env now s work g claimed :=
      candidateStep unique (knows work List.mem_cons_self)
    have unique' : UniqueRows { s with deleteStates := s.deleteStates.map g } :=
      unique.map (fun row => (step.same row).key) rfl
    have knows' : ∀ other ∈ works, Knows { s with deleteStates := s.deleteStates.map g } other :=
      fun other member => (knows other (List.mem_cons_of_mem _ member)).step step
        fun same => notIn (same ▸ List.mem_map.mpr ⟨other, member, rfl⟩)
    obtain ⟨f, run, claims⟩ := ih unique' knows' distinct
    simp only [claimCandidates, step.run]
    refine ⟨f ∘ g, by rw [run]; simp only [List.map_map], claims.cons step
      (knows work List.mem_cons_self) notIn⟩

/-! ## The transaction -/

lemma queryPendingDeleteCandidates_known (unique : UniqueRows s) :
    ∀ work ∈ s.queryPendingDeleteCandidates env now, Knows s work := by
  intro work member row inRows selected
  obtain ⟨old, inside, rfl⟩ := List.mem_map.mp member
  have inOld := (List.mem_filter.mp (Sqlite.mem_orderBy.mp (List.mem_of_mem_take inside))).1
  rw [unique.eq_of_key inRows inOld (selects_iff.mp selected)]

lemma queryPendingDeleteCandidates_distinct (unique : UniqueRows s) :
    ((s.queryPendingDeleteCandidates env now).map workKey).Nodup := by
  have keys : workKey ∘ workOf = rowKey := rfl
  rw [queryPendingDeleteCandidates, List.map_map, keys]
  have nodup : ((s.deleteStates.filter fun row => row.backendKind = env.backendName ∧
      row.state = .pending ∧ row.nextAttemptAt ≤ now).map rowKey).Nodup :=
    (uniqueRows_iff.mp unique).sublist (List.filter_sublist.map _)
  refine List.Nodup.sublist ((List.take_sublist _ _).map _) ?_
  exact ((Sqlite.orderBy_perm _ _).map rowKey).nodup_iff.mpr nodup

/-- What `claimBlockDeleteWork` does to the table. -/
structure ClaimsBatch (env : Env) (now : Int) (s : Store) (claimed : List BlockDeleteWork)
    (f : DeleteState → DeleteState) : Prop where
  chain : Relation.ReflTransGen (Statement env True now) s
    { s with deleteStates := s.deleteStates.map f }
  same : ∀ row, SameBlock row (f row)
  attempts : ∀ row ∈ s.deleteStates, (f row).attemptCount =
    row.attemptCount + (claimed.map workKey).count (rowKey row)
  distinct : (claimed.map workKey).Nodup
  held : ∀ work ∈ claimed, now < work.uploadedAt + deleteDeadline ∧
    ∃ row ∈ s.deleteStates, (f row).state = .deleting ∧ workOf (f row) = work

lemma claimBlockDeleteWork_claims (unique : UniqueRows s) :
    ∃ f, (s.claimBlockDeleteWork env now).1 = { s with deleteStates := s.deleteStates.map f } ∧
      ClaimsBatch env now s (s.claimBlockDeleteWork env now).2 f := by
  let g : DeleteState → DeleteState := fun row =>
    if (decide (row.backendKind = env.backendName ∧ row.state = .deleting ∧
      row.leaseUntil ≤ now)) = true then
      { row with state := .pending, nextAttemptAt := now, leaseUntil := 0, mtime := now } else row
  let t : Store := s.restoreExpiredDeleteLeases env now
  let works := t.queryPendingDeleteCandidates env now
  have first : ∀ row, SameBlock row (g row) ∧ (g row).attemptCount = row.attemptCount := by
    intro row
    simp only [g]
    split_ifs <;> exact ⟨⟨rfl, rfl, rfl, rfl⟩, rfl⟩
  have unique' : UniqueRows t := unique.map (fun row => (first row).1.key) rfl
  obtain ⟨f, run, claims⟩ : ∃ f, (claimCandidates now t works).1 =
      { t with deleteStates := t.deleteStates.map f } ∧
        Claims env now t works (claimCandidates now t works).2 f :=
    claimCandidates_claims unique' (queryPendingDeleteCandidates_known unique')
      (queryPendingDeleteCandidates_distinct unique')
  refine ⟨f ∘ g, ?_, ?_, fun row => (first row).1.trans (claims.same (g row)),
    fun row member => ?_, ?_, fun work member => ?_⟩
  · rw [← List.map_map]
    exact run
  · rw [← List.map_map]
    exact .head (restoreExpiredDeleteLeases_statement trivial) claims.chain
  · have later := claims.attempts (g row) (List.mem_map.mpr ⟨row, member, rfl⟩)
    rw [(first row).2, (first row).1.key] at later
    exact later
  · exact (queryPendingDeleteCandidates_distinct unique').sublist claims.listed
  · obtain ⟨early, row, inRows, deleting, same⟩ := claims.held work member
    obtain ⟨old, inOld, rfl⟩ := List.mem_map.mp inRows
    exact ⟨early, old, inOld, deleting, same⟩

end TgFile.Store
