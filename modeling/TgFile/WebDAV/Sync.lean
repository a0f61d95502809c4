import TgFile.WebDAV.Changes

/-! # Pages of a synchronisation

When a page of the change journal loses nothing, and what a client that follows the tokens has
seen.  The query is cut before the rows out of scope are dropped, so a page is complete exactly
when the cut does not separate rows in scope behind it from a page that was not filled. -/

namespace TgFile.WebDAV

open Go Sqlite

/-- The latest record of a path in scope that is newer than the token. -/
def Due (changes : List Change) (root : Text) (depth : SyncLevel) (since : Int) (c : Change) :
    Prop :=
  IsLatest changes c ∧ since < c.revision ∧
    webDAVChangeInScope (Path.clean root) c.path depth = true

/-- Every record that is due is on the page or newer than the page's token. -/
def NothingLost (changes : List Change) (root : Text) (depth : SyncLevel) (since : Int)
    (page : WebDAVChangePage) : Prop :=
  ∀ c, Due changes root depth since c →
    Change.toWebDAV c ∈ page.changes ∨ page.syncRevision < c.revision

/-- Where the query's cut after `limit + 1` rows falls: only rows in scope before it, or none
after it. -/
def CutKeepsScope (changes : List Change) (root : Text) (depth : SyncLevel) (since : Int)
    (limit : Nat) : Prop :=
  let rows := selectedChanges changes (Path.clean root) since depth
  (∀ c ∈ rows.take (limit + 1), webDAVChangeInScope (Path.clean root) c.path depth = true) ∨
    ∀ c ∈ rows.drop (limit + 1), webDAVChangeInScope (Path.clean root) c.path depth = false

namespace ChangeJournal

variable (journal : ChangeJournal) {root : Text} {since : Int} {depth : SyncLevel} {limit : Nat}

lemma mem_selected_of_due {c : Change} (due : Due journal.changes root depth since c) :
    c ∈ journal.selected root since depth := by
  obtain ⟨latest, after, inScope⟩ := due
  obtain ⟨cs, names, path⟩ := journal.rendered latest.1
  refine journal.mem_selected.mpr ⟨journal.mem_accepted.mpr ⟨latest.1, after, ?_⟩, latest⟩
  rw [path] at inScope ⊢
  exact queryAccepts_of_inScope names inScope

lemma due_of_mem_selected {c : Change} (member : c ∈ journal.selected root since depth)
    (inScope : webDAVChangeInScope (Path.clean root) c.path depth = true) :
    Due journal.changes root depth since c := by
  obtain ⟨accepted, latest⟩ := journal.mem_selected.mp member
  exact ⟨latest, (journal.mem_accepted.mp accepted).2.1, inScope⟩

/-- A page that the rows in scope before the cut do not fill. -/
lemma nothingLost_short :
    NothingLost journal.changes root depth since
        ⟨(((journal.selected root since depth).take (limit + 1)).filter fun c =>
          webDAVChangeInScope (Path.clean root) c.path depth).map Change.toWebDAV,
          maxRevision journal.changes, false⟩ ↔
      ∀ c ∈ (journal.selected root since depth).drop (limit + 1),
        webDAVChangeInScope (Path.clean root) c.path depth = false := by
  have ordered := journal.selected_increasing root since depth
  rw [← List.take_append_drop (limit + 1) (journal.selected root since depth),
    List.pairwise_append] at ordered
  constructor
  · intro complete c behind
    by_contra inScope
    have member := List.mem_of_mem_drop behind
    have due := journal.due_of_mem_selected member (Bool.not_eq_false _ ▸ inScope)
    rcases complete c due with onPage | newer
    · obtain ⟨row, kept, same⟩ := List.mem_map.mp onPage
      have before := ordered.2.2 row (List.mem_filter.mp kept).1 c behind
      exact absurd (congrArg WebDAVChange.revision same) (Nat.ne_of_lt before)
    · exact absurd (le_maxRevision due.1.1) (Nat.not_le_of_lt newer)
  · intro outside c due
    have member := journal.mem_selected_of_due due
    rw [← List.take_append_drop (limit + 1) (journal.selected root since depth)] at member
    rcases List.mem_append.mp member with before | behind
    · exact .inl (List.mem_map_of_mem (List.mem_filter.mpr ⟨before, due.2.2⟩))
    · exact absurd due.2.2 (by rw [outside c behind]; exact Bool.false_ne_true)

/-- A full page. -/
lemma nothingLost_full {last : Change}
    (ends : ((journal.selected root since depth).take limit).getLast? = some last) :
    NothingLost journal.changes root depth since
      ⟨((journal.selected root since depth).take limit).map Change.toWebDAV, last.revision,
        true⟩ := by
  intro c due
  have member := journal.mem_selected_of_due due
  have ordered := journal.selected_increasing root since depth
  rw [← List.take_append_drop limit (journal.selected root since depth)] at member ordered
  rcases List.mem_append.mp member with before | behind
  · exact .inl (List.mem_map_of_mem before)
  · exact .inr ((List.pairwise_append.mp ordered).2.2 last (List.mem_of_getLast? ends) c behind)

/-- The page of a request with an accepted token. -/
structure Answer (root : Text) (since : Int) (depth : SyncLevel) (limit : Nat)
    (page : WebDAVChangePage) : Prop where
  complete : NothingLost journal.changes root depth since page ↔
    CutKeepsScope journal.changes root depth since limit
  bounded : page.syncRevision ≤ maxRevision journal.changes
  advances : since < page.syncRevision ∨ page.syncRevision = maxRevision journal.changes

/-- The loop over the rows of the query answers the request. -/
lemma answer_scan (positive : 1 ≤ limit) : journal.Answer root since depth limit
      (scanWebDAVChanges (Path.clean root) depth limit (maxRevision journal.changes) []
        (queryWebDAVChanges journal.changes root since depth limit)) := by
  have rows : queryWebDAVChanges journal.changes root since depth limit =
    (journal.selected root since depth).take (limit + 1) := rfl
  rw [scanWebDAVChanges_eq _ _ _ _ _ _ (Nat.zero_le limit), rows]
  simp only [List.length_nil, Nat.zero_add, List.nil_append, Nat.sub_zero]
  split_ifs with fits
  · refine ⟨journal.nothingLost_short.trans ⟨Or.inr, ?_⟩, Nat.le_refl _, .inr rfl⟩
    rintro (allInScope | outside)
    · -- an unfilled page of rows that are all in scope is the whole result
      have whole := List.filter_eq_self.mpr allInScope
      rw [selected, whole, List.length_take] at fits
      have short : (journal.selected root since depth).length ≤ limit + 1 := by
        rw [selected]
        omega
      rw [List.drop_eq_nil_of_le short]
      exact fun _ nothing => absurd nothing List.not_mem_nil
    · exact outside
  · have filled := List.length_filter_le (fun c => webDAVChangeInScope (Path.clean root) c.path
      depth) ((journal.selected root since depth).take (limit + 1))
    have cut := List.length_take_le (limit + 1) (journal.selected root since depth)
    have enough : limit + 1 ≤ (journal.selected root since depth).length := by
      rw [List.length_take] at filled
      omega
    have allInScope : ∀ c ∈ (journal.selected root since depth).take (limit + 1),
        webDAVChangeInScope (Path.clean root) c.path depth = true :=
      List.length_filter_eq_length_iff.mp (Nat.le_antisymm filled (by omega))
    rw [List.filter_eq_self.mpr allInScope, List.take_take, Nat.min_eq_left (Nat.le_succ limit)]
    have nonempty : (journal.selected root since depth).take limit ≠ [] := by
      apply List.ne_nil_of_length_pos
      rw [List.length_take]
      omega
    have ends := List.getLast?_eq_some_getLast nonempty
    have last := (journal.mem_selected.mp (List.mem_of_mem_take (List.getLast_mem nonempty)))
    rw [List.getLast?_map, ends]
    refine ⟨⟨fun _ => .inl allInScope, fun _ => journal.nothingLost_full ends⟩, ?_, .inl ?_⟩
    · exact le_maxRevision last.2.1
    · exact (journal.mem_accepted.mp last.1).2.1

lemma webDAVChanges_answer {limit : Int} (nonneg : 0 ≤ since)
    (current : since ≤ maxRevision journal.changes) (positive : 1 ≤ limit) :
    ∃ page, webDAVChanges journal.changes root since depth limit = .ok page ∧
      journal.Answer root since depth limit.toNat page := by
  refine ⟨_, ?_, journal.answer_scan (by omega)⟩
  simp only [webDAVChanges]
  rw [if_neg (by omega), if_neg (by omega), if_neg (by omega)]

end ChangeJournal

/-! ## Following the tokens -/

/-- A client that requests with the returned token until it no longer changes; `none` when the
requests run out or one fails. -/
def followTokens (changes : List Change) (root : Text) (depth : SyncLevel) (limit : Int) :
    Nat → Int → Option (List WebDAVChange)
  | 0, _ => none
  | requests + 1, since =>
    match webDAVChanges changes root since depth limit with
    | .error _ => none
    | .ok page =>
      if (page.syncRevision : Int) = since then some page.changes
      else
        (followTokens changes root depth limit requests page.syncRevision).map
          (page.changes ++ ·)

/-- A client whose pages all lose nothing sees every record that is due. -/
lemma ChangeJournal.followTokens_sees (journal : ChangeJournal) {root : Text}
    {depth : SyncLevel} {limit : Int} (positive : 1 ≤ limit) (requests : Nat) (since : Int)
    (nonneg : 0 ≤ since) (current : since ≤ maxRevision journal.changes)
    (enough : maxRevision journal.changes < since + requests)
    (kept : ∀ token : Int, since ≤ token → token ≤ maxRevision journal.changes →
      CutKeepsScope journal.changes root depth token limit.toNat) :
    ∃ seen, followTokens journal.changes root depth limit requests since = some seen ∧
      ∀ c, Due journal.changes root depth since c → Change.toWebDAV c ∈ seen := by
  induction requests generalizing since with
  | zero => omega
  | succ requests ih =>
    obtain ⟨page, answered, answer⟩ : ∃ page,
        webDAVChanges journal.changes root since depth limit = .ok page ∧
          journal.Answer root since depth limit.toNat page :=
      journal.webDAVChanges_answer nonneg current positive
    have complete := answer.complete.mpr (kept since (Int.le_refl since) current)
    have advances := answer.advances
    have bounded := answer.bounded
    simp only [followTokens, answered]
    by_cases stops : (page.syncRevision : Int) = since
    · rw [if_pos stops]
      refine ⟨page.changes, rfl, fun c due => ?_⟩
      have bound := le_maxRevision due.1.1
      have newer := due.2.1
      omega
    · obtain ⟨seen, followed, sees⟩ := ih page.syncRevision (by omega) (by omega) (by omega)
        fun token after => kept token (by omega)
      rw [if_neg stops, followed]
      refine ⟨page.changes ++ seen, rfl, fun c due => List.mem_append.mpr ?_⟩
      exact (complete c due).imp_right fun newer =>
        sees c ⟨due.1, Int.ofNat_lt.mpr newer, due.2.2⟩

/-- **When a page loses nothing.**  With an accepted token, the page is complete exactly when the
cut of the query keeps the scope together; when that holds for every token from the first one on,
a client that follows the tokens comes to an end and has seen everything that was due. -/
theorem webDAVChanges_nothing_lost_iff (journal : ChangeJournal) (root : Text) (depth : SyncLevel)
    (since limit : Int) (nonneg : 0 ≤ since) (current : since ≤ maxRevision journal.changes)
    (positive : 1 ≤ limit) :
    (∃ page, webDAVChanges journal.changes root since depth limit = .ok page ∧
      (NothingLost journal.changes root depth since page ↔
        CutKeepsScope journal.changes root depth since limit.toNat)) ∧
    ((∀ token : Int, since ≤ token → token ≤ maxRevision journal.changes →
        CutKeepsScope journal.changes root depth token limit.toNat) →
      ∃ requests seen, followTokens journal.changes root depth limit requests since = some seen ∧
        ∀ c, Due journal.changes root depth since c → Change.toWebDAV c ∈ seen) := by
  constructor
  · obtain ⟨page, answered, answer⟩ := journal.webDAVChanges_answer nonneg current positive
    exact ⟨page, answered, answer.complete⟩
  · intro kept
    exact ⟨maxRevision journal.changes + 1, journal.followTokens_sees positive _ since nonneg
      current (by omega) kept⟩

/-- Two records below `/R` followed by one below `/r`, which `LIKE` does not tell apart. -/
def caseJournal : ChangeJournal where
  changes := [⟨1, "/R/a".toList, .created, 0⟩, ⟨2, "/R/b".toList, .created, 0⟩,
    ⟨3, "/r/x".toList, .created, 0⟩]
  increasing := by decide
  cleaned := by decide

/-- A file below `/R` and one below `/r`. -/
def caseDirectory : Directory :=
  [(0, DirectoryCall.create ⟨"/R/a".toList, by decide, by decide⟩ 3 (some 7)),
    (0, .create ⟨"/r/x".toList, by decide, by decide⟩ 4 (some 8))].foldl DirectoryCall.commit .empty

/-- The journal of that directory. -/
def directoryJournal : ChangeJournal :=
  journalOf caseDirectory (Directory.journaled_empty.commits _).valid

/-- Pages of two rows of its journal lose nothing. -/
theorem directoryJournal_pages_of_two :
    (∃ page, webDAVChanges directoryJournal.changes "/r".toList 0 .infinity 2 = .ok page ∧
      NothingLost directoryJournal.changes "/r".toList .infinity 0 page) ∧
    ∃ requests seen,
      followTokens directoryJournal.changes "/r".toList .infinity 2 requests 0 = some seen ∧
      ∀ c, Due directoryJournal.changes "/r".toList .infinity 0 c → Change.toWebDAV c ∈ seen := by
  -- there are never more than three rows, so the cut drops none
  have kept : ∀ n ≤ maxRevision directoryJournal.changes, ∀ c ∈ (selectedChanges
      directoryJournal.changes (Path.clean "/r".toList) (n : Int) .infinity).drop 3,
        webDAVChangeInScope (Path.clean "/r".toList) c.path .infinity = false := by
    decide +kernel
  obtain ⟨⟨page, answered, complete⟩, follows⟩ := webDAVChanges_nothing_lost_iff directoryJournal
    "/r".toList .infinity 0 2 (by decide) (Int.natCast_nonneg _) (by decide)
  refine ⟨⟨page, answered, complete.mpr (.inr (kept 0 (Nat.zero_le _)))⟩,
    follows fun token nonneg current => .inr ?_⟩
  obtain ⟨n, rfl⟩ := Int.eq_ofNat_of_zero_le nonneg
  exact kept n (Int.ofNat_le.mp current)

/-- **A page of one row loses a record.**  The two rows the query returns are out of scope, the
page is empty and its token is already the newest revision, which `/r/x` carries. -/
theorem caseJournal_loses :
    ∃ page, webDAVChanges caseJournal.changes "/r".toList 0 .infinity 1 = .ok page ∧
      page = ⟨[], 3, false⟩ ∧
      ¬NothingLost caseJournal.changes "/r".toList .infinity 0 page := by
  refine ⟨⟨[], 3, false⟩, by decide +kernel, rfl, fun complete => ?_⟩
  have due : Due caseJournal.changes "/r".toList .infinity 0 ⟨3, "/r/x".toList, .created, 0⟩ :=
    ⟨⟨by decide, by decide⟩, by decide, by decide⟩
  exact absurd (complete _ due) (by decide)

end TgFile.WebDAV
