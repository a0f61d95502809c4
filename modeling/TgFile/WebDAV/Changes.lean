import TgFile.Directory.Journal
import TgFile.Go.Strings
import TgFile.Sqlite.Like
import Mathlib.Data.List.Dedup

/-! # Reading the change journal

`WebDAVChanges` of `filemgr/webdav_protocol.go`: a query selects the latest record of every path
that `LIKE` and `substr` accept, cuts the result at one more row than the page holds, and a loop
then drops the rows that are not in scope.  The query accepts every path in scope and some more;
`selectedChanges` is its result before the cut. -/

namespace TgFile.WebDAV

open Go Sqlite

variable {root p : Text} {depth : SyncLevel}

/-- A change journal: revisions increase along the table and every path is absolute and clean. -/
structure ChangeJournal where
  changes : List Change
  increasing : changes.Pairwise fun a b => a.revision < b.revision
  cleaned : ∀ c ∈ changes, Path.isAbs c.path = true ∧ Path.clean c.path = c.path

/-- The journal of a valid directory. -/
def journalOf (d : Directory) (valid : d.Valid) : ChangeJournal where
  changes := d.changes
  increasing := by
    refine List.pairwise_iff_getElem.mpr fun i j hi hj before => ?_
    rw [valid.log.numbered i _ (List.getElem?_eq_getElem hi),
      valid.log.numbered j _ (List.getElem?_eq_getElem hj)]
    omega
  cleaned c member := by
    obtain ⟨cs, names, path⟩ := valid.log.paths c member
    rw [path, Path.clean_render names]
    exact ⟨Path.isAbs_render cs, rfl⟩

/-- `sync-level`. -/
inductive SyncLevel
  | one
  | infinity
  deriving DecidableEq, Repr

/-- `WebDAVChange`. -/
structure WebDAVChange where
  revision : Nat
  path : Text
  kind : ChangeKind
  deriving DecidableEq, Repr

/-- `WebDAVChangePage`. -/
structure WebDAVChangePage where
  changes : List WebDAVChange
  syncRevision : Nat
  hasMore : Bool
  deriving DecidableEq, Repr

/-! ## The scope test -/

/-- The path is the root, or below it as deep as asked. -/
def webDAVChangeInScope (root changedPath : Text) (depth : SyncLevel) : Bool :=
  let root := Path.clean root
  let changedPath := Path.clean changedPath
  if changedPath = root then true
  else if root ≠ ['/'] ∧ ¬root ++ ['/'] <+: changedPath then false
  else if root = ['/'] ∧ ¬['/'] <+: changedPath then false
  else if depth = .infinity then true
  else
    let relative := trimFront (trimFront changedPath root) ['/']
    relative ≠ [] ∧ '/' ∉ relative

/-! ## The query -/

/-- `COALESCE(MAX(revision), 0)`. -/
def maxRevision (changes : List Change) : Nat := (changes.map Change.revision).foldr max 0

/-- The conditions of the query on `path`. -/
def queryAccepts (cleanRoot : Text) (depth : SyncLevel) (p : Text) : Bool :=
  ((cleanRoot = ['/'] ∧ like none ['/', '%'] p = true) ∨ p = cleanRoot ∨
      like (some '\\') (escapeLike (Path.trimSlash cleanRoot ++ ['/']) ++ ['%']) p = true) ∧
    (depth = .infinity ∨ p = cleanRoot ∨ '/' ∉ substr p (byteLength cleanRoot + 2))

/-- The rows of the query in order, before `LIMIT`: for every accepted path with a record after
`since`, the record with the highest revision. -/
def selectedChanges (changes : List Change) (cleanRoot : Text) (since : Int) (depth : SyncLevel) :
    List Change :=
  let accepted := changes.filter fun c => since < c.revision ∧ queryAccepts cleanRoot depth c.path
  let latest := (accepted.map Change.path).dedup.map fun p =>
    maxRevision (accepted.filter fun c => c.path = p)
  orderBy Change.revision (latest.flatMap fun revision =>
    changes.filter fun c => c.revision = revision)

/-- The next changes, one more than a page has. -/
def queryWebDAVChanges (changes : List Change) (root : Text) (since : Int) (depth : SyncLevel)
    (limit : Nat) : List Change :=
  (selectedChanges changes (Path.clean root) since depth).take (limit + 1)

/-! ## The page -/

/-- A change as it is answered. -/
def Change.toWebDAV (c : Change) : WebDAVChange := ⟨c.revision, c.path, c.kind⟩

/-- The loop over the rows, with the changes collected so far. -/
def scanWebDAVChanges (root : Text) (depth : SyncLevel) (limit current : Nat) :
    List WebDAVChange → List Change → WebDAVChangePage
  | collected, [] => ⟨collected, current, false⟩
  | collected, row :: rows =>
    if webDAVChangeInScope root row.path depth = false then
      scanWebDAVChanges root depth limit current collected rows
    else if collected.length = limit then
      ⟨collected, (collected.getLast?.map WebDAVChange.revision).getD 0, true⟩
    else scanWebDAVChanges root depth limit current (collected ++ [Change.toWebDAV row]) rows

/-- A page of changes. -/
def webDAVChanges (changes : List Change) (root : Text) (since : Int) (depth : SyncLevel)
    (limit : Int) : Except Err WebDAVChangePage :=
  let limit := if limit ≤ 0 then 1000 else limit.toNat
  let current := maxRevision changes
  if since < 0 then .ok ⟨[], current, false⟩
  else if current < since then .error .webDAVSyncToken
  else
    .ok (scanWebDAVChanges (Path.clean root) depth limit current []
      (queryWebDAVChanges changes root since depth limit))

/-! ## The query accepts every path in scope -/

lemma prefix_trimSlash (front : root ++ ['/'] <+: p) : Path.trimSlash root ++ ['/'] <+: p := by
  unfold Path.trimSlash
  split_ifs with slashed
  · have whole : root.dropLast ++ ['/'] = root := List.dropLast_append_getLast? '/' slashed
    rw [whole]
    exact (List.prefix_append root ['/']).trans front
  · exact front

lemma notMem_drop_of_trimFront {s : Text} (absent : '/' ∉ trimFront s ['/']) :
    '/' ∉ s.drop 1 := by
  unfold trimFront at absent
  split_ifs at absent with slashed
  · exact absent
  · exact fun member => absent (List.mem_of_mem_drop member)

/-- What `substr` leaves of a path below `root` holds no slash that the relative path lacks. -/
lemma notMem_substr (front : root <+: p) (absent : '/' ∉ trimFront (trimFront p root) ['/']) :
    '/' ∉ substr p (byteLength root + 2) := by
  have cut : trimFront p root = p.drop root.length := if_pos front
  rw [cut] at absent
  have later : p.drop (byteLength root + 1) =
      ((p.drop root.length).drop 1).drop (byteLength root - root.length) := by
    have bytes := length_le_byteLength root
    rw [List.drop_drop, List.drop_drop]
    congr 1
    omega
  intro member
  rw [substr, Nat.add_succ_sub_one, later] at member
  exact notMem_drop_of_trimFront absent (List.mem_of_mem_drop member)

lemma isAbs_of_prefix (nonempty : root ≠ []) (front : root <+: p) (abs : Path.isAbs p) :
    Path.isAbs root := by
  obtain ⟨rest, rfl⟩ := front
  cases root with
  | nil => exact absurd rfl nonempty
  | cons c root => exact abs

/-- A path in scope is the root, or below it and at level one without a slash of its own. -/
lemma cases_of_inScope (inScope : webDAVChangeInScope root p depth = true) :
    Path.clean p = Path.clean root ∨
      (if Path.clean root = ['/'] then ['/'] <+: Path.clean p
        else Path.clean root ++ ['/'] <+: Path.clean p) ∧
      (depth = .infinity ∨
        '/' ∉ trimFront (trimFront (Path.clean p) (Path.clean root)) ['/']) := by
  simp only [webDAVChangeInScope] at inScope
  by_cases same : Path.clean p = Path.clean root
  · exact .inl same
  · rw [if_neg same] at inScope
    refine .inr ⟨?_, ?_⟩
    · by_contra outside
      by_cases atRoot : Path.clean root = ['/'] <;> simp_all
    · by_cases level : depth = .infinity
      · exact .inl level
      · rw [if_neg level] at inScope
        split_ifs at inScope
        exact .inr (of_decide_eq_true inScope).2

/-- A relative root has no absolute path in its scope. -/
lemma isAbs_of_inScope {cs : List Text} (names : Path.Names cs)
    (inScope : webDAVChangeInScope root (Path.render cs) depth = true) : Path.isAbs root := by
  rw [← Path.isAbs_clean_eq]
  rcases cases_of_inScope inScope with same | ⟨below, -⟩
  · rw [← same, Path.clean_render names, Path.isAbs_render]
  · rw [Path.clean_render names] at below
    split_ifs at below with atRoot
    · rw [atRoot, Path.isAbs_cons]
    · by_cases empty : Path.clean root = []
      · exact absurd empty (Path.clean_ne_nil root)
      · exact isAbs_of_prefix empty ((List.prefix_append _ _).trans below) (Path.isAbs_render cs)

/-- **The query accepts every path in scope.** -/
lemma queryAccepts_of_inScope {cs : List Text} (names : Path.Names cs)
    (inScope : webDAVChangeInScope (Path.clean root) (Path.render cs) depth = true) :
    queryAccepts (Path.clean root) depth (Path.render cs) = true := by
  have abs : Path.isAbs root := by
    rw [← Path.isAbs_clean_eq]
    exact isAbs_of_inScope names inScope
  have found := cases_of_inScope inScope
  rw [Path.clean_clean abs, Path.clean_render names] at found
  simp only [queryAccepts, decide_eq_true_eq]
  rcases found with same | ⟨below, level⟩
  · exact ⟨.inr (.inl same), .inr (.inl same)⟩
  · have front : Path.clean root <+: Path.render cs := by
      split_ifs at below with atRoot
      · rw [atRoot]
        exact below
      · exact (List.prefix_append _ _).trans below
    refine ⟨?_, level.imp_right fun absent => .inr (notMem_substr front absent)⟩
    split_ifs at below with atRoot
    · obtain ⟨rest, split⟩ := below
      rw [← split]
      exact .inl ⟨atRoot, like_any_of_prefix ['/'] rest⟩
    · exact .inr (.inr ((like_escapeLike_any _ _).mpr (foldCase_isPrefix (prefix_trimSlash below))))

/-! ## The rows of the query -/

lemma le_maxRevision {changes : List Change} {c : Change} (member : c ∈ changes) :
    c.revision ≤ maxRevision changes := by
  induction changes with
  | nil => exact nomatch member
  | cons first changes ih =>
    rcases List.mem_cons.mp member with rfl | later
    · exact Nat.le_max_left _ _
    · exact (ih later).trans (Nat.le_max_right _ _)

lemma maxRevision_attained {changes : List Change} (nonempty : changes ≠ []) :
    ∃ c ∈ changes, c.revision = maxRevision changes := by
  induction changes with
  | nil => exact absurd rfl nonempty
  | cons first changes ih =>
    by_cases empty : changes = []
    · exact ⟨first, List.mem_cons_self, by simp [empty, maxRevision]⟩
    · obtain ⟨c, member, top⟩ := ih empty
      rcases Nat.le_total first.revision c.revision with le | le
      · refine ⟨c, List.mem_cons_of_mem _ member, ?_⟩
        exact top.trans (Nat.max_eq_right (top ▸ le)).symm
      · have below : maxRevision changes ≤ first.revision := top ▸ le
        exact ⟨first, List.mem_cons_self, (Nat.max_eq_left below).symm⟩

/-- The record with the highest revision of its path. -/
def IsLatest (changes : List Change) (c : Change) : Prop :=
  c ∈ changes ∧ ∀ other ∈ changes, other.path = c.path → other.revision ≤ c.revision

namespace ChangeJournal

variable (journal : ChangeJournal) {cleanRoot : Text} {since : Int} {depth : SyncLevel} {c : Change}

lemma rendered (member : c ∈ journal.changes) :
    ∃ cs, Path.Names cs ∧ c.path = Path.render cs := by
  obtain ⟨abs, cleaned⟩ := journal.cleaned c member
  exact ⟨Path.elements c.path, Path.names_elements abs,
    cleaned.symm.trans (Path.clean_eq_render abs)⟩

lemma revisions_nodup : (journal.changes.map Change.revision).Nodup :=
  List.pairwise_map.mpr (journal.increasing.imp Nat.ne_of_lt)

lemma eq_of_revision {a b : Change} (left : a ∈ journal.changes) (right : b ∈ journal.changes)
    (same : a.revision = b.revision) : a = b :=
  List.inj_on_of_nodup_map journal.revisions_nodup left right same

/-- The rows the `WHERE` clause keeps. -/
def accepted (cleanRoot : Text) (since : Int) (depth : SyncLevel) : List Change :=
  journal.changes.filter fun c => since < c.revision ∧ queryAccepts cleanRoot depth c.path

lemma mem_accepted :
    c ∈ journal.accepted cleanRoot since depth ↔
      c ∈ journal.changes ∧ since < c.revision ∧ queryAccepts cleanRoot depth c.path = true := by
  simp [accepted]

lemma exists_group_max {p : Text}
    (grouped : p ∈ (journal.accepted cleanRoot since depth).map Change.path) :
    ∃ top ∈ journal.accepted cleanRoot since depth, top.path = p ∧
      top.revision = maxRevision ((journal.accepted cleanRoot since depth).filter
        (·.path = p)) := by
  obtain ⟨first, accepted, path⟩ := List.mem_map.mp grouped
  have nonempty : (journal.accepted cleanRoot since depth).filter (·.path = p) ≠ [] :=
    List.ne_nil_of_mem (List.mem_filter.mpr ⟨accepted, decide_eq_true path⟩)
  obtain ⟨top, member, revision⟩ := maxRevision_attained nonempty
  obtain ⟨topAccepted, topPath⟩ := List.mem_filter.mp member
  exact ⟨top, topAccepted, of_decide_eq_true topPath, revision⟩

/-- The row a group of the query joins with is the latest record of the group's path. -/
lemma revision_eq_max_iff {p : Text}
    (grouped : p ∈ (journal.accepted cleanRoot since depth).map Change.path)
    (member : c ∈ journal.changes) :
    c.revision = maxRevision ((journal.accepted cleanRoot since depth).filter (·.path = p)) ↔
      c.path = p ∧ c ∈ journal.accepted cleanRoot since depth ∧ IsLatest journal.changes c := by
  obtain ⟨top, topAccepted, samePath, topRevision⟩ := journal.exists_group_max grouped
  obtain ⟨topIn, topAfter, topQuery⟩ := journal.mem_accepted.mp topAccepted
  have topLatest : IsLatest journal.changes top := by
    refine ⟨topIn, fun other otherIn path => ?_⟩
    by_contra above
    have otherAccepted : other ∈ journal.accepted cleanRoot since depth :=
      journal.mem_accepted.mpr ⟨otherIn, by omega, path ▸ topQuery⟩
    have here : other ∈ (journal.accepted cleanRoot since depth).filter (·.path = p) :=
      List.mem_filter.mpr ⟨otherAccepted, decide_eq_true (path.trans samePath)⟩
    have bound := le_maxRevision here
    omega
  constructor
  · intro same
    have whole : c = top := journal.eq_of_revision member topIn (same.trans topRevision.symm)
    rw [whole]
    exact ⟨samePath, topAccepted, topLatest⟩
  · rintro ⟨path, -, latest⟩
    rw [← topRevision]
    exact Nat.le_antisymm (topLatest.2 c member (path.trans samePath.symm))
      (latest.2 top topIn (samePath.trans path.symm))

/-- The rows of the query before its cut. -/
def selected (root : Text) (since : Int) (depth : SyncLevel) : List Change :=
  selectedChanges journal.changes (Path.clean root) since depth

lemma mem_selected {root : Text} :
    c ∈ journal.selected root since depth ↔
      c ∈ journal.accepted (Path.clean root) since depth ∧ IsLatest journal.changes c := by
  simp only [selected, selectedChanges, mem_orderBy, List.mem_flatMap, List.mem_map, List.mem_dedup]
  constructor
  · rintro ⟨revision, ⟨p, grouped, rfl⟩, joined⟩
    obtain ⟨member, same⟩ := List.mem_filter.mp joined
    exact ((journal.revision_eq_max_iff (List.mem_map.mpr grouped) member).mp
      (of_decide_eq_true same)).2
  · rintro ⟨accepted, latest⟩
    have grouped := List.mem_map_of_mem (f := Change.path) accepted
    have top := (journal.revision_eq_max_iff grouped latest.1).mpr ⟨rfl, accepted, latest⟩
    exact ⟨_, ⟨c.path, List.mem_map.mp grouped, rfl⟩,
      List.mem_filter.mpr ⟨latest.1, decide_eq_true top⟩⟩

/-- Revisions increase strictly along the rows of the query. -/
lemma selected_increasing (root : Text) (since : Int) (depth : SyncLevel) :
    (journal.selected root since depth).Pairwise fun a b => a.revision < b.revision := by
  have distinct : (journal.selected root since depth).Nodup := by
    refine (orderBy_perm _ _).nodup_iff.mpr (List.nodup_flatMap.mpr ⟨fun _ _ => ?_, ?_⟩)
    · exact (journal.revisions_nodup.of_map _).filter _
    · refine (List.nodup_map_iff_inj_on (List.nodup_dedup _)).mpr ?_ |>.imp ?_
      · intro p left q right same
        obtain ⟨top, topAccepted, topPath, revision⟩ :=
          journal.exists_group_max (List.mem_dedup.mp left)
        have other := (journal.revision_eq_max_iff (List.mem_dedup.mp right)
          (journal.mem_accepted.mp topAccepted).1).mp (revision.trans same)
        exact topPath.symm.trans other.1
      · intro a b different
        refine fun c left right => different ?_
        rw [← of_decide_eq_true (List.mem_filter.mp left).2,
          ← of_decide_eq_true (List.mem_filter.mp right).2]
  refine ((orderBy_sorted Change.revision _).and distinct).imp_of_mem ?_
  intro a b left right ordered
  have leftIn := (journal.mem_selected.mp left).2.1
  have rightIn := (journal.mem_selected.mp right).2.1
  exact Nat.lt_of_le_of_ne ordered.1 fun same =>
    ordered.2 (journal.eq_of_revision leftIn rightIn same)

end ChangeJournal

/-! ## The loop over the rows -/

lemma scanWebDAVChanges_eq (root : Text) (depth : SyncLevel) (limit current : Nat)
    (rows : List Change) (collected : List WebDAVChange) (room : collected.length ≤ limit) :
    scanWebDAVChanges root depth limit current collected rows =
      let kept := rows.filter fun c => webDAVChangeInScope root c.path depth
      if collected.length + kept.length ≤ limit then
        ⟨collected ++ kept.map Change.toWebDAV, current, false⟩
      else
        let page := collected ++ (kept.take (limit - collected.length)).map Change.toWebDAV
        ⟨page, (page.getLast?.map WebDAVChange.revision).getD 0, true⟩ := by
  induction rows generalizing collected with
  | nil => simp [scanWebDAVChanges, room]
  | cons row rows ih =>
    cases inScope : webDAVChangeInScope root row.path depth with
    | false =>
      simp only [scanWebDAVChanges, inScope, ↓reduceIte, ih collected room, List.filter_cons,
        Bool.false_eq_true]
    | true =>
      simp only [scanWebDAVChanges, inScope, Bool.true_eq_false, ↓reduceIte,
        List.filter_cons, List.length_cons, List.map_cons]
      split_ifs with full fits fits
      · omega
      · simp [full]
      · rw [ih _ (by rw [List.length_append, List.length_singleton]; omega)]
        simp only [List.length_append, List.length_singleton]
        rw [if_pos (by omega)]
        simp
      · rw [ih _ (by rw [List.length_append, List.length_singleton]; omega)]
        have more : limit - collected.length = limit - (collected.length + 1) + 1 := by omega
        simp only [List.length_append, List.length_singleton]
        rw [if_neg (by omega), more, List.take_succ_cons]
        simp

end TgFile.WebDAV
