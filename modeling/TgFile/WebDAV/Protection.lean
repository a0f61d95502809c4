import TgFile.System.Model

/-! # What locks protect

A WebDAV request that changes paths under a lock is meant to succeed only when its `If` header
submits the lock's token.  The transactions look up locks and let each through when some list of
the header holds for it, so a list of entity tags and negated tokens is enough.  This module says
when the lists of a header cannot do without the token. -/

namespace TgFile

open Go Go.Path Result WebDAV Store

/-- `a` is a proper ancestor of `b`. -/
def ProperAncestor (a b : Text) : Prop := elements a <+: elements b ∧ elements a ≠ elements b

instance (a b : Text) : Decidable (ProperAncestor a b) := inferInstanceAs (Decidable (_ ∧ _))

/-- A path that a request changes, and whether everything below it changes as well. -/
structure Affected where
  path : Text
  tree : Bool
  deriving DecidableEq, Repr

section
variable (s : Store)

/-- The paths a request changes.  A LOCK request changes a path only by creating it. -/
def DavRequest.affected : DavRequest → List Affected
  | .mkcol path => [⟨path.text, false⟩]
  | .put path _ _ => [⟨path.text, false⟩]
  | .delete path => [⟨path.text, true⟩]
  | .copy _ destination _ _ => [⟨destination.text, true⟩]
  | .move source destination _ => [⟨source.text, true⟩, ⟨destination.text, true⟩]
  | .proppatch path _ => [⟨path.text, false⟩]
  | .lock path _ _ _ _ _ _ => if s.dir.txStat path.text = .ok none then [⟨path.text, false⟩] else []
  | _ => []

/-- The lock covers an affected path. -/
def Covers (lock : WebDAVLock) (affected : Affected) : Prop :=
  lock.rootPath = affected.path ∨
    (lock.depth = .infinity ∧ ProperAncestor lock.rootPath affected.path) ∨
    (affected.tree = true ∧ ProperAncestor affected.path lock.rootPath)

instance (lock : WebDAVLock) (affected : Affected) : Decidable (Covers lock affected) :=
  inferInstanceAs (Decidable (_ ∨ _))

/-- The unexpired locks that cover a path the request changes. -/
def DavRequest.Covered (now : Int) (request : DavRequest) (lock : WebDAVLock) : Prop :=
  lock ∈ s.locks ∧ now < lock.expiresAt ∧ ∃ affected ∈ request.affected s, Covers lock affected

instance (now : Int) (request : DavRequest) (lock : WebDAVLock) :
    Decidable (request.Covered s now lock) :=
  inferInstanceAs (Decidable (_ ∧ _ ∧ _))

/-- The header contains the token as a state token that is not negated. -/
def Submitted (condition : Option Condition) (token : Text) : Prop :=
  ∃ list ∈ Condition.lists condition, ∃ term ∈ list.terms,
    term.not = false ∧ term.lockToken ≠ [] ∧ term.lockToken = token

instance (condition : Option Condition) (token : Text) : Decidable (Submitted condition token) :=
  inferInstanceAs (Decidable (∃ list ∈ _, ∃ term ∈ _, _))

/-- A list made only of entity tags and negated conditions. -/
def TokenFree (list : IfList) : Prop :=
  ∀ term ∈ list.terms, term.not = true ∨ term.lockToken = []

/-- A token-free list of the header that applies to the path holds for the lock. -/
def Bypassed (condition : Option Condition) (path : Text) (lock : WebDAVLock) : Prop :=
  ∃ etag, s.queryWebDAVETagByPath path = .ok etag ∧
    ∃ list ∈ Condition.lists condition, TokenFree list ∧
      webDAVIfListApplies list (Condition.requested condition) (clean path) = true ∧
      webDAVIfListSatisfied list etag [lock] = true

/-- The lock lookups of a request: each path with the locks found for it. -/
def DavRequest.lookups (now : Int) : DavRequest → List (Text × List WebDAVLock)
  | .mkcol path => [(path.text, s.queryApplicableWebDAVLocks now path.text)]
  | .put path _ _ => [(path.text, s.queryApplicableWebDAVLocks now path.text)]
  | .proppatch path _ => [(path.text, s.queryApplicableWebDAVLocks now path.text)]
  | .delete path => [(path.text, s.queryOverlappingWebDAVLocks now path.text)]
  | .copy _ destination _ _ =>
    [(destination.text,
      if s.dir.txStat destination.text = .ok none then
        s.queryApplicableWebDAVLocks now destination.text
      else s.queryOverlappingWebDAVLocks now destination.text)]
  | .move source destination _ =>
    [(source.text, s.queryOverlappingWebDAVLocks now source.text),
      (destination.text, s.queryOverlappingWebDAVLocks now destination.text)]
  | _ => []

/-- The header lets every lock through that was found for a path. -/
def LetsThrough (condition : Option Condition) (path : Text) (found : List WebDAVLock) : Prop :=
  ∀ lock ∈ found, ∃ etag, s.queryWebDAVETagByPath path = .ok etag ∧
    webDAVIfHeaderAllows condition path etag [lock] = true

/-- What the check of a lookup asks of the header: it lets every lock through, and where there is no
lock but a list for the path, it holds without one. -/
def Admits (condition : Option Condition) (lookup : Text × List WebDAVLock) : Prop :=
  LetsThrough s condition lookup.1 lookup.2 ∧
    (lookup.2 = [] → hasApplicableWebDAVIfList condition lookup.1 = true →
      ∃ etag, s.queryWebDAVETagByPath lookup.1 = .ok etag ∧
        webDAVIfHeaderAllows condition lookup.1 etag [] = true)

end

/-- The condition with some lists of its `If` header. -/
def WebDAV.Condition.keeping (keep : IfList → Bool) (condition : Option Condition) :
    Option Condition :=
  condition.map fun condition =>
    { condition with ifHeader := condition.ifHeader.map fun header => ⟨header.lists.filter keep⟩ }

/-- The request with some lists of its `If` header. -/
def Store.MutationOptions.keeping (keep : IfList → Bool) (options : MutationOptions) :
    MutationOptions :=
  { options with condition := Condition.keeping keep options.condition }

variable {env : Env} {s s' : Store} {now : Int} {options : MutationOptions} {path : Text}
  {condition : Option Condition} {keep : IfList → Bool}

lemma lists_keeping : Condition.lists (Condition.keeping keep condition) =
    (Condition.lists condition).filter keep := by
  rcases condition with _ | ⟨_, _, _, _, _ | header, _⟩ <;> rfl

lemma requested_keeping :
    Condition.requested (Condition.keeping keep condition) = Condition.requested condition := by
  cases condition <;> rfl

/-- The other conditional headers do not change. -/
lemma evaluateWebDAVCondition_keeping (link : Option Link) :
    evaluateWebDAVCondition link (Condition.keeping keep condition) =
      evaluateWebDAVCondition link condition := by
  cases condition <;> rfl

/-! ## The lock checks -/

lemma assertWebDAVLocksAt_ok : s.assertWebDAVLocksAt now condition path = .ok () ↔
    Admits s condition (path, s.queryApplicableWebDAVLocks now path) := by
  simp only [assertWebDAVLocksAt, Admits, LetsThrough]
  generalize s.queryApplicableWebDAVLocks now path = locks
  cases s.queryWebDAVETagByPath path with
  | error err => cases locks <;> simp [List.forall_mem_cons, -List.mem_cons]
  | ok etag => cases locks <;> simp [imp_iff_not_or]

lemma assertWebDAVTreeLocksAt_ok : s.assertWebDAVTreeLocksAt now condition path = .ok () ↔
    (∃ etag, s.queryWebDAVETagByPath path = .ok etag) ∧
      Admits s condition (path, s.queryOverlappingWebDAVLocks now path) := by
  simp only [assertWebDAVTreeLocksAt, Admits, LetsThrough]
  generalize s.queryOverlappingWebDAVLocks now path = locks
  cases s.queryWebDAVETagByPath path with
  | error err => simp
  | ok etag => simp

lemma assertWebDAVLocksTx_ok {paths : List Text} {u : Unit} :
    s.assertWebDAVLocksTx now paths condition = .ok u ↔
      ∀ path ∈ paths, Admits s condition (path, s.queryApplicableWebDAVLocks now path) := by
  simp only [← assertWebDAVLocksAt_ok]
  exact ⟨forM_ok, forM_of_forall⟩

lemma assertWebDAVTreeLocksTx_ok {paths : List Text} {u : Unit} :
    s.assertWebDAVTreeLocksTx now paths condition = .ok u ↔
      ∀ path ∈ paths, (∃ etag, s.queryWebDAVETagByPath path = .ok etag) ∧
        Admits s condition (path, s.queryOverlappingWebDAVLocks now path) := by
  simp only [← assertWebDAVTreeLocksAt_ok]
  exact ⟨forM_ok, forM_of_forall⟩

/-- The lookup of a copy is the one that its check of the destination makes. -/
lemma prepareWebDAVCopyDestinationTx_ok {destination : Text} {present : Bool}
    (run : s.prepareWebDAVCopyDestinationTx now destination options = .ok present) :
    let found := if s.dir.txStat destination = .ok none then
        s.queryApplicableWebDAVLocks now destination
      else s.queryOverlappingWebDAVLocks now destination
    Admits s options.condition (destination, found) ∧
      ∀ keep, Admits s (Condition.keeping keep options.condition) (destination, found) →
        s.prepareWebDAVCopyDestinationTx now destination (options.keeping keep) = .ok present := by
  simp only [prepareWebDAVCopyDestinationTx, bind_ok] at run ⊢
  obtain ⟨_, parent, entry, looked, _, checked, created⟩ := run
  cases entry with
  | none =>
    rw [if_pos looked]
    refine ⟨assertWebDAVLocksTx_ok.mp checked destination List.mem_cons_self, fun keep passes =>
      ⟨(), parent, none, looked, (), assertWebDAVLocksTx_ok.mpr fun path member => ?_, created⟩⟩
    rw [List.mem_singleton.mp member]
    exact passes
  | some entry =>
    have tree := assertWebDAVTreeLocksTx_ok.mp checked destination List.mem_cons_self
    rw [if_neg (by simp [looked])]
    refine ⟨tree.2, fun keep passes => ⟨(), parent, some entry, looked, (),
      assertWebDAVTreeLocksTx_ok.mpr fun path member => ?_, created⟩⟩
    rw [List.mem_singleton.mp member]
    exact ⟨tree.1, passes⟩

/-- A request that succeeds has passed the check of each of its lookups, and it succeeds with some
lists of its header if they pass the checks too. -/
lemma DavRequest.run_keeping {request : DavRequest}
    (run : request.run env now options s = .ok s') :
    (∀ lookup ∈ request.lookups s now, Admits s options.condition lookup) ∧
      ∀ keep, request.affected s ≠ [] →
        (∀ lookup ∈ request.lookups s now, Admits s (options.keeping keep).condition lookup) →
        request.run env now (options.keeping keep) s = .ok s' := by
  cases request with
  | mkcol path =>
    simp only [DavRequest.run, DavRequest.lookups, createWebDAVCollection, assertWebDAVConditionsTx,
      evaluateFirstWebDAVConditionTx, MutationOptions.keeping, evaluateWebDAVCondition_keeping,
      assertWebDAVLocksTx_ok, bind_ok, List.forall_mem_singleton] at run ⊢
    obtain ⟨_, ⟨_, first, checked⟩, rest⟩ := run
    exact ⟨checked, fun keep _ passes => ⟨(), ⟨(), first, passes⟩, rest⟩⟩
  | put path fileID size =>
    simp only [DavRequest.run, DavRequest.lookups, map_ok, publishWebDAVFile,
      prepareWebDAVPublishTx, MutationOptions.keeping, evaluateWebDAVCondition_keeping,
      assertWebDAVLocksTx_ok, bind_ok, List.forall_mem_singleton] at run ⊢
    obtain ⟨a, ⟨b, ⟨c, current, d, link, _, file, _, first, _, checked, rest⟩, stored⟩, same⟩ := run
    exact ⟨checked, fun keep _ passes =>
      ⟨a, ⟨b, ⟨c, current, d, link, (), file, (), first, (), passes, rest⟩, stored⟩, same⟩⟩
  | delete path =>
    simp only [DavRequest.run, DavRequest.lookups, deleteWebDAVResource, MutationOptions.keeping,
      evaluateWebDAVCondition_keeping, assertWebDAVTreeLocksTx_ok, bind_ok,
      List.forall_mem_singleton] at run ⊢
    obtain ⟨entry, found, link, linked, _, first, _, few, _, checked, rest⟩ := run
    exact ⟨checked.2, fun keep _ passes =>
      ⟨entry, found, link, linked, (), first, (), few, (), ⟨checked.1, passes⟩, rest⟩⟩
  | copy source destination overwrite recursive =>
    simp only [DavRequest.run, DavRequest.lookups, map_ok, copyWebDAVResource, bind_ok,
      List.forall_mem_singleton] at run ⊢
    obtain ⟨a, ⟨entry, found, link, linked, _, first, _, few, present, checked, rest⟩, same⟩ := run
    obtain ⟨passed, again⟩ := prepareWebDAVCopyDestinationTx_ok checked
    refine ⟨passed, fun keep _ passes => ⟨a, ⟨entry, found, link, linked, (), ?_, (), few, present,
      again keep passes, rest⟩, same⟩⟩
    rw [MutationOptions.keeping, evaluateWebDAVCondition_keeping]
    exact first
  | move source destination overwrite =>
    simp only [DavRequest.run, DavRequest.lookups, map_ok, moveWebDAVResource,
      MutationOptions.keeping, evaluateWebDAVCondition_keeping, assertWebDAVTreeLocksTx_ok, bind_ok,
      List.forall_mem_cons, List.not_mem_nil, false_imp_iff, implies_true, and_true] at run ⊢
    obtain ⟨a, ⟨entry, found, link, linked, _, first, _, few, _, checked, rest⟩, same⟩ := run
    exact ⟨⟨checked.1.2, checked.2.2⟩, fun keep _ passes => ⟨a, ⟨entry, found, link, linked, (),
      first, (), few, (), ⟨⟨checked.1.1, passes.1⟩, checked.2.1, passes.2⟩, rest⟩, same⟩⟩
  | proppatch path patches =>
    simp only [DavRequest.run, DavRequest.lookups, patchWebDAVProperties, assertWebDAVConditionsTx,
      evaluateFirstWebDAVConditionTx, MutationOptions.keeping, evaluateWebDAVCondition_keeping,
      assertWebDAVLocksTx_ok, bind_ok, List.forall_mem_singleton] at run ⊢
    obtain ⟨entry, found, _, ⟨_, first, checked⟩, rest⟩ := run
    exact ⟨checked, fun keep _ passes => ⟨entry, found, (), ⟨(), first, passes⟩, rest⟩⟩
  | lock => exact ⟨List.forall_mem_nil _, fun _ _ _ => run⟩
  | cleanup => exact ⟨List.forall_mem_nil _, fun _ changes => absurd rfl changes⟩
  | refresh => exact ⟨List.forall_mem_nil _, fun _ changes => absurd rfl changes⟩
  | unlock => exact ⟨List.forall_mem_nil _, fun _ changes => absurd rfl changes⟩

/-! ## Lists with and without tokens -/

lemma webDAVIfHeaderAllows_iff {etag : Text} {locks : List WebDAVLock} :
    webDAVIfHeaderAllows condition path etag locks = true ↔
      ∃ list ∈ Condition.lists condition,
        webDAVIfListApplies list (Condition.requested condition) (clean path) = true ∧
          webDAVIfListSatisfied list etag locks = true := by
  simp only [webDAVIfHeaderAllows, List.any_eq_true, Bool.and_eq_true]

lemma webDAVIfHeaderAllows_keeping {etag : Text} {locks : List WebDAVLock} :
    webDAVIfHeaderAllows (Condition.keeping keep condition) path etag locks = true ↔
      ∃ list ∈ Condition.lists condition, keep list = true ∧
        webDAVIfListApplies list (Condition.requested condition) (clean path) = true ∧
          webDAVIfListSatisfied list etag locks = true := by
  simp only [webDAVIfHeaderAllows_iff, lists_keeping, requested_keeping, List.mem_filter, and_assoc]

/-- A positive token of a list that holds is the token of one of the locks. -/
lemma token_of_satisfied {list : IfList} {etag : Text} {locks : List WebDAVLock} {term : IfTerm}
    (satisfied : webDAVIfListSatisfied list etag locks = true) (inList : term ∈ list.terms)
    (positive : term.not = false) (token : term.lockToken ≠ []) :
    ∃ lock ∈ locks, lock.token = term.lockToken := by
  have holds := List.all_eq_true.mp satisfied term inList
  simpa [webDAVIfTermSatisfied, positive, token] using holds

lemma tokenFree_of_satisfied {list : IfList} {etag : Text}
    (satisfied : webDAVIfListSatisfied list etag [] = true) : TokenFree list := by
  intro term inList
  by_contra tokens
  obtain ⟨positive, token⟩ := not_or.mp tokens
  obtain ⟨lock, none, -⟩ :=
    token_of_satisfied satisfied inList (Bool.not_eq_true _ ▸ positive) token
  cases none

/-- A list that holds for one lock and is not token-free submits the token of that lock. -/
lemma submitted_of_satisfied {list : IfList} {etag : Text} {lock : WebDAVLock}
    (member : list ∈ Condition.lists condition) (tokens : ¬TokenFree list)
    (satisfied : webDAVIfListSatisfied list etag [lock] = true) :
    Submitted condition lock.token := by
  simp only [TokenFree, not_forall, not_or, Bool.not_eq_true] at tokens
  obtain ⟨term, inList, positive, token⟩ := tokens
  obtain ⟨other, one, same⟩ := token_of_satisfied satisfied inList positive token
  rw [List.mem_singleton.mp one] at same
  exact ⟨list, member, term, inList, positive, token, same.symm⟩

/-- Without a lock, only token-free lists hold. -/
lemma Admits.keeping {lookup : Text × List WebDAVLock} (passes : Admits s condition lookup)
    (free : ∀ list, TokenFree list → keep list = true)
    (through : LetsThrough s (Condition.keeping keep condition) lookup.1 lookup.2) :
    Admits s (Condition.keeping keep condition) lookup := by
  refine ⟨through, fun none applicable => ?_⟩
  obtain ⟨list, member, applies⟩ := List.any_eq_true.mp applicable
  rw [lists_keeping, List.mem_filter] at member
  rw [requested_keeping] at applies
  obtain ⟨etag, tagged, allowed⟩ :=
    passes.2 none (List.any_eq_true.mpr ⟨list, member.1, applies⟩)
  obtain ⟨list, member, applies, satisfied⟩ := webDAVIfHeaderAllows_iff.mp allowed
  exact ⟨etag, tagged, webDAVIfHeaderAllows_keeping.mpr
    ⟨list, member, free list (tokenFree_of_satisfied satisfied), applies, satisfied⟩⟩

/-- The lists that do not submit a token. -/
def withoutToken (token : Text) (list : IfList) : Bool :=
  ∀ term ∈ list.terms, term.not = false → term.lockToken ≠ [] → term.lockToken ≠ token

/-- Without the lists that submit a token, every other lock is let through as before. -/
lemma LetsThrough.withoutToken {token : Text} {found : List WebDAVLock}
    (through : LetsThrough s condition path found)
    (bypassed : ∀ lock ∈ found, lock.token = token → Bypassed s condition path lock) :
    LetsThrough s (Condition.keeping (TgFile.withoutToken token) condition) path found := by
  intro lock member
  by_cases own : lock.token = token
  · obtain ⟨etag, tagged, list, inHeader, free, applies, satisfied⟩ := bypassed lock member own
    refine ⟨etag, tagged, webDAVIfHeaderAllows_keeping.mpr ⟨list, inHeader, ?_, applies, satisfied⟩⟩
    refine decide_eq_true fun term inList positive present => ?_
    rcases free term inList with negated | none
    · rw [positive] at negated
      cases negated
    · exact absurd none present
  · obtain ⟨etag, tagged, allowed⟩ := through lock member
    obtain ⟨list, inHeader, applies, satisfied⟩ := webDAVIfHeaderAllows_iff.mp allowed
    refine ⟨etag, tagged, webDAVIfHeaderAllows_keeping.mpr ⟨list, inHeader, ?_, applies, satisfied⟩⟩
    refine decide_eq_true fun term inList positive present same => own ?_
    obtain ⟨other, one, tokens⟩ := token_of_satisfied satisfied inList positive present
    rw [← List.mem_singleton.mp one, tokens, same]

/-- A request for the path with an `If` header of these lists. -/
def withLists (path : Text) (lists : List IfList) : MutationOptions where
  condition := some
    { ifMatch := [], ifNoneMatch := [], ifModifiedSince := none, ifUnmodifiedSince := none,
      ifHeader := some ⟨lists⟩, requestPath := path }
  maxEntries := 0
  quotaRoot := ['/']
  quotaBytes := 0

/-- The header of one untagged list with one term. -/
def oneTerm (path : Text) (term : IfTerm) : MutationOptions := withLists path [⟨[], [term]⟩]

/-- No conditions. -/
def noOptions : MutationOptions := ⟨none, 0, ['/'], 0⟩

/-- A directory. -/
def collectionD : Resource := ⟨"/d".toList, by decide, by decide⟩

/-- A file in it. -/
def fileDF : Resource := ⟨"/d/f".toList, by decide, by decide⟩

/-- The collection `/d` under an infinity lock, and an empty File 1. -/
def lockedCollection : System :=
  (System.init 0).run .plain noArchive
    [.job .importRoot, .dav (.mkcol collectionD) noOptions,
      .dav (.lock collectionD .infinity [] "alice".toList 3600000 0 "u".toList) noOptions,
      .createDraft 0 false, .finishCreate 0]

/-- The header `(Not <token>)` of a request for `/d/f`. -/
def negates (token : Text) : MutationOptions := oneTerm fileDF.text ⟨true, token, []⟩

/-- The request that puts the File into the collection. -/
def putDF : DavRequest := .put fileDF 1 0

/-- The header `(<token>) (Not <token>)` of a request for `/d/f`. -/
def submitsOrNegates (token : Text) : MutationOptions :=
  withLists fileDF.text [⟨[], [⟨false, token, []⟩]⟩, ⟨[], [⟨true, token, []⟩]⟩]

end TgFile
