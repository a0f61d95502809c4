import TgFile.S3.ListV2

/-! # The condition checks of the handler

A conditional PutObject is checked twice: `fastCheckCondition` before the body is read, and
`evaluateS3Condition` in the transaction that publishes the object.  The source of a CopyObject is
checked by `checkConditionAgainstInfo` and then in the transaction.  The checks are written
separately; on objects whose ETag is an entity tag they agree. -/

namespace TgFile.S3

open Go Result Store

variable {etag value : Text} {condition : S3Condition}

/-! ## ETag lists -/

/-- One entity tag in quotes. -/
def validSingleETag (value : Text) : Bool :=
  2 ≤ value.length ∧ ['"'] <+: value ∧ ['"'] <:+ value ∧ '"' ∉ value.tail.dropLast

/-- The loop of `etagListContains`.  A weak comparison strips the ETag again at each candidate. -/
def etagAmong (weak : Bool) : List Text → Text → Bool
  | [], _ => false
  | candidate :: rest, etag =>
    let candidate := trimSpace candidate
    let candidate := if weak then trimFront candidate ['W', '/'] else candidate
    let etag := if weak then trimFront etag ['W', '/'] else etag
    if candidate = etag then true else etagAmong weak rest etag

/-- The tag is in the list of a header. -/
def etagListContains (headerValue etag : Text) (weak : Bool) : Bool :=
  etagAmong weak (headerValue.splitOn ',') etag

/-! ## Conditions of a request -/

/-- The answer 412. -/
def APIError.preconditionFailed : APIError :=
  ⟨412, "PreconditionFailed", "At least one of the preconditions you specified did not hold."⟩

/-- The conditions of a request on its destination. -/
def parseDestinationCondition (ifMatch ifNoneMatch : Text) : Except APIError S3Condition := do
  require (ifMatch = [] ∨ ifNoneMatch = [])
    (APIError.invalidRequest "If-Match and If-None-Match cannot be combined.")
  require (ifNoneMatch = [] ∨ ifNoneMatch = ['*'])
    (APIError.invalidRequest "PutObject only supports If-None-Match: *.")
  require (ifMatch = [] ∨ ifMatch = ['*'] ∨ validSingleETag ifMatch = true)
    (APIError.invalidRequest "If-Match must contain one valid ETag.")
  pure ⟨ifMatch, ifNoneMatch, none, none⟩

/-! ## Checks -/

/-- The check before the body is read. -/
def fastCheckCondition (env : Env) (s : Store) (objectPath : Text) (condition : S3Condition) :
    Except APIError Unit :=
  match s.statS3Object env objectPath with
  | .error .notExist => require (condition.ifMatch = []) APIError.preconditionFailed
  | .error _ => .error .internalError
  | .ok info => do
      require (condition.ifNoneMatch ≠ ['*']) APIError.preconditionFailed
      require (condition.ifMatch = [] ∨ condition.ifMatch = ['*'] ∨
        ¬ ['W', '/'] <+: info.metadata.etag ∧ info.metadata.etag = condition.ifMatch)
        APIError.preconditionFailed

/-- The conditions hold for an object. -/
def checkConditionAgainstInfo (condition : S3Condition) (info : S3ObjectInfo) :
    Except APIError Unit := do
  require (condition.ifMatch = [] ∨ condition.ifMatch = ['*'] ∨
    ¬ ['W', '/'] <+: info.metadata.etag ∧
      etagListContains condition.ifMatch info.metadata.etag false = true)
    APIError.preconditionFailed
  require (condition.ifNoneMatch = [] ∨ condition.ifNoneMatch ≠ ['*'] ∧
    etagListContains condition.ifNoneMatch info.metadata.etag true = false)
    APIError.preconditionFailed
  let modified := truncateSecond info.link.mtime
  require (condition.ifMatch ≠ [] ∨
    ∀ limit ∈ condition.ifUnmodifiedSince, modified ≤ truncateSecond limit)
    APIError.preconditionFailed
  require (condition.ifNoneMatch ≠ [] ∨
    ∀ limit ∈ condition.ifModifiedSince, truncateSecond limit < modified)
    APIError.preconditionFailed

/-! ## Entity tags -/

/-- An entity tag: a text in double quotes, with `W/` in front of it when it is weak. -/
def EntityTag (etag : Text) : Prop :=
  ∃ body : Text, etag = '"' :: (body ++ ['"']) ∨ etag = 'W' :: '/' :: '"' :: (body ++ ['"'])

/-- Stripping `W/` from an entity tag leaves nothing more to strip. -/
lemma EntityTag.trimFront_idem (tag : EntityTag etag) :
    trimFront (trimFront etag ['W', '/']) ['W', '/'] = trimFront etag ['W', '/'] := by
  obtain ⟨body, rfl | rfl⟩ := tag <;> simp [trimFront]

lemma etagAmong_eq (weak : Bool) (candidates : List Text)
    (once : trimFront (trimFront etag ['W', '/']) ['W', '/'] = trimFront etag ['W', '/']) :
    etagAmong weak candidates etag = candidates.any fun candidate =>
      (if weak then trimFront (trimSpace candidate) ['W', '/'] else trimSpace candidate) =
        if weak then trimFront etag ['W', '/'] else etag := by
  induction candidates generalizing etag with
  | nil => rfl
  | cons candidate rest ih =>
    cases weak with
    | false => simp [etagAmong, ih once]
    | true => simp [etagAmong, ih (congrArg (trimFront · ['W', '/']) once), once]

lemma EntityTag.etagListContains_eq (tag : EntityTag etag) (value : Text) (weak : Bool) :
    etagListContains value etag weak = s3ETagListContains value etag weak := by
  rw [etagListContains, etagAmong_eq weak _ tag.trimFront_idem]
  rfl

/-! ## Lists with one tag -/

lemma count_trimSpace (c : Char) (s : Text) : (trimSpace s).count c ≤ s.count c := by
  refine List.Sublist.count_le _ ?_
  refine (List.reverse_sublist.mpr (List.dropWhile_sublist _)).trans ?_
  rw [List.reverse_reverse]
  exact List.dropWhile_sublist _

/-- An item of a list has no more of a character than the list. -/
lemma count_of_mem_splitOn {c separator : Char} {s item : Text}
    (member : item ∈ s.splitOn separator) : item.count c ≤ s.count c := by
  induction s generalizing item with
  | nil =>
    rw [List.splitOn_nil, List.mem_singleton] at member
    rw [member]
  | cons x s ih =>
    have tail : s.count c ≤ (x :: s).count c := List.count_le_count_cons
    rw [List.splitOn, List.splitOnP_cons_eq_if_modifyHead] at member
    split_ifs at member with isSeparator
    · rcases List.mem_cons.mp member with rfl | later
      · exact Nat.zero_le _
      · exact (ih later).trans tail
    · obtain ⟨head, rest, split⟩ := List.exists_cons_of_ne_nil
        (List.splitOnP_ne_nil (fun y => y == separator) s)
      rw [split, List.modifyHead_cons] at member
      rcases List.mem_cons.mp member with rfl | later
      · have headLe : head.count c ≤ s.count c :=
          ih (by rw [List.splitOn, split]; exact List.mem_cons_self)
        simp only [List.count_cons]
        omega
      · exact (ih (by rw [List.splitOn, split]; exact List.mem_cons_of_mem _ later)).trans tail

lemma trimSpace_quoted (body : Text) :
    trimSpace ('"' :: (body ++ ['"'])) = '"' :: (body ++ ['"']) := by
  have quote : isSpace '"' = false := by decide
  simp [trimSpace, trim, quote]

lemma validSingleETag_body (valid : validSingleETag value = true) :
    ∃ body, value = '"' :: (body ++ ['"']) ∧ '"' ∉ body := by
  obtain ⟨long, ⟨rest, rfl⟩, ends, inner⟩ := of_decide_eq_true valid
  cases rest using List.reverseRecOn with
  | nil => simp at long
  | append_singleton body last =>
    refine ⟨body, ?_, by simpa using inner⟩
    obtain ⟨front, same⟩ := ends
    have lasts := congrArg List.getLast? same
    simp only [List.getLast?_append, Option.some_or, List.singleton_append,
      List.getLast?_cons] at lasts
    simpa using lasts.symm

/-- A strong entity tag is in a list that is one valid tag only when it is that tag.  The comma
of a tag splits the list, and neither part has both quotes. -/
lemma eq_of_s3ETagListContains {body : Text} (valid : validSingleETag value = true)
    (contained : s3ETagListContains value ('"' :: (body ++ ['"'])) false = true) :
    '"' :: (body ++ ['"']) = value := by
  obtain ⟨inner, rfl, noQuote⟩ := validSingleETag_body valid
  obtain ⟨item, member, same⟩ := List.any_eq_true.mp contained
  have same : trimSpace item = '"' :: (body ++ ['"']) := by simpa using same
  have two : 2 ≤ item.count '"' := by
    refine le_trans ?_ (count_trimSpace '"' item)
    simp [same]
  have innerCount : inner.count '"' = 0 := List.count_eq_zero.mpr noQuote
  by_cases comma : ',' ∈ inner
  · obtain ⟨front, back, rfl⟩ := List.append_of_mem comma
    rw [List.count_append, Nat.add_eq_zero_iff, List.count_cons] at innerCount
    have parts : '"' :: (front ++ ',' :: back ++ ['"']) =
        ('"' :: front) ++ ',' :: (back ++ ['"']) := by simp
    rw [parts, List.splitOn, List.splitOnP_append_cons _ _ (by simp), List.mem_append] at member
    rcases member with early | late
    · have least := count_of_mem_splitOn (c := '"') early
      rw [List.count_cons_self] at least
      omega
    · have least := count_of_mem_splitOn (c := '"') late
      rw [List.count_append, List.count_singleton_self] at least
      omega
  · have whole : ('"' :: (inner ++ ['"'])).splitOn ',' = ['"' :: (inner ++ ['"'])] := by
      refine List.splitOnP_eq_singleton fun x among => ?_
      have different : x ≠ ',' := by
        rintro rfl
        simp [comma] at among
      simpa using different
    rw [whole, List.mem_singleton] at member
    rw [← same, member, trimSpace_quoted]

/-! ## Agreement -/

/-- The transaction sees the object the fast check saw. -/
lemma statS3ObjectTx_of_stat (env : Env) (s : Store) (objectPath : Text) :
    (∀ info, s.statS3Object env objectPath = .ok info →
      s.statS3ObjectTx env objectPath = .ok (some info)) ∧
    (s.statS3Object env objectPath = .error .notExist →
      s.statS3ObjectTx env objectPath = .ok none) := by
  simp only [statS3ObjectTx, statS3Object, Directory.txStat, Directory.stat]
  cases looked : s.dir.txGetEntryInfo objectPath with
  | error err => cases err <;> simp [bind, Except.bind]
  | ok pair =>
    obtain ⟨entry | entry, parent⟩ := pair
    · simp [bind, Except.bind]
    · cases kind : entry.fileKind <;> cases holds : entry.refData <;>
        simp [bind, Except.bind, pure, Except.pure, directoryEntryToLink, kind, holds]

lemma evaluateS3Condition_refuses {current : Option S3ObjectInfo}
    (refused : s3IfMatchSatisfied current condition.ifMatch = false ∨
      s3IfNoneMatchSatisfied current condition.ifNoneMatch = false) :
    evaluateS3Condition current (some condition) = .error .s3Precondition := by
  by_cases matched : s3IfMatchSatisfied current condition.ifMatch = true
  · have none := refused.resolve_left (by simp [matched])
    simp [evaluateS3Condition, require, matched, none, bind, Except.bind]
  · simp [evaluateS3Condition, require, matched, bind, Except.bind]

/-- What the fast check compares with one tag, the transaction looks up in a list. -/
lemma s3IfMatchSatisfied_eq_of_single {info : S3ObjectInfo} (tag : EntityTag info.metadata.etag)
    (valid : validSingleETag value = true) (satisfied : s3IfMatchSatisfied (some info) value = true)
    (star : value ≠ ['*']) : ¬ ['W', '/'] <+: info.metadata.etag ∧ info.metadata.etag = value := by
  obtain ⟨inner, shape, -⟩ := validSingleETag_body valid
  have nonempty : value ≠ [] := by simp [shape]
  simp only [s3IfMatchSatisfied, nonempty, star, if_false] at satisfied
  obtain ⟨body, strong | weak⟩ := tag
  · have noWeak : ¬ ['W', '/'] <+: info.metadata.etag := by simp [strong]
    rw [if_neg noWeak, strong] at satisfied
    exact ⟨noWeak, strong.trans (eq_of_s3ETagListContains valid satisfied)⟩
  · rw [if_pos (by simp [weak])] at satisfied
    cases satisfied

lemma fastCheckCondition_refused {env : Env} {s : Store} {objectPath ifMatch ifNoneMatch : Text}
    (parsed : parseDestinationCondition ifMatch ifNoneMatch = .ok condition)
    (tagged : ∀ info, s.statS3Object env objectPath = .ok info → EntityTag info.metadata.etag)
    (refused : fastCheckCondition env s objectPath condition = .error .preconditionFailed) :
    ∃ current, s.statS3ObjectTx env objectPath = .ok current ∧
      evaluateS3Condition current (some condition) = .error .s3Precondition := by
  simp only [parseDestinationCondition, bind_ok, require_ok, pure_ok] at parsed
  obtain ⟨_, -, _, -, _, single, rfl⟩ := parsed
  cases seen : s.statS3Object env objectPath with
  | error err =>
    by_cases absent : err = .notExist
    · subst absent
      refine ⟨none, (statS3ObjectTx_of_stat env s objectPath).2 seen,
        evaluateS3Condition_refuses (.inl ?_)⟩
      have given : ifMatch ≠ [] := by
        intro empty
        simp [fastCheckCondition, seen, require, empty] at refused
      simp [s3IfMatchSatisfied, given]
    · rw [fastCheckCondition, seen] at refused
      cases err <;> first | exact absurd rfl absent | cases refused
  | ok info =>
    refine ⟨some info, (statS3ObjectTx_of_stat env s objectPath).1 info seen,
      evaluateS3Condition_refuses ?_⟩
    by_cases star : ifNoneMatch = ['*']
    · exact .inr (by simp [s3IfNoneMatchSatisfied, star])
    · refine .inl (Bool.eq_false_iff.mpr fun satisfied => ?_)
      -- the fast check would have accepted
      have accepted : ifMatch = [] ∨ ifMatch = ['*'] ∨
          ¬ ['W', '/'] <+: info.metadata.etag ∧ info.metadata.etag = ifMatch := by
        rcases single with empty | any | valid
        · exact .inl empty
        · exact .inr (.inl any)
        · by_cases any : ifMatch = ['*']
          · exact .inr (.inl any)
          · exact .inr (.inr
              (s3IfMatchSatisfied_eq_of_single (tagged info seen) valid satisfied any))
      simp [fastCheckCondition, seen, require, star, accepted, bind, Except.bind] at refused

lemma checkConditionAgainstInfo_iff {source : S3ObjectInfo} (tag : EntityTag source.metadata.etag) :
    checkConditionAgainstInfo condition source = .ok () ↔
      evaluateS3Condition (some source) (some condition) = .ok () := by
  have ifMatch : s3IfMatchSatisfied (some source) condition.ifMatch = true ↔
      condition.ifMatch = [] ∨ condition.ifMatch = ['*'] ∨ ¬ ['W', '/'] <+: source.metadata.etag ∧
        s3ETagListContains condition.ifMatch source.metadata.etag false = true := by
    simp only [s3IfMatchSatisfied]
    split_ifs <;> simp [*]
  simp only [checkConditionAgainstInfo, evaluateS3Condition, evaluateS3TimeCondition, bind_ok,
    require_ok, Unique.exists_iff, tag.etagListContains_eq, ifMatch, s3IfNoneMatchSatisfied,
    decide_eq_true_eq]

/-- On objects whose ETag is an entity tag the handler and the transactions agree: what the fast
check refuses is refused in the transaction, and a copy source passes both checks or neither. -/
theorem condition_checks_agree (env : Env) (s : Store) (objectPath : Text) :
    (∀ ifMatch ifNoneMatch condition,
      parseDestinationCondition ifMatch ifNoneMatch = .ok condition →
      (∀ info, s.statS3Object env objectPath = .ok info → EntityTag info.metadata.etag) →
      fastCheckCondition env s objectPath condition = .error .preconditionFailed →
      ∃ current, s.statS3ObjectTx env objectPath = .ok current ∧
        evaluateS3Condition current (some condition) = .error .s3Precondition) ∧
    ∀ (condition : S3Condition) (source : S3ObjectInfo), EntityTag source.metadata.etag →
      (checkConditionAgainstInfo condition source = .ok () ↔
        evaluateS3Condition (some source) (some condition) = .ok ()) :=
  ⟨fun _ _ _ parsed tagged refused => fastCheckCondition_refused parsed tagged refused,
    fun _ _ tag => checkConditionAgainstInfo_iff tag⟩

/-- The File 7 at `/k` under a given ETag. -/
def taggedObject (etag : Text) : Store :=
  match Directory.empty.create 0 "/k".toList 3 (some 7) with
  | .error _ => .empty
  | .ok (dir, entry) =>
    { Store.empty with
      dir := dir
      metadata := [⟨entry.entryID, etag, [], [], [], [], [], [], [], [], [], [], [], 0, 0⟩] }

/-- An object with an ETag. -/
def taggedInfo (etag : Text) : S3ObjectInfo :=
  ⟨⟨2, "/k".toList, 7, 3, 493, 0, 0, false⟩,
    ⟨2, etag, [], [], [], [], [], [], [], [], [], [], [], 0, 0⟩⟩

/-- An object with a strong tag, and one with a weak tag. -/
theorem quoted_tag_checked :
    (∃ current, (taggedObject "\"a\"".toList).statS3ObjectTx .plain "/k".toList = .ok current ∧
      evaluateS3Condition current (some ⟨"\"b\"".toList, [], none, none⟩) =
        .error .s3Precondition) ∧
    (checkConditionAgainstInfo ⟨[], "\"b\", \"a\"".toList, none, none⟩
        (taggedInfo "W/\"a\"".toList) = .ok () ↔
      evaluateS3Condition (some (taggedInfo "W/\"a\"".toList))
        (some ⟨[], "\"b\", \"a\"".toList, none, none⟩) = .ok ()) := by
  refine ⟨?_, ?_⟩
  · refine (condition_checks_agree .plain (taggedObject "\"a\"".toList) "/k".toList).1
      "\"b\"".toList [] _ (by decide +kernel) ?_ (by decide +kernel)
    intro info found
    have seen : (taggedObject "\"a\"".toList).statS3Object .plain "/k".toList =
        .ok (taggedInfo "\"a\"".toList) := by decide +kernel
    obtain rfl := Except.ok.inj (seen.symm.trans found)
    exact ⟨['a'], .inl rfl⟩
  · exact (condition_checks_agree .plain .empty []).2 _ _ ⟨['a'], .inr rfl⟩

/-- An ETag that is no entity tag: half of a quoted text with a comma in it is looked up in the
transaction, and a second `W/` is stripped at the second candidate. -/
theorem malformed_tags_disagree :
    (parseDestinationCondition "\"a,b\"".toList [] = .ok ⟨"\"a,b\"".toList, [], none, none⟩ ∧
      fastCheckCondition .plain (taggedObject "\"a".toList) "/k".toList
        ⟨"\"a,b\"".toList, [], none, none⟩ = .error .preconditionFailed ∧
      (taggedObject "\"a".toList).statS3ObjectTx .plain "/k".toList =
        .ok (some (taggedInfo "\"a".toList)) ∧
      evaluateS3Condition (some (taggedInfo "\"a".toList))
        (some ⟨"\"a,b\"".toList, [], none, none⟩) = .ok ()) ∧
    checkConditionAgainstInfo ⟨[], "\"y\", \"x\"".toList, none, none⟩
        (taggedInfo "W/W/\"x\"".toList) = .error .preconditionFailed ∧
      evaluateS3Condition (some (taggedInfo "W/W/\"x\"".toList))
        (some ⟨[], "\"y\", \"x\"".toList, none, none⟩) = .ok () := by
  decide +kernel

end TgFile.S3
