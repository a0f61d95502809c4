import TgFile.Paging
import TgFile.S3.ListExact
import TgFile.S3.ListV2

/-! # Paging through a listing

A client that sends every continuation token back with the same parameters reads the listing once,
as long as the server takes its own tokens.  It does not take a token of more than 4096 characters,
though it writes tokens of any length, nor a token for a prefix that is not UTF-8, which JSON
replaces by another one. -/

namespace TgFile.S3

open Go Sqlite Paging

/-- The parameters that a client keeps. -/
structure ListParams where
  keyPrefix : GoString
  delimiter : Text
  encodingType : Text
  fetchOwner : Text
  delimiters : delimiter = [] ∨ delimiter = ['/']
  encodings : encodingType = [] ∨ encodingType = "url".toList
  owners : fetchOwner = [] ∨ fetchOwner = "true".toList ∨ fetchOwner = "false".toList

/-- The query of a page, without a token for the first one. -/
def pageQuery (params : ListParams) (maxKeys : Nat) (token : Text) : Values :=
  [("list-type".toList, [.text ['2']]), ("prefix".toList, [params.keyPrefix]),
    ("delimiter".toList, [.text params.delimiter]),
    ("encoding-type".toList, [.text params.encodingType]),
    ("fetch-owner".toList, [.text params.fetchOwner]),
    ("max-keys".toList, [.text (decimal maxKeys)])] ++
  if token = [] then [] else [("continuation-token".toList, [.text token])]

/-- The request of a page. -/
def pageRequest (bucket : Bucket) (params : ListParams) (maxKeys : Nat) (start : Text) :
    ListV2Request :=
  ⟨bucket.name, params.keyPrefix, params.delimiter, .text [], start, maxKeys⟩

variable {json : JsonCodec} {malformed : MalformedRows} {env : Env} {s : Store} {bucket : Bucket}
  {params : ListParams} {maxKeys offset : Nat} {token : Text}

/-! ## The parser -/

lemma parseListOptions_page :
    parseListOptions (pageQuery params maxKeys token) =
      .ok (params.delimiter, params.encodingType) := by
  have delimiter : (pageQuery params maxKeys token).get "delimiter".toList =
      .text params.delimiter := rfl
  have encoding : (pageQuery params maxKeys token).get "encoding-type".toList =
      .text params.encodingType := rfl
  have owner : (pageQuery params maxKeys token).get "fetch-owner".toList =
      .text params.fetchOwner := rfl
  unfold parseListOptions
  rw [delimiter, encoding, owner]
  rcases params.delimiters with d | d <;> rcases params.encodings with e | e <;>
    rcases params.owners with f | f | f <;> rw [d, e, f] <;> rfl

lemma parseListMaxKeys_decimal (bounded : maxKeys ≤ defaultListMaxKeys) :
    parseListMaxKeys (.text (decimal maxKeys)) = .ok maxKeys := by
  have nonempty : GoString.text (decimal maxKeys) ≠ .text [] := fun same =>
    Nat.toDigits_ne_nil (GoString.text.inj same)
  unfold parseListMaxKeys
  rw [if_neg nonempty, atoi_decimal]
  simp only
  rw [if_neg (by omega), Int.toNat_natCast]

/-- What the parser makes of the token of a page. -/
lemma parseListV2Request_page (bounded : maxKeys ≤ defaultListMaxKeys) :
    parseListV2Request json (pageQuery params maxKeys token) bucket.name =
      if token = [] then
        .ok (pageRequest bucket params maxKeys [], .text [], params.encodingType)
      else
        match decodeContinuationToken json (.text token) with
        | none => .error .invalidToken
        | some decoded =>
          if continuationTokenMatches decoded (pageRequest bucket params maxKeys []) then
            .ok (pageRequest bucket params maxKeys decoded.lastItem, .text token,
              params.encodingType)
          else .error .invalidToken := by
  have listType : (pageQuery params maxKeys token).get "list-type".toList = .text ['2'] := rfl
  have keyPrefix : (pageQuery params maxKeys token).get "prefix".toList = params.keyPrefix := rfl
  have keys : (pageQuery params maxKeys token).get "max-keys".toList =
      .text (decimal maxKeys) := rfl
  unfold parseListV2Request
  rw [parseListOptions_page, keys, parseListMaxKeys_decimal bounded, listType, keyPrefix]
  by_cases empty : token = []
  · subst empty
    rfl
  · have singletons : validateListV2Singletons (pageQuery params maxKeys token) = .ok () := by
      unfold pageQuery
      rw [if_neg empty]
      rfl
    have tokens : (pageQuery params maxKeys token).get "continuation-token".toList =
        .text token := by
      unfold pageQuery
      rw [if_neg empty]
      rfl
    have starts : (pageQuery params maxKeys token).get "start-after".toList = .text [] := by
      unfold pageQuery
      rw [if_neg empty]
      rfl
    have sent : GoString.text token ≠ .text [] := fun same => empty (GoString.text.inj same)
    rw [singletons, tokens, starts, if_neg empty]
    simp only [bind, Except.bind, ne_eq, not_true_eq_false, if_false, false_and, sent]
    rfl

/-! ## Tokens -/

lemma encodeContinuationToken_ne_nil (token : ContinuationToken) :
    encodeContinuationToken json token ≠ [] := by
  intro empty
  have written : token.marshal json.replaceInvalid ≠ [] :=
    List.append_ne_nil_of_right_ne_nil _ (by decide)
  have length : (encodeContinuationToken json token).length = _ :=
    Base64.length_encodeToString (utf8 (token.marshal json.replaceInvalid))
  have bytes := length_le_byteLength (token.marshal json.replaceInvalid)
  have positive := List.length_pos_iff.mpr written
  rw [empty, List.length_nil, length_utf8] at length
  omega

/-- The server takes the tokens it wrote, unless they are too long.  The prefix comes back as JSON
wrote it. -/
lemma decode_encodeContinuationToken {token : ContinuationToken} (version : token.version = 1) :
    decodeContinuationToken json (.text (encodeContinuationToken json token)) =
      if maxContinuationTokenLength < byteLength (encodeContinuationToken json token) then none
      else some { token with keyPrefix := .text (coerce json.replaceInvalid token.keyPrefix) } := by
  have raw := Base64.byteLength_encodeToString (utf8 (token.marshal json.replaceInvalid))
  simp only [decodeContinuationToken, encodeContinuationToken_ne_nil token, false_or]
  split_ifs with long
  · rfl
  · have short : ¬maxContinuationTokenLength <
        (utf8 (token.marshal json.replaceInvalid)).length := by
      unfold encodeContinuationToken at long
      rw [raw] at long
      omega
    unfold encodeContinuationToken
    rw [Base64.decodeString_encodeToString]
    simp only [Option.bind_eq_bind, Option.bind_some, if_neg short]
    exact json.decode_marshal token version

/-- The key of the last of the first rows. -/
def keyBefore (rows : List S3ListPageEntry) (offset : Nat) : Text :=
  ((rows.take offset).getLast?.map S3ListPageEntry.key).getD []

variable (json)

/-- The token of a page that ends with a key. -/
def tokenOf (bucket : Bucket) (params : ListParams) (key : Text) : Text :=
  encodeContinuationToken json ⟨1, bucket.name, params.keyPrefix, params.delimiter, key⟩

/-- The prefix is UTF-8 and the token is not too long. -/
def TokenAccepted (bucket : Bucket) (params : ListParams) (key : Text) : Prop :=
  (∃ text, params.keyPrefix = .text text) ∧
    byteLength (tokenOf json bucket params key) ≤ maxContinuationTokenLength

/-- The token after some rows, none before the first one. -/
def tokenAfter (bucket : Bucket) (params : ListParams)
    (rows : List S3ListPageEntry) (offset : Nat) : Text :=
  if offset = 0 then [] else tokenOf json bucket params (keyBefore rows offset)

variable {json}

lemma tokenOf_ne_nil (key : Text) : tokenOf json bucket params key ≠ [] :=
  encodeContinuationToken_ne_nil _

lemma decode_tokenOf (key : Text) :
    decodeContinuationToken json (.text (tokenOf json bucket params key)) =
      if maxContinuationTokenLength < byteLength (tokenOf json bucket params key) then none
      else some ⟨1, bucket.name, .text (coerce json.replaceInvalid params.keyPrefix),
        params.delimiter, key⟩ :=
  decode_encodeContinuationToken rfl

/-- The parser takes an accepted token as the start of the page. -/
lemma parse_tokenOf {key : Text} (bounded : maxKeys ≤ defaultListMaxKeys) (proper : key ≠ [])
    (accepted : TokenAccepted json bucket params key) :
    parseListV2Request json (pageQuery params maxKeys (tokenOf json bucket params key))
      bucket.name = .ok (pageRequest bucket params maxKeys key,
        .text (tokenOf json bucket params key), params.encodingType) := by
  obtain ⟨⟨text, isText⟩, short⟩ := accepted
  rw [parseListV2Request_page bounded, if_neg (tokenOf_ne_nil key), decode_tokenOf,
    if_neg (Nat.not_lt_of_le short)]
  have matched : continuationTokenMatches
      ⟨1, bucket.name, .text (coerce json.replaceInvalid params.keyPrefix), params.delimiter, key⟩
      (pageRequest bucket params maxKeys []) = true := by
    simp [continuationTokenMatches, pageRequest, isText, coerce, proper]
  simp only [matched, if_true]

/-- The parser refuses the other tokens. -/
lemma parse_tokenOf_error {key : Text} (bounded : maxKeys ≤ defaultListMaxKeys)
    (refused : ¬(key ≠ [] ∧ TokenAccepted json bucket params key)) :
    parseListV2Request json (pageQuery params maxKeys (tokenOf json bucket params key))
      bucket.name = .error .invalidToken := by
  rw [parseListV2Request_page bounded, if_neg (tokenOf_ne_nil key), decode_tokenOf]
  split_ifs with long
  · rfl
  · have unmatched : continuationTokenMatches
        ⟨1, bucket.name, .text (coerce json.replaceInvalid params.keyPrefix), params.delimiter,
          key⟩ (pageRequest bucket params maxKeys []) = false := by
      refine decide_eq_false fun ⟨_, _, isText, _, proper⟩ => refused ⟨proper, ?_⟩
      exact ⟨⟨_, isText.symm⟩, Nat.le_of_not_lt long⟩
    simp only [unmatched]
    rfl

/-! ## Pages of the rows -/

/-- The rows of the whole listing. -/
def listingRows (malformed : MalformedRows) (s : Store) (bucket : Bucket) (params : ListParams) :
    Except Err (List S3ListPageEntry) :=
  match params.keyPrefix with
  | .text keyPrefix => do
      let files ← Store.s3ListedFiles s.dir (Store.listRequest bucket keyPrefix params.delimiter 0)
      pure (Store.rowsAfter (Store.listRequest bucket keyPrefix params.delimiter 0) files)
  | .malformed raw invalid =>
    malformed.rows bucket.name (.malformed raw invalid) params.delimiter (.text [])

/-- The result of a list of rows. -/
abbrev rowsResult (env : Env) (s : Store) (bucket : Bucket) (rows : List S3ListPageEntry)
    (truncated : Bool) : S3ListResult :=
  s.pageResult env (Store.listRequest bucket [] [] 0) rows truncated

variable {rows : List S3ListPageEntry}

/-- The rows after a key of the listing are the rest of the listing. -/
lemma rowsAfter_key (maxKeys : Nat) {keyPrefix delimiter : Text} {files : List (Text × Entry)}
    (rows_eq : rows = Store.rowsAfter (Store.listRequest bucket keyPrefix delimiter 0) files)
    (positive : 0 < offset) (nonempty : rows ≠ []) : keyBefore rows offset ≠ [] ∧
      Store.rowsAfter ⟨bucket.name, keyPrefix, delimiter, [], keyBefore rows offset, maxKeys⟩
        files = rows.drop offset := by
  have front : rows.take offset ≠ [] := by
    rw [Ne, List.take_eq_nil_iff]
    exact fun either => either.elim (Nat.ne_of_gt positive) nonempty
  obtain ⟨page, last, split⟩ := (List.eq_nil_or_concat' (rows.take offset)).resolve_left front
  have whole : page ++ [last] ++ rows.drop offset = rows := by
    rw [← split, List.take_append_drop]
  have key : keyBefore rows offset = last.key := by
    rw [keyBefore, split, List.getLast?_concat, Option.map_some, Option.getD_some]
  have inside : last ∈ rows := by
    rw [← whole]
    simp
  have proper : last.key ≠ [] := (Store.mem_rowsAfter.mp (rows_eq ▸ inside)).2
  have ordered : rows.Pairwise fun a b => a.key < b.key := rows_eq ▸ Store.rowsAfter_ordered
  have rest : rows.filter (fun entry => last.key < entry.key) = rows.drop offset := by
    conv_lhs => rw [← whole]
    exact filter_after (fun _ _ => decide_eq_true_iff) (by rwa [whole])
  refine ⟨key ▸ proper, ?_⟩
  rw [key, ← rest, rows_eq]
  simp only [Store.rowsAfter, Store.listRequest, List.filter_filter, ne_eq, proper,
    not_false_eq_true, not_true_eq_false, if_true, if_false]
  refine List.filter_congr fun entry _ => ?_
  by_cases after : last.key < entry.key
  · have positive : ([] : Text) < entry.key := by
      cases same : entry.key with
      | nil =>
        rw [same] at after
        exact absurd after (List.not_lt_nil _)
      | cons c text => exact List.nil_lt_cons _ _
    simp [after, positive]
  · simp [after]

lemma listRequestedObjects_first (tree : Store.SoundTree s.dir)
    (run : listingRows malformed s bucket params = .ok rows) (positive : maxKeys ≠ 0) :
    listRequestedObjects malformed env s (pageRequest bucket params maxKeys []) =
      .ok (rowsResult env s bucket (rows.take maxKeys) (maxKeys < rows.length)) := by
  unfold listingRows at run
  unfold listRequestedObjects pageRequest
  cases prefixed : params.keyPrefix with
  | text keyPrefix =>
    rw [prefixed] at run
    obtain ⟨files, found, same⟩ := Result.bind_ok.mp run
    obtain rfl := Except.ok.inj same
    have page : s.listS3Objects env
        (Store.listRequest bucket keyPrefix params.delimiter maxKeys) = _ :=
      Store.listS3Objects_ok tree found positive
    exact page
  | malformed raw invalid =>
    rw [prefixed] at run
    simp only [if_neg positive, run]
    refine Store.foldlM_appendS3ListEntry ?_ _
    exact fun entry member => malformed.refs run entry (List.mem_of_mem_take member)

/-- A page after a key of the listing. -/
lemma listRequestedObjects_after (env : Env) {keyPrefix : Text} (tree : Store.SoundTree s.dir)
    (isText : params.keyPrefix = .text keyPrefix)
    (run : listingRows malformed s bucket params = .ok rows) (positive : maxKeys ≠ 0)
    (later : 0 < offset) (nonempty : rows ≠ []) : keyBefore rows offset ≠ [] ∧
      listRequestedObjects malformed env s
          (pageRequest bucket params maxKeys (keyBefore rows offset)) =
        .ok (rowsResult env s bucket ((rows.drop offset).take maxKeys)
          (offset + maxKeys < rows.length)) := by
  unfold listingRows at run
  rw [isText] at run
  obtain ⟨files, found, same⟩ := Result.bind_ok.mp run
  obtain ⟨proper, after⟩ := rowsAfter_key maxKeys (Except.ok.inj same).symm later nonempty
  refine ⟨proper, ?_⟩
  have page : s.listS3Objects env ⟨bucket.name, keyPrefix, params.delimiter, [],
      keyBefore rows offset, maxKeys⟩ = _ := Store.listS3Objects_ok tree found positive
  have more : decide (maxKeys < (rows.drop offset).length) =
      decide (offset + maxKeys < rows.length) := by
    rw [List.length_drop]
    congr 1
    exact propext (by omega)
  simp only [listRequestedObjects, pageRequest, isText, page, after, more]
  rfl

/-- The request of a page of the listing. -/
def fetchPage (json : JsonCodec) (malformed : MalformedRows) (env : Env) (s : Store)
    (bucket : Bucket) (params : ListParams) (maxKeys : Nat) (token : Text) :
    Except APIError ListBucketV2Result :=
  listObjectsV2 json malformed env s bucket.name (pageQuery params maxKeys token)

/-- The token of an answer that is truncated. -/
def nextToken (answer : ListBucketV2Result) : Option Text :=
  if answer.isTruncated then some answer.nextContinuationToken else none

/-- The answer with some rows. -/
def renderPage (env : Env) (s : Store) (bucket : Bucket) (params : ListParams) (maxKeys : Nat)
    (sent : Text) (page : List S3ListPageEntry) (following : Option Text) : ListBucketV2Result where
  name := bucket.name
  keyPrefix := params.keyPrefix
  delimiter := params.delimiter
  maxKeys := maxKeys
  keyCount := (rowsResult env s bucket page false).items.length +
    (rowsResult env s bucket page false).commonPrefixes.length
  isTruncated := following.isSome
  continuationToken := .text sent
  nextContinuationToken := following.getD []
  startAfter := .text []
  encodingType := params.encodingType
  contents := (rowsResult env s bucket page false).items
  commonPrefixes := (rowsResult env s bucket page false).commonPrefixes

lemma nextToken_renderPage {sent : Text} {page : List S3ListPageEntry} {following : Option Text} :
    nextToken (renderPage env s bucket params maxKeys sent page following) = following := by
  cases following with
  | none => rfl
  | some token => rfl

/-- The last key of a page is the key before the rows that are left. -/
lemma lastKey_page {size : Nat} (positive : 0 < size) (more : offset + size < rows.length) :
    ((((rows.drop offset).take size).getLast?).map S3ListPageEntry.key).getD [] =
      keyBefore rows (offset + size) := by
  have nonempty : (rows.drop offset).take size ≠ [] := by
    rw [Ne, List.take_eq_nil_iff, List.drop_eq_nil_iff]
    omega
  rw [keyBefore, List.take_add, List.getLast?_append_of_ne_nil _ nonempty]

lemma fetchPage_ok {start sent : Text} (positive : 0 < maxKeys)
    (parsed : parseListV2Request json (pageQuery params maxKeys sent) bucket.name =
      .ok (pageRequest bucket params maxKeys start, .text sent, params.encodingType))
    (listed : listRequestedObjects malformed env s (pageRequest bucket params maxKeys start) =
      .ok (rowsResult env s bucket ((rows.drop offset).take maxKeys)
        (offset + maxKeys < rows.length))) :
    fetchPage json malformed env s bucket params maxKeys sent =
      .ok (renderPage env s bucket params maxKeys sent ((rows.drop offset).take maxKeys)
        (if offset + maxKeys < rows.length then
          some (tokenAfter json bucket params rows (offset + maxKeys)) else none)) := by
  unfold fetchPage listObjectsV2
  rw [parsed]
  simp only [bind, Except.bind, listed]
  by_cases more : offset + maxKeys < rows.length
  · have token : tokenAfter json bucket params rows (offset + maxKeys) = tokenOf json bucket params
          (((((rows.drop offset).take maxKeys).getLast?).map S3ListPageEntry.key).getD []) := by
      rw [lastKey_page positive more, tokenAfter, if_neg (by omega)]
    rw [if_pos more, token]
    simp only [Store.pageResult, more, decide_true, if_true]
    rfl
  · rw [if_neg more]
    simp only [Store.pageResult, more, decide_false]
    rfl

/-- The numbers of keys that a client may ask for. -/
def PageSize (size : Nat) : Prop := 1 ≤ size ∧ size ≤ defaultListMaxKeys

variable {sizes : Nat → Nat}

/-- The handler serves the rows of the listing page by page. -/
lemma pages_of_listingRows (json : JsonCodec) (env : Env) (tree : Store.SoundTree s.dir)
    (run : listingRows malformed s bucket params = .ok rows) (sized : ∀ k, PageSize (sizes k)) :
    Pages (fun k => fetchPage json malformed env s bucket params (sizes k)) nextToken sizes rows
      (fun k => renderPage env s bucket params (sizes k)) (tokenAfter json bucket params rows)
      (fun offset => offset = 0 ∨
        rows ≠ [] ∧ TokenAccepted json bucket params (keyBefore rows offset)) where
  next_render _ _ _ _ := nextToken_renderPage
  positive k := (sized k).1
  fetched k offset accepted := by
    have notZero : sizes k ≠ 0 := Nat.ne_of_gt (sized k).1
    by_cases start : offset = 0
    · subst start
      refine fetchPage_ok (sized k).1 (parseListV2Request_page (sized k).2) ?_
      rw [Nat.zero_add]
      exact listRequestedObjects_first tree run notZero
    · obtain ⟨nonempty, token⟩ := accepted.resolve_left start
      obtain ⟨⟨keyPrefix, isText⟩, -⟩ := id token
      obtain ⟨proper, listed⟩ := listRequestedObjects_after env tree isText run notZero
        (Nat.pos_of_ne_zero start) nonempty
      rw [tokenAfter, if_neg start]
      exact fetchPage_ok (sized k).1 (parse_tokenOf (sized k).2 proper token) listed
  refused k offset answer refused fetched := by
    obtain ⟨later, unaccepted⟩ := not_or.mp refused
    have token : parseListV2Request json
        (pageQuery params (sizes k) (tokenOf json bucket params (keyBefore rows offset)))
        bucket.name =
        .error .invalidToken := by
      refine parse_tokenOf_error (sized k).2 fun ⟨proper, accepted⟩ => unaccepted ⟨?_, accepted⟩
      rintro rfl
      exact proper (by rw [keyBefore, List.take_nil]; rfl)
    simp only [tokenAfter, if_neg later, fetchPage, listObjectsV2, token] at fetched
    cases fetched

/-! ## The whole listing -/

/-- A client that follows the tokens comes to the end, gets no page with more than it asked for, and
together gets the listing without a limit, each item and each common prefix once. -/
def PagesToEnd (json : JsonCodec) (malformed : MalformedRows) (env : Env) (s : Store)
    (bucket : Bucket) (params : ListParams) (sizes : Nat → Nat) : Prop :=
  ∃ answers, Follows (fun k => fetchPage json malformed env s bucket params (sizes k)) nextToken 0
      [] answers ∧
    (∀ k answer, answers[k]? = some answer →
      answer.contents.length + answer.commonPrefixes.length ≤ sizes k) ∧
    ∃ full, (∃ enough, ∀ maxKeys, enough ≤ maxKeys →
        listRequestedObjects malformed env s (pageRequest bucket params maxKeys []) = .ok full) ∧
      answers.flatMap ListBucketV2Result.contents = full.items ∧
      answers.flatMap ListBucketV2Result.commonPrefixes = full.commonPrefixes ∧
      (full.items.map S3ListItem.key).Nodup ∧ full.commonPrefixes.Nodup

lemma commonPrefixes_eq (env : Env) (s : Store) (bucket : Bucket) (page : List S3ListPageEntry)
    (truncated : Bool) : (rowsResult env s bucket page truncated).commonPrefixes =
      page.filterMap fun entry => if entry.common then some entry.key else none := by
  rw [rowsResult, Store.pageResult, ← List.filterMap_eq_map, ← List.filterMap_eq_filter,
    List.filterMap_filterMap]
  refine List.filterMap_congr fun entry _ => ?_
  cases common : entry.common with
  | true => simp [common]
  | false => simp [common]

lemma rowsResult_nodup (ordered : rows.Pairwise fun a b => a.key < b.key) (truncated : Bool) :
    ((rowsResult env s bucket rows truncated).items.map S3ListItem.key).Nodup ∧
      (rowsResult env s bucket rows truncated).commonPrefixes.Nodup := by
  obtain ⟨items, prefixes⟩ := Store.pageResult_ordered ordered
  exact ⟨List.pairwise_map.mpr (items.imp fun before => ne_of_lt before),
    prefixes.imp fun before => ne_of_lt before⟩

lemma listingRows_ordered (run : listingRows malformed s bucket params = .ok rows) :
    rows.Pairwise fun a b => a.key < b.key := by
  unfold listingRows at run
  cases prefixed : params.keyPrefix with
  | text keyPrefix =>
    rw [prefixed] at run
    obtain ⟨files, -, same⟩ := Result.bind_ok.mp run
    obtain rfl := Except.ok.inj same
    exact Store.rowsAfter_ordered
  | malformed raw invalid =>
    rw [prefixed] at run
    exact malformed.ordered run

/-- A first page that is answered has rows to be taken from. -/
lemma exists_listingRows {answer : ListBucketV2Result} (sized : PageSize maxKeys)
    (fetched : fetchPage json malformed env s bucket params maxKeys [] = .ok answer) :
    ∃ rows, listingRows malformed s bucket params = .ok rows := by
  have positive : maxKeys ≠ 0 := Nat.ne_of_gt sized.1
  unfold fetchPage listObjectsV2 at fetched
  rw [parseListV2Request_page sized.2, if_pos rfl] at fetched
  simp only [bind, Except.bind] at fetched
  cases listed : listRequestedObjects malformed env s (pageRequest bucket params maxKeys []) with
  | error err =>
    rw [listed] at fetched
    cases fetched
  | ok result =>
    unfold listRequestedObjects pageRequest at listed
    unfold listingRows
    cases prefixed : params.keyPrefix with
    | text keyPrefix =>
      rw [prefixed] at listed
      obtain ⟨files, found⟩ := Store.exists_files_of_listed listed positive
      exact ⟨_, Result.bind_ok.mpr ⟨files, found, rfl⟩⟩
    | malformed raw invalid =>
      rw [prefixed] at listed
      simp only [if_neg positive] at listed
      obtain ⟨rows, found, -⟩ := Result.bind_ok.mp listed
      exact ⟨rows, found⟩

/-- **A client reads a listing to its end when the server takes its own tokens.**  The listing must
be answered at all, and at the end of every page but the last the prefix must be UTF-8 and the token
short enough. -/
theorem listObjectsV2_pages_iff (json : JsonCodec) (malformed : MalformedRows) (env : Env)
    (tree : Store.SoundTree s.dir) (bucket : Bucket) (params : ListParams)
    (sized : ∀ k, PageSize (sizes k)) :
    PagesToEnd json malformed env s bucket params sizes ↔
      ∃ rows, listingRows malformed s bucket params = .ok rows ∧
        ∀ k, ∑ i ∈ Finset.range (k + 1), sizes i < rows.length →
          TokenAccepted json bucket params
            (keyBefore rows (∑ i ∈ Finset.range (k + 1), sizes i)) := by
  constructor
  · rintro ⟨answers, follows, -⟩
    obtain ⟨rows, run⟩ : ∃ rows, listingRows malformed s bucket params = .ok rows := by
      cases follows with
      | last fetched _ => exact exists_listingRows (sized 0) fetched
      | more fetched _ _ => exact exists_listingRows (sized 0) fetched
    have pages := pages_of_listingRows json env tree run sized
    refine ⟨rows, run, fun k inside => ?_⟩
    have accepted := ((pages.exists_follows_iff 0 0).mp ⟨answers, follows⟩).2 k
    simp only [Nat.zero_add] at accepted
    refine ((accepted inside).resolve_left ?_).2
    rw [Finset.sum_range_succ']
    have := (sized 0).1
    omega
  · rintro ⟨rows, run, accepted⟩
    have pages := pages_of_listingRows json env tree run sized
    obtain ⟨answers, follows⟩ : ∃ answers,
        Follows (fun k => fetchPage json malformed env s bucket params (sizes k)) nextToken 0
          (tokenAfter json bucket params rows 0) answers := by
      refine (pages.exists_follows_iff 0 0).mpr ⟨.inl rfl, fun k inside => ?_⟩
      simp only [Nat.zero_add] at inside ⊢
      exact .inr ⟨List.ne_nil_of_length_pos (Nat.zero_lt_of_lt inside), accepted k inside⟩
    refine ⟨answers, follows, fun k answer got => ?_, rowsResult env s bucket rows false,
      ⟨rows.length + 1, fun maxKeys enough => ?_⟩, ?_, ?_,
      rowsResult_nodup (listingRows_ordered run) false⟩
    · obtain ⟨sent, page, following, rfl, bounded⟩ := pages.length_le follows got
      rw [Nat.zero_add] at bounded
      exact (Store.length_pageResult env s page false).trans bounded
    · rw [listRequestedObjects_first tree run (by omega), List.take_of_length_le (by omega),
        decide_eq_false (by omega)]
    · exact pages.flatMap_view (fun _ _ _ _ => rfl) follows
    · rw [commonPrefixes_eq]
      exact pages.flatMap_view (fun _ _ _ _ => commonPrefixes_eq env s bucket _ false) follows

/-! ## A token that is too long -/

/-- The text after a given front. -/
def stripFront (front text : Text) : Option Text :=
  if front <+: text then some (text.drop front.length) else none

lemma stripFront_append (front rest : Text) : stripFront front (front ++ rest) = some rest := by
  rw [stripFront, if_pos (List.prefix_append _ _), List.drop_left]

/-- The next string literal after a given front. -/
def readField (front text : Text) : Option (Text × Text) := do
  let rest ← stripFront (front ++ ['"']) text
  Json.readString rest

lemma readField_quote (front value rest : Text) :
    readField front (front ++ Json.quote value ++ rest) = some (value, rest) := by
  have split : front ++ Json.quote value ++ rest =
      front ++ ['"'] ++ (value.flatMap Json.quoteChar ++ '"' :: rest) := by
    simp only [Json.quote, List.append_assoc, List.cons_append, List.nil_append]
  rw [split, readField, stripFront_append]
  exact Json.readString_quote value rest

/-- The token that `Marshal` wrote as a text. -/
def readToken (text : Text) : Option ContinuationToken := do
  let (bucket, rest) ← readField ("\x7b\"v\":".toList ++ decimalInt 1 ++ ",\"bucket\":".toList) text
  let (keyPrefix, rest) ← readField ",\"prefix\":".toList rest
  let (delimiter, rest) ← readField ",\"delimiter\":".toList rest
  let (lastItem, rest) ← readField ",\"last_item\":".toList rest
  if rest = "\x7d".toList then some ⟨1, bucket, .text keyPrefix, delimiter, lastItem⟩ else none

lemma readToken_marshal (replaceInvalid : List UInt8 → Text) {token : ContinuationToken}
    (version : token.version = 1) : readToken (token.marshal replaceInvalid) =
      some { token with keyPrefix := .text (coerce replaceInvalid token.keyPrefix) } := by
  obtain ⟨v, bucket, keyPrefix, delimiter, lastItem⟩ := token
  obtain rfl : v = 1 := version
  unfold readToken ContinuationToken.marshal
  generalize "\x7b\"v\":".toList ++ decimalInt 1 ++ ",\"bucket\":".toList = start
  generalize ",\"prefix\":".toList = second
  generalize ",\"delimiter\":".toList = third
  generalize ",\"last_item\":".toList = fourth
  generalize "\x7d".toList = stop
  have regroup : ∀ a b c e : Text, start ++ a ++ second ++ b ++ third ++ c ++ fourth ++ e ++ stop =
        start ++ a ++ (second ++ b ++ (third ++ c ++ (fourth ++ e ++ stop))) := by
    intro a b c e
    simp only [List.append_assoc]
  rw [regroup]
  simp only [readField_quote, Option.bind_eq_bind, Option.bind_some, if_true]

/-- A decoder for exactly what `Marshal` writes. -/
def canonicalJson : JsonCodec where
  replaceInvalid _ := [Char.ofNat 65533]
  decode raw := (decodeUTF8 raw).bind readToken
  decode_marshal token version := by
    rw [decodeUTF8_utf8, Option.bind_some, readToken_marshal _ version]

/-- Texts that are no UTF-8 match nothing. -/
def noMalformedRows : MalformedRows where
  rows _ _ _ _ := .ok []
  ordered run := Except.ok.inj run ▸ List.Pairwise.nil
  refs run := Except.ok.inj run ▸ fun _ member => nomatch member

/-- Two Files, published under two keys. -/
def twoKeys (first second : ObjectKey) : System :=
  (System.init 0).run .plain noArchive [.createDraft 0 false, .finishCreate 0,
    .createDraft 0 false, .finishCreate 0,
    .s3 (.publish (bucketB.path first) 1 0 noMetadata none),
    .s3 (.publish (bucketB.path second) 2 0 noMetadata none)]

lemma twoKeys_tree (first second : ObjectKey) :
    Store.SoundTree (twoKeys first second).store.dir := by
  have reachable : System.Reachable .plain noArchive (fun _ _ => True) (twoKeys first second) :=
    (System.Reachable.init 0).run _
  exact (System.protocolSound reachable).sound.tree

/-- A key whose characters take six bytes each in a token. -/
def keyAngles : ObjectKey := ⟨List.replicate 520 '<', by decide +kernel⟩

/-- A listing of everything. -/
def noParams : ListParams := ⟨.text [], [], [], [], .inl rfl, .inl rfl, .inl rfl⟩

lemma keyBefore_eq (rows : List S3ListPageEntry) (offset : Nat) :
    keyBefore rows offset = ((rows.map S3ListPageEntry.key).take offset).getLast?.getD [] := by
  rw [keyBefore, ← List.map_take, List.getLast?_map]

/-- `a` and `b`, one key on a page. -/
theorem twoKeys_pages : PagesToEnd canonicalJson noMalformedRows .plain (twoKeys keyA keyB).store
    bucketB noParams fun _ => 1 := by
  have keys : (listingRows noMalformedRows (twoKeys keyA keyB).store bucketB noParams).map
      (List.map S3ListPageEntry.key) = .ok [keyA.text, keyB.text] := by decide +kernel
  obtain ⟨rows, run, texts⟩ := Result.map_ok.mp keys
  have two := congrArg List.length texts
  rw [List.length_map, List.length_cons, List.length_singleton] at two
  refine (listObjectsV2_pages_iff canonicalJson noMalformedRows .plain (twoKeys_tree keyA keyB)
    bucketB noParams fun _ => ⟨by decide, by decide⟩).mpr ⟨rows, run, fun k inside => ?_⟩
  rw [← Finset.card_eq_sum_ones, Finset.card_range] at inside ⊢
  obtain rfl : k = 0 := by omega
  rw [keyBefore_eq, texts]
  exact ⟨⟨[], rfl⟩, by decide +kernel⟩

/-- With a long key first, the token after the first page is refused. -/
theorem keyAngles_refused : ¬PagesToEnd canonicalJson noMalformedRows .plain
    (twoKeys keyAngles keyA).store bucketB noParams fun _ => 1 := by
  rintro ⟨answers, follows, -⟩
  have keys : (listingRows noMalformedRows (twoKeys keyAngles keyA).store bucketB noParams).map
      (List.map S3ListPageEntry.key) = .ok [keyAngles.text, keyA.text] := by decide +kernel
  obtain ⟨rows, run, texts⟩ := Result.map_ok.mp keys
  have two := congrArg List.length texts
  rw [List.length_map, List.length_cons, List.length_singleton] at two
  have one : PageSize 1 := ⟨by decide, by decide⟩
  have sized : ∀ k : Nat, PageSize ((fun _ => 1) k) := fun _ => one
  have pages := pages_of_listingRows canonicalJson .plain (twoKeys_tree keyAngles keyA) run sized
  have accepted := ((pages.exists_follows_iff 0 0).mp ⟨answers, follows⟩).2 0
    (by rw [Finset.sum_range_one]; omega)
  rw [Nat.zero_add, Nat.zero_add, Finset.sum_range_one, keyBefore_eq, texts] at accepted
  have short := (accepted.resolve_left Nat.one_ne_zero).2.2
  revert short
  decide +kernel

end TgFile.S3
