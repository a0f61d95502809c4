import TgFile.Go.Base64
import TgFile.Go.Json
import TgFile.Go.Query
import TgFile.S3.Listing

/-! # Listing objects through the handler

`listObjectsV2` of `server/handler/s3/bucket.go`: the parser of the query, the continuation token
and the page that answers a request.  A truncated page carries a token with the parameters of the
request and its last item; the token of the next request must belong to the same parameters. -/

namespace TgFile.S3

open Go

/-! ## Errors -/

/-- `s3base.APIError`. -/
structure APIError where
  httpStatus : Nat
  code : String
  message : String
  deriving DecidableEq, Repr

namespace APIError

/-- The answer 500. -/
def internalError : APIError :=
  ⟨500, "InternalError", "We encountered an internal error. Please try again."⟩

/-- The answer 400 to a malformed request. -/
def invalidRequest (message : String) : APIError := ⟨400, "InvalidRequest", message⟩

/-- The answer 400 to a malformed parameter. -/
def invalidArgument (message : String) : APIError := ⟨400, "InvalidArgument", message⟩

/-- The answer 400 to a malformed token. -/
def invalidToken : APIError := ⟨400, "InvalidToken", "The continuation token is invalid."⟩

end APIError

/-! ## Continuation tokens -/

/-- `continuationToken`. -/
structure ContinuationToken where
  version : Int
  bucket : Text
  keyPrefix : GoString
  delimiter : Text
  lastItem : Text
  deriving DecidableEq

/-- The longest token. -/
def maxContinuationTokenLength : Nat := 4096

/-- A string as JSON writes it: bytes that are not UTF-8 are replaced. -/
def coerce (replaceInvalid : List UInt8 → Text) : GoString → Text
  | .text text => text
  | .malformed raw _ => replaceInvalid raw

/-- `json.Marshal(token)`. -/
def ContinuationToken.marshal (replaceInvalid : List UInt8 → Text) (token : ContinuationToken) :
    Text :=
  "\x7b\"v\":".toList ++ decimalInt token.version ++
    ",\"bucket\":".toList ++ Json.quote token.bucket ++
    ",\"prefix\":".toList ++ Json.quote (coerce replaceInvalid token.keyPrefix) ++
    ",\"delimiter\":".toList ++ Json.quote token.delimiter ++
    ",\"last_item\":".toList ++ Json.quote token.lastItem ++ "\x7d".toList

/-- The parts of `encoding/json` that are not modelled: what stands for bytes that are not UTF-8,
and `Decode` of one value without unknown fields and with nothing after it.  Decoding gives back
what `Marshal` wrote. -/
structure JsonCodec where
  replaceInvalid : List UInt8 → Text
  decode : List UInt8 → Option ContinuationToken
  decode_marshal : ∀ token : ContinuationToken, token.version = 1 →
    decode (utf8 (token.marshal replaceInvalid)) =
      some { token with keyPrefix := .text (coerce replaceInvalid token.keyPrefix) }

variable (json : JsonCodec)

/-- The token as text. -/
def encodeContinuationToken (token : ContinuationToken) : Text :=
  Base64.encodeToString (utf8 (token.marshal json.replaceInvalid))

/-- The token of a text. -/
def decodeContinuationToken : GoString → Option ContinuationToken
  | .malformed _ _ => none
  | .text value =>
    if value = [] ∨ maxContinuationTokenLength < byteLength value then none
    else do
      let raw ← Base64.decodeString value
      if maxContinuationTokenLength < raw.length then none
      else json.decode raw

/-! ## Requests -/

/-- The request that the parser makes: `S3ListRequest` with the strings of the client. -/
structure ListV2Request where
  bucket : Text
  keyPrefix : GoString
  delimiter : Text
  startAfter : GoString
  continuationToken : Text
  maxKeys : Nat
  deriving DecidableEq

/-- The page size of a request without one. -/
def defaultListMaxKeys : Nat := 1000

/-- No parameter is given twice. -/
def validateListSingletons (query : Values) (singletons : List Text) : Except APIError Unit :=
  singletons.forM fun singleton =>
    if 1 < (query.all singleton).length then
      .error (.invalidArgument "A list parameter was specified more than once.")
    else .ok ()

/-- The parameters of a listing. -/
def validateListV2Singletons (query : Values) : Except APIError Unit :=
  validateListSingletons query ["list-type".toList, "prefix".toList, "delimiter".toList,
    "max-keys".toList, "start-after".toList, "continuation-token".toList, "encoding-type".toList,
    "fetch-owner".toList]

/-- The delimiter and the encoding type. -/
def parseListOptions (query : Values) : Except APIError (Text × Text) := do
  let delimiter ← match query.get "delimiter".toList with
    | .text [] => pure []
    | .text ['/'] => pure ['/']
    | _ => .error (.invalidArgument "Only an empty delimiter or / is supported.")
  let encodingType ←
    if query.get "encoding-type".toList = .text [] then pure []
    else if query.get "encoding-type".toList = .text "url".toList then pure "url".toList
    else .error (.invalidArgument "encoding-type must be url when provided.")
  let fetchOwner := query.get "fetch-owner".toList
  if fetchOwner ≠ .text [] ∧ fetchOwner ≠ .text "true".toList ∧
      fetchOwner ≠ .text "false".toList then
    .error (.invalidArgument "fetch-owner must be true or false.")
  else pure (delimiter, encodingType)

/-- The page size of a request. -/
def parseListMaxKeys (raw : GoString) : Except APIError Nat :=
  if raw = .text [] then .ok defaultListMaxKeys
  else
    match atoi raw with
    | none => .error (.invalidArgument "max-keys must be between 0 and 1000.")
    | some parsed =>
      if parsed < 0 ∨ (defaultListMaxKeys : Int) < parsed then
        .error (.invalidArgument "max-keys must be between 0 and 1000.")
      else .ok parsed.toNat

/-- The token is one of this listing. -/
def continuationTokenMatches (token : ContinuationToken) (request : ListV2Request) : Bool :=
  token.version = 1 ∧ token.bucket = request.bucket ∧ token.keyPrefix = request.keyPrefix ∧
    token.delimiter = request.delimiter ∧ token.lastItem ≠ []

/-- The request, the text of its token and its encoding type. -/
def parseListV2Request (query : Values) (bucket : Text) :
    Except APIError (ListV2Request × GoString × Text) := do
  validateListV2Singletons query
  if query.get "list-type".toList ≠ .text ['2'] then
    .error (.invalidRequest "list-type must be 2.")
  else
    let (delimiter, encodingType) ← parseListOptions query
    let maxKeys ← parseListMaxKeys (query.get "max-keys".toList)
    let startAfter := query.get "start-after".toList
    let tokenText := query.get "continuation-token".toList
    if startAfter ≠ .text [] ∧ tokenText ≠ .text [] then
      .error (.invalidRequest "continuation-token and start-after cannot be combined.")
    else
      let request : ListV2Request :=
        { bucket := bucket, keyPrefix := query.get "prefix".toList, delimiter := delimiter,
          startAfter := startAfter, continuationToken := [], maxKeys := maxKeys }
      if tokenText = .text [] then .ok (request, tokenText, encodingType)
      else
        match decodeContinuationToken json tokenText with
        | none => .error .invalidToken
        | some token =>
          if continuationTokenMatches token request then
            .ok ({ request with continuationToken := token.lastItem }, tokenText, encodingType)
          else .error .invalidToken

/-! ## Answers -/

/-- The rows of the query, in order, for a request with bytes that are not UTF-8: what SQLite makes
of such bytes is not modelled. -/
structure MalformedRows where
  rows : Text → GoString → Text → GoString → Except Err (List S3ListPageEntry)
  ordered : ∀ {bucket keyPrefix delimiter startAfter entries},
    rows bucket keyPrefix delimiter startAfter = .ok entries →
      entries.Pairwise fun a b => a.key < b.key
  refs : ∀ {bucket keyPrefix delimiter startAfter entries},
    rows bucket keyPrefix delimiter startAfter = .ok entries →
      ∀ entry ∈ entries, ∃ fileID, entry.refData = some fileID

/-- `ListS3Objects` of a request of the handler. -/
def listRequestedObjects (malformed : MalformedRows) (env : Env) (s : Store)
    (request : ListV2Request) : Except Err S3ListResult :=
  match request.keyPrefix, request.startAfter with
  | .text keyPrefix, .text startAfter =>
    s.listS3Objects env ⟨request.bucket, keyPrefix, request.delimiter, startAfter,
      request.continuationToken, request.maxKeys⟩
  | keyPrefix, startAfter =>
    let result : S3ListResult := ⟨[], [], [], false⟩
    if request.maxKeys = 0 then .ok result
    else do
      let rows ← malformed.rows request.bucket keyPrefix request.delimiter startAfter
      let (page, truncated) := Store.readS3ListPage rows request.maxKeys
      page.foldlM
        (s.appendS3ListEntry env
          ⟨request.bucket, [], request.delimiter, [], [], request.maxKeys⟩)
        { result with isTruncated := truncated }

/-- `listBucketV2Result`, with the values before their percent-encoding. -/
structure ListBucketV2Result where
  name : Text
  keyPrefix : GoString
  delimiter : Text
  maxKeys : Nat
  keyCount : Nat
  isTruncated : Bool
  continuationToken : GoString
  nextContinuationToken : Text
  startAfter : GoString
  encodingType : Text
  contents : List S3ListItem
  commonPrefixes : List Text
  deriving DecidableEq

/-- The handler of a listing. -/
def listObjectsV2 (malformed : MalformedRows) (env : Env) (s : Store)
    (bucket : Text) (query : Values) : Except APIError ListBucketV2Result := do
  let (request, tokenText, encodingType) ← parseListV2Request json query bucket
  match listRequestedObjects malformed env s request with
  | .error _ => .error .internalError
  | .ok result =>
    let token := encodeContinuationToken json
      ⟨1, bucket, request.keyPrefix, request.delimiter, result.nextKey⟩
    .ok {
      name := bucket
      keyPrefix := request.keyPrefix
      delimiter := request.delimiter
      maxKeys := request.maxKeys
      keyCount := result.items.length + result.commonPrefixes.length
      isTruncated := result.isTruncated
      continuationToken := tokenText
      nextContinuationToken := if result.isTruncated then token else []
      startAfter := request.startAfter
      encodingType := encodingType
      contents := result.items
      commonPrefixes := result.commonPrefixes }

end TgFile.S3
